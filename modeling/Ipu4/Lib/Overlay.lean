import Mathlib.Logic.Function.Basic

/-!
# Functions changed on an interval

`overlay g b n v` is `g` with the `n` arguments from `b` on replaced by the
values `v 0`, `v 1`, … A loop that writes one point after the other computes
an overlay, and writing the old value back undoes it.
-/

namespace Ipu4.Overlay

def overlay (g : Nat → α) (b n : Nat) (v : Nat → α) : Nat → α :=
  fun p => if b ≤ p ∧ p < b + n then v (p - b) else g p

theorem overlay_apply (hk : k < n) : overlay g b n v (b + k) = v k := by
  have hin : b ≤ b + k ∧ b + k < b + n := by omega
  simp [overlay, hk]

theorem overlay_of_mem (h₁ : b ≤ p) (h₂ : p < b + n) : overlay g b n v p = v (p - b) := by
  simp [overlay, h₁, h₂]

theorem overlay_of_not_mem (h : ¬ (b ≤ p ∧ p < b + n)) : overlay g b n v p = g p := by
  simp only [overlay, if_neg h]

@[simp]
theorem overlay_zero : overlay g b 0 v = g := by
  funext p
  exact overlay_of_not_mem (by omega)

theorem overlay_congr (h : ∀ k < n, v k = w k) : overlay g b n v = overlay g b n w := by
  funext p
  by_cases hp : b ≤ p ∧ p < b + n
  · rw [overlay_of_mem hp.1 hp.2, overlay_of_mem hp.1 hp.2, h _ (by omega)]
  · rw [overlay_of_not_mem hp, overlay_of_not_mem hp]

theorem overlay_succ :
    overlay (Function.update g b (v 0)) (b + 1) n (fun k => v (k + 1)) = overlay g b (n + 1) v := by
  funext p
  by_cases hp : b + 1 ≤ p ∧ p < b + 1 + n
  · rw [overlay_of_mem hp.1 hp.2, overlay_of_mem (by omega) (by omega)]
    congr 1
    omega
  · rw [overlay_of_not_mem hp]
    by_cases hb : p = b
    · subst hb
      rw [Function.update_self, overlay_of_mem (by omega) (by omega), Nat.sub_self]
    · rw [Function.update_of_ne hb, overlay_of_not_mem (by omega)]

theorem overlay_append :
    overlay (overlay g b n v) (b + n) m (fun k => v (n + k)) = overlay g b (n + m) v := by
  funext p
  by_cases hp : b + n ≤ p ∧ p < b + n + m
  · rw [overlay_of_mem hp.1 hp.2, overlay_of_mem (by omega) (by omega)]
    congr 1
    omega
  · rw [overlay_of_not_mem hp]
    by_cases hb : b ≤ p ∧ p < b + n
    · rw [overlay_of_mem hb.1 hb.2, overlay_of_mem (by omega) (by omega)]
    · rw [overlay_of_not_mem hb, overlay_of_not_mem (by omega)]

theorem overlay_overlay : overlay (overlay g b n v) b n w = overlay g b n w := by
  funext p
  by_cases hp : b ≤ p ∧ p < b + n
  · rw [overlay_of_mem hp.1 hp.2, overlay_of_mem hp.1 hp.2]
  · rw [overlay_of_not_mem hp, overlay_of_not_mem hp, overlay_of_not_mem hp]

theorem overlay_eq_self (h : ∀ k < n, g (b + k) = v k) : overlay g b n v = g := by
  funext p
  by_cases hp : b ≤ p ∧ p < b + n
  · rw [overlay_of_mem hp.1 hp.2, ← h (p - b) (by omega)]
    congr 1
    omega
  · rw [overlay_of_not_mem hp]

theorem overlay_shrink (h : g (b + n) = w) :
    overlay (overlay g b (n + 1) v) (b + n) 1 (fun _ => w) = overlay g b n v := by
  funext p
  by_cases hp : p = b + n
  · subst hp
    rw [overlay_of_mem (by omega) (by omega), overlay_of_not_mem (by omega), h]
  · rw [overlay_of_not_mem (by omega)]
    by_cases hb : b ≤ p ∧ p < b + n
    · rw [overlay_of_mem hb.1 hb.2, overlay_of_mem (by omega) (by omega)]
    · rw [overlay_of_not_mem hb, overlay_of_not_mem (by omega)]

theorem comp_overlay (f : α → β) :
    (fun p => f (overlay g b n v p)) = overlay (fun p => f (g p)) b n (fun k => f (v k)) := by
  funext p
  by_cases hp : b ≤ p ∧ p < b + n
  · rw [overlay_of_mem hp.1 hp.2, overlay_of_mem hp.1 hp.2]
  · rw [overlay_of_not_mem hp, overlay_of_not_mem hp]

end Ipu4.Overlay
