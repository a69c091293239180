import Ipu4.Lib.Overlay

/-!
# Memory through a page map

Who goes through a map from pages to frames sees an address space of his own. Where no two
pages go to the frame of a live page, what he sees of the live pages is a flat memory:
a write is seen at its own addresses and nowhere else. Pages have `P` cells.
-/

namespace Ipu4.Paged

open Overlay

variable {α : Type} {P N : Nat} {t t' : Nat → Nat} {live live' : Nat → Prop} {mem mem' A : Nat → α}

/-- Where the cell of address `x` is. -/
def addr (P : Nat) (t : Nat → Nat) (x : Nat) : Nat := t (x / P) * P + x % P

/-- A flat memory after a write of `buf` from `x` on. -/
def put (A : Nat → α) (x : Nat) (buf : List α) : Nat → α := fun y =>
  if x ≤ y then buf[y - x]?.getD (A y) else A y

/-- Pages below `N` do not share the frame of a live page. -/
structure Private (N : Nat) (t : Nat → Nat) (live : Nat → Prop) : Prop where
  bound : ∀ p, live p → p < N
  alone : ∀ p q, live p → q < N → t q = t p → q = p

/-- The live pages are seen as `A` has them. -/
def Sees (P : Nat) (t : Nat → Nat) (live : Nat → Prop) (mem A : Nat → α) : Prop :=
  ∀ x, live (x / P) → mem (addr P t x) = A x

theorem addr_div (hP : 0 < P) (x : Nat) : addr P t x / P = t (x / P) := by
  rw [addr, Nat.mul_comm, Nat.mul_add_div hP, Nat.div_eq_of_lt (Nat.mod_lt _ hP), Nat.add_zero]

theorem addr_mod (x : Nat) : addr P t x % P = x % P := by
  rw [addr, Nat.mul_comm, Nat.mul_add_mod, Nat.mod_mod]

theorem addr_inj (hP : 0 < P) (h : Private N t live) (hx : live (x / P)) (hy : y / P < N)
    (heq : addr P t y = addr P t x) : y = x := by
  have hpage := h.alone _ _ hx hy (by rw [← addr_div (t := t) hP, heq, addr_div hP])
  have hoff : y % P = x % P := by rw [← addr_mod (t := t), heq, addr_mod]
  rw [← Nat.div_add_mod y P, ← Nat.div_add_mod x P, hpage, hoff]

theorem put_at (h : i < buf.length) : put A x buf (x + i) = buf[i] := by
  simp [put, h]

theorem put_outside (h : ∀ i < buf.length, x + i ≠ y) : put A x buf y = A y := by
  unfold put
  split
  · next hle =>
    have hout : buf.length ≤ y - x := by
      by_contra hlt
      exact h (y - x) (by omega) (by omega)
    rw [List.getElem?_eq_none hout]
    rfl
  · rfl

namespace Sees

theorem congr (hP : 0 < P) (h : Sees P t live mem A) (hsame : ∀ p a, live p → a / P = t p → mem' a = mem a) :
    Sees P t live mem' A := by
  intro x hx
  rw [hsame _ _ hx (addr_div hP x)]
  exact h x hx

theorem put (hP : 0 < P) (h : Sees P t live mem A) (hp : Private N t live)
    (hin : ∀ i < buf.length, (x + i) / P < N)
    (hnew : ∀ i (hi : i < buf.length), mem' (addr P t (x + i)) = buf[i])
    (hold : ∀ a, (∀ i < buf.length, addr P t (x + i) ≠ a) → mem' a = mem a) :
    Sees P t live mem' (Paged.put A x buf) := by
  intro y hy
  by_cases hat : ∃ i < buf.length, x + i = y
  · obtain ⟨i, hi, rfl⟩ := hat
    rw [hnew i hi, put_at hi]
  · have hout : ∀ i < buf.length, x + i ≠ y := fun i hi heq => hat ⟨i, hi, heq⟩
    rw [put_outside hout, hold _ fun i hi heq => hout i hi (addr_inj hP hp hy (hin i hi) heq)]
    exact h y hy

theorem put_block (hP : 0 < P) (h : Sees P t live mem A) (hp : Private N t live)
    (hin : ∀ i < buf.length, (x + i) / P < N) (hrow : ∀ i < buf.length, addr P t (x + i) = addr P t x + i) :
    Sees P t live (Paged.put mem (addr P t x) buf) (Paged.put A x buf) := by
  refine h.put hP hp hin (fun i hi => ?_) fun a hout => ?_
  · rw [hrow i hi, put_at hi]
  · exact put_outside fun i hi => by
      rw [← hrow i hi]
      exact hout i hi

theorem remap (h : Sees P t live mem A) (hsub : ∀ p, live' p → live p ∧ t' p = t p) :
    Sees P t' live' mem A := by
  intro x hx
  obtain ⟨hlive, heq⟩ := hsub _ hx
  rw [addr, heq]
  exact h x hlive

end Sees

namespace Private

theorem add (h : Private N t live) (hb : lo + n ≤ N) (hinj : ∀ i < n, ∀ j < n, f i = f j → i = j)
    (hfresh : ∀ i < n, ∀ q < N, t q ≠ f i) :
    Private N (overlay t lo n f) fun p => lo ≤ p ∧ p < lo + n ∨ live p := by
  have hin : ∀ p, lo ≤ p → p < lo + n → ∃ i < n, p = lo + i ∧ overlay t lo n f p = f i := by
    intro p hlo hhi
    obtain ⟨i, rfl⟩ := Nat.exists_eq_add_of_le hlo
    exact ⟨i, by omega, rfl, overlay_apply (by omega)⟩
  refine ⟨?_, ?_⟩
  · rintro p (⟨-, hhi⟩ | hp)
    · omega
    · exact h.bound p hp
  · intro p q hp hq heq
    by_cases hpin : lo ≤ p ∧ p < lo + n
    · obtain ⟨i, hi, rfl, hfi⟩ := hin p hpin.1 hpin.2
      rw [hfi] at heq
      by_cases hqin : lo ≤ q ∧ q < lo + n
      · obtain ⟨j, hj, rfl, hfj⟩ := hin q hqin.1 hqin.2
        rw [hfj] at heq
        rw [hinj j hj i hi heq]
      · rw [overlay_of_not_mem hqin] at heq
        exact absurd heq (hfresh i hi q hq)
    · have hlive := hp.resolve_left hpin
      rw [overlay_of_not_mem hpin] at heq
      by_cases hqin : lo ≤ q ∧ q < lo + n
      · obtain ⟨j, hj, rfl, hfj⟩ := hin q hqin.1 hqin.2
        rw [hfj] at heq
        exact absurd heq.symm (hfresh j hj p (h.bound p hlive))
      · rw [overlay_of_not_mem hqin] at heq
        exact h.alone p q hlive hq heq

theorem drop (h : Private N t live) (hsub : ∀ p, live' p → live p ∧ ¬ (lo ≤ p ∧ p < lo + n))
    (hd : ∀ p, live p → t p ≠ d) : Private N (overlay t lo n fun _ => d) live' where
  bound p hp := h.bound p (hsub p hp).1
  alone p q hp hq heq := by
    obtain ⟨hlive, hout⟩ := hsub p hp
    rw [overlay_of_not_mem hout] at heq
    by_cases hqin : lo ≤ q ∧ q < lo + n
    · rw [overlay_of_mem hqin.1 hqin.2] at heq
      exact absurd heq.symm (hd p hlive)
    · rw [overlay_of_not_mem hqin] at heq
      exact h.alone p q hlive hq heq

end Private

end Ipu4.Paged
