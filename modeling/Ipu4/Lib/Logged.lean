import Mathlib.Data.List.Basic

/-!
# Computations that log what they do

A computation gives a value and the list of its accesses. What is to hold of every
access is a predicate on the log, and the rules below take it through the program:
through sequence, choice, and the loop that stops at the first error.
-/

namespace Ipu4

structure Logged (ε : Type) (α : Type) where
  val : α
  log : List ε

namespace Logged

instance : Monad (Logged ε) where
  pure a := ⟨a, []⟩
  bind m f := ⟨(f m.val).val, m.log ++ (f m.val).log⟩

def emit (e : ε) : Logged ε Unit := ⟨(), [e]⟩

/-- `P` holds of every access. -/
def All (P : ε → Prop) (m : Logged ε α) : Prop := ∀ e ∈ m.log, P e

section
variable {ε α β : Type} {P Q : ε → Prop} {m : Logged ε α} {f : α → Logged ε β} {c : Prop} [Decidable c]

@[simp] theorem val_pure (a : α) : (pure a : Logged ε α).val = a := rfl

@[simp] theorem log_pure (a : α) : (pure a : Logged ε α).log = [] := rfl

@[simp] theorem val_bind : (m >>= f).val = (f m.val).val := rfl

@[simp] theorem log_bind : (m >>= f).log = m.log ++ (f m.val).log := rfl

@[simp] theorem val_map (g : α → β) : (g <$> m).val = g m.val := rfl

@[simp] theorem log_map (g : α → β) : (g <$> m).log = m.log := List.append_nil _

@[simp] theorem val_emit (e : ε) : (emit e).val = () := rfl

@[simp] theorem log_emit (e : ε) : (emit e).log = [e] := rfl

theorem val_ite (a b : Logged ε α) : (if c then a else b).val = if c then a.val else b.val :=
  apply_ite _ _ _ _

@[simp] theorem all_pure (a : α) : All P (pure a : Logged ε α) := nofun

@[simp] theorem all_emit (e : ε) : All P (emit e) ↔ P e := List.forall_mem_singleton

@[simp] theorem all_bind : All P (m >>= f) ↔ All P m ∧ All P (f m.val) := List.forall_mem_append

@[simp] theorem all_map (g : α → β) : All P (g <$> m) ↔ All P m := by
  unfold All
  rw [log_map]

theorem all_ite (a b : Logged ε α) :
    All P (if c then a else b) ↔ (c → All P a) ∧ (¬ c → All P b) := by
  split
  · simp [*]
  · simp [*]

end

-- ---------------------------------------------------------------------------
-- Loops
-- ---------------------------------------------------------------------------

/-- `n` rounds from round `i` on, up to the first one that does not return 0. -/
def forErr (body : Nat → Logged ε Int) : Nat → Nat → Logged ε Int
  | 0, _ => pure 0
  | n + 1, i => do
    let ret ← body i
    if ret ≠ 0 then pure ret else forErr body n (i + 1)

section
variable {ε : Type} {P : ε → Prop} {body : Nat → Logged ε Int} {i : Nat}

theorem forall_lt_succ_shift {p : Nat → Prop} :
    (∀ k < n + 1, p (i + k)) ↔ p i ∧ ∀ k < n, p (i + 1 + k) := by
  constructor
  · intro h
    refine ⟨h 0 (by omega), fun k hk => ?_⟩
    have hnext := h (k + 1) (by omega)
    rwa [← Nat.add_assoc, Nat.add_right_comm] at hnext
  · rintro ⟨hfirst, hrest⟩ k hk
    cases k with
    | zero => exact hfirst
    | succ k =>
      have hnext := hrest k (by omega)
      rwa [Nat.add_right_comm, Nat.add_assoc] at hnext

theorem val_forErr (n i : Nat) : (forErr body n i).val = 0 ↔ ∀ k < n, (body (i + k)).val = 0 := by
  induction n generalizing i with
  | zero => simp [forErr]
  | succ n ih =>
    rw [forall_lt_succ_shift (p := fun j => (body j).val = 0), ← ih]
    by_cases h : (body i).val = 0
    · simp [forErr, h]
    · simp [forErr, h]

theorem all_forErr (n i : Nat) : All P (forErr body n i) ↔
    ∀ k < n, (∀ j < k, (body (i + j)).val = 0) → All P (body (i + k)) := by
  induction n generalizing i with
  | zero => simp [forErr]
  | succ n ih =>
    simp only [forErr, all_bind]
    constructor
    · rintro ⟨hfirst, hrest⟩ k hk hbefore
      cases k with
      | zero => exact hfirst
      | succ k =>
        have hzero : (body i).val = 0 := hbefore 0 (by omega)
        rw [if_neg (not_not.mpr hzero), ih] at hrest
        have hround := hrest k (by omega) fun j hj => by
          have hnext := hbefore (j + 1) (by omega)
          rwa [← Nat.add_assoc, Nat.add_right_comm] at hnext
        rwa [Nat.add_right_comm, Nat.add_assoc] at hround
    · intro h
      refine ⟨h 0 (by omega) nofun, ?_⟩
      by_cases hzero : (body i).val = 0
      · rw [if_neg (not_not.mpr hzero), ih]
        intro k hk hbefore
        have hround := h (k + 1) (by omega) fun j hj => by
          cases j with
          | zero => exact hzero
          | succ j =>
            have hnext := hbefore j (by omega)
            rwa [Nat.add_right_comm, Nat.add_assoc] at hnext
        rwa [← Nat.add_assoc, Nat.add_right_comm] at hround
      · rw [if_pos hzero]
        exact all_pure _

theorem log_forErr (n i : Nat) (h : ∀ k < n, (body (i + k)).val = 0) :
    (forErr body n i).log = (List.range n).flatMap fun k => (body (i + k)).log := by
  induction n generalizing i with
  | zero => rfl
  | succ n ih =>
    obtain ⟨hfirst, hrest⟩ := (forall_lt_succ_shift (p := fun j => (body j).val = 0)).mp h
    have hshift : ∀ k, body (i + 1 + k) = body (i + (k + 1)) := fun k => by
      rw [Nat.add_assoc, Nat.add_comm 1 k]
    rw [List.range_succ_eq_map, List.flatMap_cons, List.flatMap_map]
    simp [forErr, hfirst, ih _ hrest, hshift]

end

end Logged

end Ipu4
