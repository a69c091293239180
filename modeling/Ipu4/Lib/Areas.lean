import Mathlib.Data.List.Basic

/-!
# Areas of memory, one behind the other

Areas that follow each other without going back do not overlap, and all of them lie
between the place where the first may start and the place where the last has ended.
-/

namespace Ipu4

structure Area where
  start : Nat
  len : Nat
  deriving DecidableEq, Repr

namespace Area

def Disjoint (a b : Area) : Prop := a.start + a.len ≤ b.start ∨ b.start + b.len ≤ a.start

def Within (a : Area) (lo hi : Nat) : Prop := lo ≤ a.start ∧ a.start + a.len ≤ hi

/-- From `lo` to `hi`, each area behind the one before it. -/
def InOrder : Nat → List Area → Nat → Prop
  | lo, [], hi => lo ≤ hi
  | lo, a :: as, hi => lo ≤ a.start ∧ InOrder (a.start + a.len) as hi

variable {as bs : List Area} {lo mid hi : Nat}

theorem InOrder.le (h : InOrder lo as hi) : lo ≤ hi := by
  induction as generalizing lo with
  | nil => exact h
  | cons a as ih => exact Nat.le_trans h.1 (Nat.le_trans (Nat.le_add_right _ _) (ih h.2))

theorem InOrder.start_le (h : InOrder mid as hi) (hlo : lo ≤ mid) : InOrder lo as hi := by
  cases as with
  | nil => exact Nat.le_trans hlo h
  | cons a as => exact ⟨Nat.le_trans hlo h.1, h.2⟩

theorem InOrder.append (h : InOrder lo as mid) (h' : InOrder mid bs hi) : InOrder lo (as ++ bs) hi := by
  induction as generalizing lo with
  | nil => exact h'.start_le h
  | cons a as ih => exact ⟨h.1, ih h.2⟩

theorem InOrder.within (h : InOrder lo as hi) : ∀ a ∈ as, a.Within lo hi := by
  induction as generalizing lo with
  | nil => simp
  | cons a as ih =>
    rintro b hb
    cases hb with
    | head => exact ⟨h.1, h.2.le⟩
    | tail _ hb =>
      obtain ⟨hstart, hend⟩ := ih h.2 b hb
      exact ⟨Nat.le_trans h.1 (Nat.le_trans (Nat.le_add_right _ _) hstart), hend⟩

theorem InOrder.pairwise (h : InOrder lo as hi) : as.Pairwise Disjoint := by
  induction as generalizing lo with
  | nil => exact .nil
  | cons a as ih => exact .cons (fun b hb => .inl (h.2.within b hb).1) (ih h.2)

end Area

end Ipu4
