import Mathlib.Data.List.Basic
import Ipu4.Lib.Trace

/-!
# Objects behind pointers

A pointer is null, carries an error number, or leads to an object. The monitor
holds the objects that have been made and not been freed, and lets nothing be
read or freed but through a pointer to one of them. Along a clean trace every
object is made as often as it is freed and still held together.
-/

namespace Ipu4.Objects

open Trace

/-- What `ERR_PTR` can carry. -/
structure Errno where
  code : Nat
  positive : 0 < code
  atMost : code ≤ 4095
  deriving DecidableEq, Repr

inductive Ptr (α : Type)
  | null
  | err (e : Errno)
  | obj (x : α)
  deriving DecidableEq, Repr

def Ptr.map (f : α → β) : Ptr α → Ptr β
  | .null => .null
  | .err e => .err e
  | .obj x => .obj (f x)

inductive Access (α : Type)
  | get (x : α)
  | use (p : Ptr α)
  | put (p : Ptr α)
  deriving DecidableEq, Repr

variable {α : Type} [DecidableEq α]

def Ptr.Live (held : List α) : Ptr α → Prop
  | .obj x => x ∈ held
  | _ => False

instance (held : List α) (p : Ptr α) : Decidable (p.Live held) := by
  cases p <;> unfold Ptr.Live <;> infer_instance

def next (held : List α) : Access α → List α
  | .get x => x :: held
  | .put (.obj x) => held.erase x
  | _ => held

def Allows (held : List α) : Access α → Prop
  | .get _ => True
  | .use p => p.Live held
  | .put p => p.Live held

instance (held : List α) (a : Access α) : Decidable (Allows held a) := by
  cases a <;> unfold Allows <;> infer_instance

def objects (α : Type) [DecidableEq α] : Monitor (List α) (Access α) := ⟨next, Allows⟩

instance (held : List α) (a : Access α) : Decidable ((objects α).allows held a) :=
  inferInstanceAs (Decidable (Allows held a))

variable {held : List α} {log : List (Access α)} {p : Ptr α} {x : α}

theorem Clean.count (h : Clean (objects α) held log) (x : α) :
    (after (objects α) held log).count x + log.count (.put (.obj x)) =
      held.count x + log.count (.get x) := by
  induction log generalizing held with
  | nil => simp
  | cons a log ih =>
    obtain ⟨hallow, hrest⟩ := h
    have hcount := ih hrest
    rw [after_cons, List.count_cons, List.count_cons]
    cases a with
    | get y =>
      by_cases hy : y = x
      · subst hy
        simp only [objects, next, List.count_cons_self] at hcount ⊢
        simp
        omega
      · simp only [objects, next, List.count_cons_of_ne hy] at hcount ⊢
        simpa [hy] using hcount
    | use q => simpa [objects, next] using hcount
    | put q =>
      cases q with
      | null => exact hallow.elim
      | err e => exact hallow.elim
      | obj y =>
        by_cases hy : y = x
        · subst hy
          have hpos : 0 < held.count y := List.count_pos_iff.mpr hallow
          simp only [objects, next, List.count_erase_self] at hcount ⊢
          simp
          omega
        · simp only [objects, next, List.count_erase_of_ne (Ne.symm hy)] at hcount ⊢
          simpa [hy] using hcount

theorem Clean.use_obj (h : Clean (objects α) held log) (hp : .use p ∈ log) : ∃ x, p = .obj x := by
  induction log generalizing held with
  | nil => cases hp
  | cons a log ih =>
    obtain ⟨hallow, hrest⟩ := h
    cases hp with
    | tail _ hp => exact ih hrest hp
    | head =>
      cases p with
      | obj x => exact ⟨x, rfl⟩
      | null => exact hallow.elim
      | err e => exact hallow.elim

end Ipu4.Objects
