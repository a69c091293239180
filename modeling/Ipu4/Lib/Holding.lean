import Mathlib.Data.List.Perm.Basic
import Mathlib.Data.List.Range
import Ipu4.Lib.Trace

/-!
# Resources held along a trace

A trace of resources taken and given back. The monitor holds what has been
taken and not given back, and lets nothing be given back that is not held; so
a clean trace that ends with nothing held gives every resource back exactly
once. What is held is compared up to order.
-/

namespace Ipu4.Holding

open Trace

inductive Move (α : Type)
  | get (x : α)
  | put (x : α)
  deriving DecidableEq, Repr

variable {α : Type} [DecidableEq α]

def next (held : List α) : Move α → List α
  | .get x => x :: held
  | .put x => held.erase x

def Allows (held : List α) : Move α → Prop
  | .get _ => True
  | .put x => x ∈ held

def holding (α : Type) [DecidableEq α] : Monitor (List α) (Move α) := ⟨next, Allows⟩

/-- Everything taken is given back, and nothing else is. -/
def Balanced (moves : List (Move α)) : Prop := EndsIn (holding α) [] moves (· = [])

/-- `moves` turns what is held into `held'`. -/
def Moves (held : List α) (moves : List (Move α)) (held' : List α) : Prop :=
  EndsIn (holding α) held moves (·.Perm held')

variable {held held' rest : List α} {moves : List (Move α)}

theorem Moves.nil (h : held.Perm held') : Moves held [] held' := EndsIn.nil h

theorem Moves.get (x : α) (h : Moves (x :: held) moves held') : Moves held (.get x :: moves) held' :=
  EndsIn.cons trivial h

theorem Moves.put (h : held.Perm (x :: rest)) (hrest : ∀ l : List α, l.Perm rest → Moves l moves held') :
    Moves held (.put x :: moves) held' := by
  refine EndsIn.cons (h.mem_iff.mpr List.mem_cons_self) (hrest _ ?_)
  have herase := h.erase x
  rwa [List.erase_cons_head] at herase

theorem Moves.perm (h : Moves held moves held') (hp : rest.Perm held) : Moves rest moves held' := by
  induction moves generalizing held rest with
  | nil => exact .nil (hp.trans h.2)
  | cons m moves ih =>
    obtain ⟨⟨hallow, hclean⟩, hend⟩ := h
    cases m with
    | get x => exact .get x (ih ⟨hclean, hend⟩ (hp.cons x))
    | put x => exact EndsIn.cons (hp.mem_iff.mpr hallow) (ih ⟨hclean, hend⟩ (hp.erase x))

theorem Moves.trans (h : Moves held moves rest) (h' : Moves rest moves' held') :
    Moves held (moves ++ moves') held' :=
  EndsIn.append h fun _ hp => h'.perm hp

theorem Moves.puts (xs : List α) (h : held.Perm (xs ++ rest)) : Moves held (xs.map .put) rest := by
  induction xs generalizing held with
  | nil => exact .nil h
  | cons x xs ih => exact .put h fun l hl => ih hl

theorem flatMap_update_perm {f : Nat → List α} (hi : i < n) (hf : f i = []) (xs : List α) :
    ((List.range n).flatMap (Function.update f i xs)).Perm (xs ++ (List.range n).flatMap f) := by
  induction n with
  | zero => omega
  | succ n ih =>
    rw [List.range_succ, List.flatMap_append, List.flatMap_append, List.flatMap_singleton,
      List.flatMap_singleton]
    by_cases hn : i = n
    · subst hn
      have hsame : (List.range i).flatMap (Function.update f i xs) = (List.range i).flatMap f := by
        refine List.flatMap_congr fun k hk => ?_
        exact Function.update_of_ne (Nat.ne_of_lt (List.mem_range.mp hk)) ..
      rw [hsame, Function.update_self, hf, List.append_nil]
      exact List.perm_append_comm
    · rw [Function.update_of_ne (Ne.symm hn), ← List.append_assoc]
      exact (ih (by omega)).append_right _

end Ipu4.Holding
