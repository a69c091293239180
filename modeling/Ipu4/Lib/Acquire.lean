import Ipu4.Lib.Prog

/-!
# All or nothing

A program that acquires resources and fails gives back what it has acquired: a later step
that fails is undone by the steps before it. Contracts of such programs say what is held
besides what was held before, so they compose. `notes` is whatever else a monitor keeps.
-/

namespace Ipu4

structure Owned (α τ : Type) where
  held : α → Prop
  notes : τ

namespace Owned

variable {α τ : Type}

def add (t : Owned α τ) (S : α → Prop) : Owned α τ := { t with held := fun r => t.held r ∨ S r }

/-- Nothing of `S` is held. -/
def Free (S : α → Prop) (t : Owned α τ) : Prop := ∀ r, S r → ¬ t.held r

theorem add_comm (t : Owned α τ) (S S' : α → Prop) : (t.add S).add S' = (t.add S').add S :=
  congrArg (Owned.mk · t.notes) (funext fun _ => propext or_right_comm)

theorem add_add (t : Owned α τ) (S S' : α → Prop) : (t.add S).add S' = t.add fun r => S r ∨ S' r :=
  congrArg (Owned.mk · t.notes) (funext fun _ => propext or_assoc)

theorem add_none (t : Owned α τ) (h : ∀ r, ¬ S r) : t.add S = t :=
  congrArg (Owned.mk · t.notes) (funext fun r => propext (or_iff_left (h r)))

theorem add_congr (t : Owned α τ) (h : ∀ r, S r ↔ S' r) : t.add S = t.add S' := by
  obtain rfl : S = S' := funext fun r => propext (h r)
  rfl

theorem Free.add {t : Owned α τ} (h : Free S t) (hd : ∀ r, S r → ¬ S' r) : Free S (t.add S') :=
  fun r hr => not_or.mpr ⟨h r hr, hd r hr⟩

/-- What a relation does is done beside `S` as well. -/
def Framed (R : Owned α τ → Owned α τ → Prop) (S : α → Prop) : Prop :=
  ∀ t u, Free S t → R (t.add S) u → ∃ t', R t t' ∧ Free S t' ∧ u = t'.add S

theorem framed_eq (S : α → Prop) : Framed (τ := τ) (fun t u => u = t) S :=
  fun t _ ht h => ⟨t, rfl, ht, h⟩

end Owned

namespace Prog

open Owned

variable {ε α β τ : Type} {Ans : ε → Type}

/-- Goes on with `rest` if `p` succeeds. If `rest` fails, `undo` takes back what `p` did. -/
def undoing (p : Prog Ans (Option β)) (undo : Prog Ans Unit) (rest : Prog Ans (Option β)) :
    Prog Ans (Option β) := do
  if let some e ← p then return some e
  if let some e ← rest then
    undo
    return some e
  return none

/-- Undoes the rounds below `n`, the last one first. -/
def unwind (fini : Nat → Prog Ans Unit) : Nat → Prog Ans Unit
  | 0 => pure ()
  | i + 1 => do
    fini i
    unwind fini i

/-- One after the other, up to the first that fails. -/
def firstError {γ : Type} (f : γ → Prog Ans (Option β)) : List γ → Prog Ans (Option β)
  | [] => return none
  | c :: cs => do
    if let some e ← f c then return some e
    firstError f cs

/-- `n` rounds from `i` on. The first that fails undoes those before it. -/
def initFrom (init : Nat → Prog Ans (Option β)) (fini : Nat → Prog Ans Unit) (i : Nat) :
    Nat → Prog Ans (Option β)
  | 0 => return none
  | n + 1 => do
    if let some e ← init i then
      unwind fini i
      return some e
    initFrom init fini (i + 1) n

section
variable (N : Trace.Monitor (Owned α τ) (Event Ans))

/-- From where `pre` holds, success ends in `Done` and failure in `Left`. -/
def Ends (p : Prog Ans (Option β)) (pre : Owned α τ → Prop) (Done Left : Owned α τ → Owned α τ → Prop) : Prop :=
  ∀ t, pre t → Meets N p t fun ret t' => if ret.isNone then Done t t' else Left t t'

/-- All of `S` is acquired, or nothing. -/
def Acquires (p : Prog Ans (Option β)) (S : α → Prop) : Prop :=
  Ends N p (Free S) (fun t t' => t' = t.add S) (fun t t' => t' = t)

def Releases (q : Prog Ans Unit) (S : α → Prop) : Prop :=
  ∀ t, Free S t → Meets N q (t.add S) fun _ t' => t' = t

end

section
variable {N : Trace.Monitor (Owned α τ) (Event Ans)} {p rest : Prog Ans (Option β)} {undo q q' : Prog Ans Unit}
  {S S' : α → Prop} {Done Left : Owned α τ → Owned α τ → Prop}

theorem meets_firstError {γ : Type} {f : γ → Prog Ans (Option β)} {I : List γ → Owned α τ → Prop}
    {Q : Option β → Owned α τ → Prop} {t : Owned α τ} (cs : List γ) (ht : I cs t)
    (hstep : ∀ c cs t, I (c :: cs) t → Meets N (f c) t fun ret t' => if ret.isNone then I cs t' else Q ret t')
    (hend : ∀ t, I [] t → Q none t) : Meets N (firstError f cs) t Q := by
  induction cs generalizing t with
  | nil => exact hend t ht
  | cons c cs ih =>
    unfold firstError
    rw [meets_bind]
    refine (hstep c cs t ht).imp fun ret t' ht' => ?_
    cases ret with
    | none => exact ih ht'
    | some e => exact ht'

theorem meets_onError {f : Option β → Prog Ans (Option β)} {Q : Option β → Owned α τ → Prop} {t : Owned α τ}
    (h : Meets N p t fun ret t' => ret.elim (Q none t') fun e => Meets N undo t' fun _ u => Q (some e) u)
    (hnone : f none = pure none) (hsome : ∀ e, f (some e) = undo >>= fun _ => pure (some e)) :
    Meets N (p >>= f) t Q := by
  rw [meets_bind]
  refine h.imp fun ret t' ht' => ?_
  cases ret with
  | none =>
    rw [hnone]
    exact ht'
  | some e =>
    rw [hsome, meets_bind]
    exact ht'

theorem Ends.undoing (hp : Acquires N p S) (hu : Releases N undo S) (hr : Ends N rest (Free S') Done Left)
    (hd : ∀ r, S r → ¬ S' r) (hleft : Framed Left S) (hrefl : ∀ t, Left t t) :
    Ends N (undoing p undo rest) (Free fun r => S r ∨ S' r) (fun t => Done (t.add S)) Left := by
  intro t ht
  have hS : Free S t := fun r hr => ht r (.inl hr)
  have hS' : Free S' (t.add S) := Free.add (fun r hr => ht r (.inr hr)) fun r hr' hr => hd r hr hr'
  unfold Prog.undoing
  rw [meets_bind]
  refine (hp t hS).imp fun ret t' ht' => ?_
  cases ret with
  | some e =>
    obtain rfl := ht'
    exact hrefl t'
  | none =>
    obtain rfl := ht'
    refine meets_onError ((hr _ hS').imp fun ret t' ht' => ?_) (by rfl) fun _ => by rfl
    cases ret with
    | none => exact ht'
    | some e =>
      obtain ⟨u, hu', hfree, rfl⟩ := hleft t t' hS ht'
      refine (hu u hfree).imp fun _ t' heq => ?_
      rw [heq]
      exact hu'

theorem Acquires.undoing (hp : Acquires N p S) (hu : Releases N undo S) (hr : Acquires N rest S')
    (hd : ∀ r, S r → ¬ S' r) : Acquires N (undoing p undo rest) fun r => S r ∨ S' r := by
  have h := Ends.undoing hp hu hr hd (framed_eq S) fun _ => rfl
  intro t ht
  refine (h t ht).imp fun ret t' ht' => ?_
  cases ret with
  | none => exact ht'.trans (add_add t S S')
  | some e => exact ht'

theorem Releases.andThen (hq : Releases N q S) (hq' : Releases N q' S') (hd : ∀ r, S r → ¬ S' r) :
    Releases N (do q; q') fun r => S r ∨ S' r := by
  intro t ht
  have hS : Free S (t.add S') := Free.add (fun r hr => ht r (.inl hr)) hd
  show Meets N (q >>= fun _ => q') _ _
  rw [meets_bind, ← add_add, add_comm]
  refine (hq _ hS).imp fun _ t' heq => ?_
  rw [heq]
  exact hq' t fun r hr => ht r (.inr hr)

theorem Releases.congr (h : Releases N q S) (hS : ∀ r, S r ↔ S' r) : Releases N q S' := by
  obtain rfl : S = S' := funext fun r => propext (hS r)
  exact h

/-- Rounds that each have resources of their own. -/
structure Rounds (N : Trace.Monitor (Owned α τ) (Event Ans)) (init : Nat → Prog Ans (Option β))
    (fini : Nat → Prog Ans Unit) (own : Nat → α → Prop) : Prop where
  init : ∀ i, Acquires N (init i) (own i)
  fini : ∀ i, Releases N (fini i) (own i)
  apart : ∀ i j r, own i r → own j r → i = j

variable {init : Nat → Prog Ans (Option β)} {fini : Nat → Prog Ans Unit} {own : Nat → α → Prop}

theorem exists_lt_succ (own : Nat → α → Prop) (n : Nat) (r : α) :
    (∃ i < n + 1, own i r) ↔ (∃ i < n, own i r) ∨ own n r := by
  constructor
  · rintro ⟨i, hi, hr⟩
    rcases Nat.lt_succ_iff_lt_or_eq.mp hi with hlt | rfl
    · exact .inl ⟨i, hlt, hr⟩
    · exact .inr hr
  · rintro (⟨i, hi, hr⟩ | hr)
    · exact ⟨i, by omega, hr⟩
    · exact ⟨n, by omega, hr⟩

theorem Rounds.unwind (h : Rounds N init fini own) (n : Nat) :
    Releases N (unwind fini n) fun r => ∃ i < n, own i r := by
  induction n with
  | zero => exact fun t _ => add_none t fun r ⟨i, hi, _⟩ => absurd hi (Nat.not_lt_zero i)
  | succ n ih =>
    refine ((h.fini n).andThen ih ?_).congr fun r => ?_
    · rintro r hr ⟨i, hi, hr'⟩
      have := h.apart i n r hr' hr
      omega
    · rw [exists_lt_succ, or_comm]

theorem Rounds.initFrom (h : Rounds N init fini own) (n i : Nat) (t : Owned α τ)
    (ht : Free (fun r => ∃ j < i + n, own j r) t) :
    Meets N (initFrom init fini i n) (t.add fun r => ∃ j < i, own j r) fun ret t' =>
      t' = if ret.isNone then t.add fun r => ∃ j < i + n, own j r else t := by
  induction n generalizing i with
  | zero => rfl
  | succ n ih =>
    unfold Prog.initFrom
    have hbefore : Free (fun r => ∃ j < i, own j r) t := fun r ⟨j, hj, hr⟩ => ht r ⟨j, by omega, hr⟩
    have hi : Free (own i) (t.add fun r => ∃ j < i, own j r) := by
      refine Free.add (fun r hr => ht r ⟨i, by omega, hr⟩) ?_
      rintro r hr ⟨j, hj, hr'⟩
      have := h.apart i j r hr hr'
      omega
    rw [meets_bind]
    refine (h.init i _ hi).imp fun ret t' ht' => ?_
    cases ret with
    | some e =>
      obtain rfl := ht'
      show Meets N (Prog.unwind fini i >>= fun _ => pure (some e)) _ _
      rw [meets_bind]
      exact (h.unwind i t hbefore).imp fun _ t' heq => heq
    | none =>
      obtain rfl := ht'
      rw [add_add, add_congr t fun r => (exists_lt_succ own i r).symm]
      have hsucc : i + (n + 1) = i + 1 + n := by omega
      rw [hsucc] at ht ⊢
      exact ih (i + 1) ht

theorem Rounds.acquires (h : Rounds N init fini own) (n : Nat) :
    Acquires N (Prog.initFrom init fini 0 n) fun r => ∃ i < n, own i r := by
  intro t ht
  have hrun := h.initFrom n 0 t (by rwa [Nat.zero_add])
  rw [add_none t fun r ⟨j, hj, _⟩ => absurd hj (Nat.not_lt_zero j), Nat.zero_add] at hrun
  refine hrun.imp fun ret t' ht' => ?_
  cases ret with
  | none => exact ht'
  | some e => exact ht'

theorem Rounds.releases (h : Rounds N init fini own) (l : List Nat) (hl : l.Nodup) :
    Releases N (l.forM fini) fun r => ∃ i ∈ l, own i r := by
  induction l with
  | nil => exact fun t _ => add_none t fun r hr => by simp at hr
  | cons i l ih =>
    obtain ⟨hi, hl⟩ := List.nodup_cons.mp hl
    refine ((h.fini i).andThen (ih hl) ?_).congr fun r => by simp
    rintro r hr ⟨j, hj, hr'⟩
    exact hi (h.apart i j r hr hr' ▸ hj)

end

end Prog

end Ipu4
