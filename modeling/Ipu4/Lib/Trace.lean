import Mathlib.Data.List.Basic

/-!
# Monitors over traces

A monitor watches the events of a trace one by one. Its state says what has
happened so far, and `allows` which events may come next. A trace is clean if
every event was allowed where it came. A trace of a whole run is the traces of
its steps one after the other, so cleanness is shown step by step.
-/

namespace Ipu4.Trace

structure Monitor (σ ε : Type) where
  next : σ → ε → σ
  allows : σ → ε → Prop

variable {σ ε : Type} (M : Monitor σ ε)

/-- The state of the monitor after a trace. -/
def after (s : σ) (es : List ε) : σ := es.foldl M.next s

def Clean : σ → List ε → Prop
  | _, [] => True
  | s, e :: es => M.allows s e ∧ Clean (M.next s e) es

instance Clean.decidable [∀ s e, Decidable (M.allows s e)] : ∀ s es, Decidable (Clean M s es)
  | _, [] => instDecidableTrue
  | s, e :: es => @instDecidableAnd _ _ _ (Clean.decidable (M.next s e) es)

variable {M}

@[simp]
theorem after_nil (s : σ) : after M s [] = s := rfl

@[simp]
theorem after_cons (s : σ) (e : ε) (es : List ε) : after M s (e :: es) = after M (M.next s e) es := rfl

theorem after_append (s : σ) (es es' : List ε) :
    after M s (es ++ es') = after M (after M s es) es' :=
  List.foldl_append

@[simp]
theorem clean_nil (s : σ) : Clean M s [] := trivial

@[simp]
theorem clean_cons (s : σ) (e : ε) (es : List ε) :
    Clean M s (e :: es) ↔ M.allows s e ∧ Clean M (M.next s e) es :=
  Iff.rfl

theorem clean_append (s : σ) (es es' : List ε) :
    Clean M s (es ++ es') ↔ Clean M s es ∧ Clean M (after M s es) es' := by
  induction es generalizing s with
  | nil => simp
  | cons e es ih => rw [List.cons_append, clean_cons, clean_cons, ih, after_cons, and_assoc]

theorem Clean.of_prefix (h : Clean M s es) (hp : es' <+: es) : Clean M s es' := by
  obtain ⟨rest, rfl⟩ := hp
  exact ((clean_append s es' rest).mp h).1

theorem Clean.invariant {I : σ → Prop} (h : Clean M s es) (hs : I s)
    (hstep : ∀ s e, I s → M.allows s e → I (M.next s e)) : I (after M s es) := by
  induction es generalizing s with
  | nil => exact hs
  | cons e es ih => exact ih h.2 (hstep s e hs h.1)

/-- A trace ends well from a state: it is clean, and leaves a state in `Q`. -/
def EndsIn (M : Monitor σ ε) (s : σ) (es : List ε) (Q : σ → Prop) : Prop :=
  Clean M s es ∧ Q (after M s es)

theorem EndsIn.nil {Q : σ → Prop} (h : Q s) : EndsIn M s [] Q := ⟨clean_nil s, h⟩

theorem EndsIn.cons {Q : σ → Prop} (he : M.allows s e) (h : EndsIn M (M.next s e) es Q) :
    EndsIn M s (e :: es) Q :=
  ⟨⟨he, h.1⟩, h.2⟩

theorem EndsIn.append {P Q : σ → Prop} (h : EndsIn M s es P)
    (h' : ∀ s', P s' → EndsIn M s' es' Q) : EndsIn M s (es ++ es') Q := by
  obtain ⟨hc, hq⟩ := h' _ h.2
  refine ⟨(clean_append s es es').mpr ⟨h.1, hc⟩, ?_⟩
  rw [after_append]
  exact hq

theorem EndsIn.imp {P Q : σ → Prop} (h : EndsIn M s es P) (hpq : ∀ s', P s' → Q s') :
    EndsIn M s es Q :=
  ⟨h.1, hpq _ h.2⟩

theorem EndsIn.of_invariant {I : σ → Prop} (hs : I s)
    (hstep : ∀ s e, I s → e ∈ es → M.allows s e ∧ I (M.next s e)) : EndsIn M s es I := by
  induction es generalizing s with
  | nil => exact .nil hs
  | cons e es ih =>
    obtain ⟨hallow, hnext⟩ := hstep s e hs List.mem_cons_self
    exact .cons hallow (ih hnext fun s' e' hi he => hstep s' e' hi (List.mem_cons_of_mem _ he))

end Ipu4.Trace
