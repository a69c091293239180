import Mathlib.Data.List.Basic

/-!
# Runs of a labelled transition system

A system is a predicate on initial states and a labelled step relation. A
property of every run is a property of every reachable state: `invariant`
reduces it to the initial states and one step. For a step function, a run is
the list of states it visits, and a condition on its steps is a condition on
that list.
-/

namespace Ipu4.Runs

/-- States some finite run ends in. -/
inductive Reachable (init : σ → Prop) (step : σ → ℓ → σ → Prop) : σ → Prop
  | init : init s → Reachable init step s
  | step : Reachable init step s → step s l s' → Reachable init step s'

variable {init : σ → Prop} {step : σ → ℓ → σ → Prop}

theorem Reachable.invariant {I : σ → Prop} (h : Reachable init step s)
    (hinit : ∀ s, init s → I s) (hstep : ∀ s l s', I s → step s l s' → I s') : I s := by
  induction h with
  | init hi => exact hinit _ hi
  | step _ hs ih => exact hstep _ _ _ ih hs

theorem Reachable.mono {step' : σ → ℓ → σ → Prop} (h : Reachable init step s)
    (hsub : ∀ s l s', step s l s' → step' s l s') : Reachable init step' s := by
  induction h with
  | init hi => exact .init hi
  | step _ hs ih => exact .step ih (hsub _ _ _ hs)

/-- A guarded step function as a relation: the event is enabled and leads
to the state. -/
def Enabled (f : σ → ℓ → Option σ) (s : σ) (l : ℓ) (s' : σ) : Prop := f s l = some s'

/-- Replaying a list of events stays among the reachable states, so a
concrete trace is found by evaluation. -/
theorem reachable_of_replay {f : σ → ℓ → Option σ} (hs : Reachable init (Enabled f) s)
    (evs : List ℓ) (h : evs.foldlM f s = some s') : Reachable init (Enabled f) s' := by
  induction evs generalizing s with
  | nil =>
    obtain rfl := Option.some.inj h
    exact hs
  | cons e evs ih =>
    rw [List.foldlM_cons] at h
    obtain ⟨s₁, he, h⟩ := Option.bind_eq_some_iff.mp h
    exact ih (.step hs he) h

/-- The states a run of a step function passes through, each with the event
taken there. -/
def visited (f : σ → ℓ → σ) : σ → List ℓ → List (σ × ℓ)
  | _, [] => []
  | s, l :: ls => (s, l) :: visited f (f s l) ls

/-- If a condition on the steps keeps an invariant, a run whose steps all meet
it keeps the invariant. -/
theorem forall_visited_of {f : σ → ℓ → σ} {I : σ → Prop} {C : σ → ℓ → Prop} (hs : I s)
    (hstep : ∀ s l, I s → C s l → I (f s l)) (hC : ∀ x ∈ visited f s ls, C x.1 x.2) :
    ∀ x ∈ visited f s ls, I (f x.1 x.2) := by
  induction ls generalizing s with
  | nil => simp [visited]
  | cons l ls ih =>
    simp only [visited, List.forall_mem_cons] at hC ⊢
    have hnext := hstep s l hs hC.1
    exact ⟨hnext, ih hnext hC.2⟩

/-- If a condition on the steps keeps an invariant, and under the invariant
it is exact for one step, then it is exact for whole runs. -/
theorem forall_visited_iff {f : σ → ℓ → σ} {I : σ → Prop} {P C : σ → ℓ → Prop} (hs : I s)
    (hiff : ∀ s l, I s → (P s l ↔ C s l)) (hstep : ∀ s l, I s → C s l → I (f s l)) :
    (∀ x ∈ visited f s ls, P x.1 x.2) ↔ ∀ x ∈ visited f s ls, C x.1 x.2 := by
  induction ls generalizing s with
  | nil => simp [visited]
  | cons l ls ih =>
    simp only [visited, List.forall_mem_cons]
    constructor
    · rintro ⟨hl, hls⟩
      have hc := (hiff s l hs).mp hl
      exact ⟨hc, (ih (hstep s l hs hc)).mp hls⟩
    · rintro ⟨hc, hls⟩
      exact ⟨(hiff s l hs).mpr hc, (ih (hstep s l hs hc)).mpr hls⟩

end Ipu4.Runs
