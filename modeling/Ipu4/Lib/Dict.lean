import Mathlib.Data.List.Induction
import Mathlib.Data.List.Nodup
import Mathlib.Data.List.Sort

/-!
# Dictionaries in insertion order

A dictionary is the list of its entries, oldest key first. `collect` groups
records by a key as a loop with `setdefault` does. What a key has depends on its
records only, and the first record makes the first entry. Sorting such a list by
another key is stable: entries that tie stay in the order they were inserted in.
-/

namespace Ipu4.Dict

variable {κ β ρ : Type*} [DecidableEq κ]

/-- `d.setdefault(k, init)`, and an update of what is there then. -/
def upsert (k : κ) (init : β) (f : β → β) : List (κ × β) → List (κ × β)
  | [] => [(k, f init)]
  | (k', v) :: d => if k' = k then (k', f v) :: d else (k', v) :: upsert k init f d

def get? (d : List (κ × β)) (k : κ) : Option β := (d.find? fun e => e.1 = k).map Prod.snd

/-- One pass over records, each changing the entry of its key. -/
def collect (key : ρ → κ) (init : ρ → β) (step : ρ → β → β) (rs : List ρ) : List (κ × β) :=
  rs.foldl (fun d r => upsert (key r) (init r) (step r) d) []

/-- What the records of one key make of it. -/
def grouped (key : ρ → κ) (init : ρ → β) (step : ρ → β → β) (rs : List ρ) (k : κ) : Option β :=
  match rs.filter fun r => key r = k with
  | [] => none
  | r :: rs => some ((r :: rs).foldl (fun b r => step r b) (init r))

-- ---------------------------------------------------------------------------
-- One update
-- ---------------------------------------------------------------------------

variable {d : List (κ × β)} {k : κ} {init : β} {f : β → β}

theorem keys_upsert : (upsert k init f d).map Prod.fst =
    if k ∈ d.map Prod.fst then d.map Prod.fst else d.map Prod.fst ++ [k] := by
  induction d with
  | nil => rfl
  | cons e d ih =>
    obtain ⟨k', v⟩ := e
    by_cases hk : k' = k
    · simp [upsert, hk]
    · have hk' : k ≠ k' := Ne.symm hk
      simp only [upsert, hk, if_false, List.map_cons, ih, List.mem_cons, hk', false_or]
      split <;> rfl

theorem nodup_upsert (h : (d.map Prod.fst).Nodup) : ((upsert k init f d).map Prod.fst).Nodup := by
  rw [keys_upsert]
  split
  · exact h
  next hk =>
    refine List.nodup_append.mpr ⟨h, List.nodup_singleton k, ?_⟩
    rintro k' hk' k₁ hk₁ rfl
    exact hk (List.mem_singleton.mp hk₁ ▸ hk')

theorem mem_upsert_of_ne (h : k' ≠ k) : (k', v) ∈ upsert k init f d ↔ (k', v) ∈ d := by
  induction d with
  | nil => simp [upsert, h]
  | cons e d ih =>
    obtain ⟨k₁, w⟩ := e
    by_cases hk : k₁ = k
    · subst hk
      simp [upsert, h]
    · simp [upsert, hk, ih]

theorem mem_upsert_of_mem (h : (d.map Prod.fst).Nodup) (hmem : (k, w) ∈ d) :
    (k, v) ∈ upsert k init f d ↔ v = f w := by
  induction d with
  | nil => cases hmem
  | cons e d ih =>
    obtain ⟨k₁, w₁⟩ := e
    obtain ⟨hnew, hd⟩ := List.nodup_cons.mp h
    by_cases hk : k₁ = k
    · subst hk
      have hrest : ∀ v, (k₁, v) ∉ d := fun v hv => hnew (List.mem_map.mpr ⟨(k₁, v), hv, rfl⟩)
      obtain rfl : w = w₁ := by
        rcases List.mem_cons.mp hmem with heq | hin
        · exact (Prod.mk.inj heq).2
        · exact absurd hin (hrest w)
      simp [upsert, hrest]
    · have hne : k ≠ k₁ := Ne.symm hk
      have hin : (k, w) ∈ d := by
        rcases List.mem_cons.mp hmem with heq | hin
        · exact absurd (Prod.mk.inj heq).1 hne
        · exact hin
      simp [upsert, hk, hne, ih hd hin]

theorem mem_upsert_of_not_mem (h : ∀ w, (k, w) ∉ d) :
    (k, v) ∈ upsert k init f d ↔ v = f init := by
  induction d with
  | nil => simp [upsert]
  | cons e d ih =>
    obtain ⟨k₁, w⟩ := e
    have hk : k₁ ≠ k := by
      rintro rfl
      exact h w List.mem_cons_self
    have hrest : ∀ w, (k, w) ∉ d := fun w hw => h w (List.mem_cons_of_mem _ hw)
    simp [upsert, hk, hk.symm, ih hrest]

theorem get?_cons (k' : κ) (v : β) :
    get? ((k', v) :: d) k = if k' = k then some v else get? d k := by
  by_cases hk : k' = k <;> simp [get?, hk]

theorem get?_eq_some (h : (d.map Prod.fst).Nodup) : get? d k = some v ↔ (k, v) ∈ d := by
  induction d with
  | nil => simp [get?]
  | cons e d ih =>
    obtain ⟨k₁, w⟩ := e
    obtain ⟨hnew, hd⟩ := List.nodup_cons.mp h
    by_cases hk : k₁ = k
    · subst hk
      have hrest : (k₁, v) ∉ d := fun hv => hnew (List.mem_map.mpr ⟨(k₁, v), hv, rfl⟩)
      simp [get?_cons, hrest, eq_comm]
    · rw [get?_cons, if_neg hk, ih hd]
      simp [Ne.symm hk]

-- ---------------------------------------------------------------------------
-- A pass over records
-- ---------------------------------------------------------------------------

variable {key : ρ → κ} {init : ρ → β} {step : ρ → β → β} {rs rs' : List ρ}

theorem collect_append_singleton (r : ρ) :
    collect key init step (rs ++ [r]) =
      upsert (key r) (init r) (step r) (collect key init step rs) := by
  simp [collect]

theorem nodup_collect : ((collect key init step rs).map Prod.fst).Nodup := by
  induction rs using List.reverseRecOn with
  | nil => exact List.nodup_nil
  | append_singleton rs r ih =>
    rw [collect_append_singleton]
    exact nodup_upsert ih

theorem grouped_append_of_ne (h : key r ≠ k) :
    grouped key init step (rs ++ [r]) k = grouped key init step rs k := by
  simp [grouped, List.filter_append, h]

theorem grouped_append_none (h : key r = k) (hg : grouped key init step rs k = none) :
    grouped key init step (rs ++ [r]) k = some (step r (init r)) := by
  unfold grouped at hg ⊢
  rw [List.filter_append]
  cases hf : rs.filter fun r => key r = k with
  | nil => simp [h]
  | cons r₁ rs₁ => simp [hf] at hg

theorem grouped_append_some (h : key r = k) (hg : grouped key init step rs k = some v) :
    grouped key init step (rs ++ [r]) k = some (step r v) := by
  unfold grouped at hg ⊢
  rw [List.filter_append]
  cases hf : rs.filter fun r => key r = k with
  | nil => simp [hf] at hg
  | cons r₁ rs₁ =>
    simp only [hf, Option.some.injEq] at hg
    simp [h, ← hg]

theorem mem_collect : (k, v) ∈ collect key init step rs ↔ grouped key init step rs k = some v := by
  induction rs using List.reverseRecOn generalizing v with
  | nil => simp [collect, grouped]
  | append_singleton rs r ih =>
    rw [collect_append_singleton]
    by_cases hk : key r = k
    · subst hk
      cases hg : grouped key init step rs (key r) with
      | none =>
        have hnot : ∀ w, (key r, w) ∉ collect key init step rs := by
          intro w hw
          cases hg.symm.trans (ih.mp hw)
        rw [mem_upsert_of_not_mem hnot, grouped_append_none rfl hg, Option.some.injEq, eq_comm]
      | some w =>
        rw [mem_upsert_of_mem nodup_collect (ih.mpr hg), grouped_append_some rfl hg,
          Option.some.injEq, eq_comm]
    · rw [mem_upsert_of_ne (Ne.symm hk), grouped_append_of_ne hk, ih]

theorem grouped_eq_none : grouped key init step rs k = none ↔ ∀ r ∈ rs, key r ≠ k := by
  unfold grouped
  cases hf : rs.filter fun r => key r = k with
  | nil => simpa using hf
  | cons r rs₁ =>
    have hr : r ∈ rs.filter fun r => key r = k := by simp [hf]
    simp only [List.mem_filter, decide_eq_true_eq] at hr
    simpa using ⟨r, hr.1, hr.2⟩

theorem mem_keys_collect : k ∈ (collect key init step rs).map Prod.fst ↔ ∃ r ∈ rs, key r = k := by
  have hsome : k ∈ (collect key init step rs).map Prod.fst ↔ grouped key init step rs k ≠ none := by
    simp [mem_collect, Option.ne_none_iff_exists']
  rw [hsome, ne_eq, grouped_eq_none]
  simp

theorem head?_keys_collect : ((collect key init step (r :: rs)).map Prod.fst).head? = some (key r) := by
  induction rs using List.reverseRecOn with
  | nil => rfl
  | append_singleton rs r' ih =>
    rw [← List.cons_append, collect_append_singleton, keys_upsert]
    split
    · exact ih
    · rw [List.head?_append, ih]
      rfl

-- ---------------------------------------------------------------------------
-- Stable sorting
-- ---------------------------------------------------------------------------

section
variable {α γ : Type*} {ω : Type*} [LinearOrder ω] {r : α → α → Prop} [DecidableRel r]
  {rank : α → ω} {l l' : List α}

theorem pairwise_insertionSort_rank (hr : ∀ a b, r a b ↔ rank b ≤ rank a) (l : List α) :
    (l.insertionSort r).Pairwise r := by
  have : Std.Total r := ⟨fun a b => by simpa only [hr] using le_total (rank b) (rank a)⟩
  have : IsTrans α r := ⟨fun a b c hab hbc => (hr a c).mpr (((hr b c).mp hbc).trans ((hr a b).mp hab))⟩
  exact List.pairwise_insertionSort r l

theorem map_insertionSort_eq {f : α → γ} (hr : ∀ a b, r a b ↔ rank b ≤ rank a) (h : l.Perm l')
    (hties : ∀ a ∈ l, ∀ b ∈ l, rank a = rank b → f a = f b) :
    (l.insertionSort r).map f = (l'.insertionSort r).map f := by
  have hl := List.perm_insertionSort r l
  have hl' := List.perm_insertionSort r l'
  have hranked : ∀ l : List α, ((l.insertionSort r).map fun a => (rank a, f a)).Pairwise
      fun p q => q.1 ≤ p.1 := by
    intro l
    rw [List.pairwise_map]
    exact (pairwise_insertionSort_rank hr l).imp fun hab => (hr _ _).mp hab
  have heq : (l.insertionSort r).map (fun a => (rank a, f a)) =
      (l'.insertionSort r).map fun a => (rank a, f a) := by
    refine List.Perm.eq_of_pairwise ?_ (hranked l) (hranked l') ((hl.trans (h.trans hl'.symm)).map _)
    intro p q hp hq hpq hqp
    obtain ⟨a, ha, rfl⟩ := List.mem_map.mp hp
    obtain ⟨b, hb, rfl⟩ := List.mem_map.mp hq
    have hrank : rank a = rank b := le_antisymm hqp hpq
    have ha := hl.mem_iff.mp ha
    have hb := h.mem_iff.mpr (hl'.mem_iff.mp hb)
    rw [hrank, hties a ha b hb hrank]
  have hsnd := congrArg (List.map Prod.snd) heq
  simpa [Function.comp_def] using hsnd

theorem filter_insertionSort [DecidableEq ω] (hr : ∀ a b, r a b ↔ rank b ≤ rank a) (l : List α) (x : ω) :
    (l.insertionSort r).filter (fun a => rank a = x) = l.filter fun a => rank a = x := by
  have hties : (l.filter fun a => rank a = x).Pairwise r := by
    refine List.Pairwise.imp_of_mem ?_ (List.pairwise_of_forall fun _ _ => trivial)
    intro a b ha hb _
    simp only [List.mem_filter, decide_eq_true_eq] at ha hb
    exact (hr a b).mpr (hb.2.trans ha.2.symm).le
  have hsub := (List.sublist_insertionSort hties List.filter_sublist).filter fun a => rank a = x
  have hlen := ((List.perm_insertionSort r l).filter fun a => rank a = x).length_eq
  rw [List.filter_filter] at hsub
  simp only [Bool.and_self] at hsub
  exact (hsub.eq_of_length hlen.symm).symm

end

end Ipu4.Dict
