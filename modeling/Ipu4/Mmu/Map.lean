import Ipu4.Mmu.Walk

/-!
# What mapping and unmapping do to the translation

One specification for each loop of `l2_unmap` and `l2_map`, in page numbers:
unmapping `s` pages from page `a` on sends them to the dummy page
(`l2Unmap_spec`); mapping sends page `a + k` to frame `f + k`, or fails and
leaves every translation as it was (`l2Map_spec`). Mapping succeeds exactly if
every L1 entry on the way has a table or can get one.
-/

namespace Ipu4.Mmu

open Overlay

variable {m : MmuInfo}

-- ---------------------------------------------------------------------------
-- Unmapping
-- ---------------------------------------------------------------------------

theorem l2UnmapEntries_spec (a s : Nat) (hj : j + n = 1024) (htab : (m.l2Pts i).isSome) :
    ∃ m', l2UnmapEntries i n j m (4096 * a) (4096 * s) =
        (m', 4096 * (a + min s n), 4096 * (s - min s n)) ∧
      translate m' = overlay (translate m) (1024 * i + j) (min s n) (fun _ => m.dummyPagePteval) ∧
      Kept m m' := by
  induction n generalizing j m a s with
  | zero => exact ⟨m, by simp [l2UnmapEntries], by simp, .refl m⟩
  | succ n ih =>
    cases s with
    | zero => exact ⟨m, by simp [l2UnmapEntries], by simp, .refl m⟩
    | succ s =>
      have hkept := kept_setPte m i j m.dummyPagePteval
      obtain ⟨m', hrun, htr, hk⟩ := ih (j := j + 1) (m := m.setPte i j m.dummyPagePteval)
        (a + 1) s (by omega) (by rw [hkept.isSome]; exact htab)
      refine ⟨m', ?_, ?_, hkept.trans hk⟩
      · have hiova : 4096 * a + ispPageSize = 4096 * (a + 1) := by simp only [ispPageSize]; omega
        have hsize : 4096 * (s + 1) - ispPageSize = 4096 * s := by simp only [ispPageSize]; omega
        have hend : a + 1 + min s n = a + min (s + 1) (n + 1) := by omega
        have hleft : s - min s n = s + 1 - min (s + 1) (n + 1) := by omega
        rw [l2UnmapEntries, if_pos (by omega), hiova, hsize, hrun, hend, hleft]
      · rw [htr, hkept.dummyPage, translate_setPte htab (by omega)]
        have hmin : min (s + 1) (n + 1) = min s n + 1 := by omega
        rw [hmin]
        exact overlay_succ (v := fun _ => m.dummyPagePteval)

theorem l2UnmapTables_spec (hi : Inv m) (hn : i + n = 1024) (hidx : s = 0 ∨ a / 1024 = i)
    (hs : a + s ≤ 2 ^ 20) (htab : ∀ k < s, (m.l2Pts ((a + k) / 1024)).isSome) :
    translate (l2UnmapTables n i m (4096 * a) (4096 * s)) =
        overlay (translate m) a s (fun _ => m.dummyPagePteval) ∧
      Kept m (l2UnmapTables n i m (4096 * a) (4096 * s)) := by
  induction n generalizing i m a s with
  | zero =>
    obtain rfl : s = 0 := by omega
    exact ⟨by simp [l2UnmapTables], .refl m⟩
  | succ n ih =>
    cases s with
    | zero => exact ⟨by simp [l2UnmapTables], .refl m⟩
    | succ s =>
      obtain rfl : a / 1024 = i := by omega
      have htab₀ : (m.l2Pts (a / 1024)).isSome := by simpa using htab 0 (by omega)
      have hl1 : m.l1Pt (a / 1024) ≠ m.dummyL2Pteval := by
        intro heq
        simp [(hi.l1Pt_eq_dummy_iff _).mp heq] at htab₀
      obtain ⟨m', hrun, htr, hk⟩ := l2UnmapEntries_spec a (s + 1)
        (show a % 1024 + (1024 - a % 1024) = 1024 by omega) htab₀
      rw [show 1024 * (a / 1024) + a % 1024 = a by omega] at htr
      -- the entries of this table, then the tables after it
      have hstep : l2UnmapTables (n + 1) (a / 1024) m (4096 * a) (4096 * (s + 1)) =
          l2UnmapTables n (a / 1024 + 1) m' (4096 * (a + min (s + 1) (1024 - a % 1024)))
            (4096 * (s + 1 - min (s + 1) (1024 - a % 1024))) := by
        rw [l2UnmapTables, if_pos (by omega), if_neg hl1, l2Index_page (by omega), l2ptPtes, hrun]
      obtain ⟨htr', hk'⟩ := ih (i := a / 1024 + 1) (m := m')
        (a := a + min (s + 1) (1024 - a % 1024)) (s := s + 1 - min (s + 1) (1024 - a % 1024))
        (hk.inv hi) (by omega) (by omega) (by omega) (by
          intro k hk₂
          rw [hk.isSome, Nat.add_assoc]
          exact htab _ (by omega))
      rw [hstep]
      refine ⟨?_, hk.trans hk'⟩
      have happ := overlay_append (g := translate m) (b := a) (n := min (s + 1) (1024 - a % 1024))
        (m := s + 1 - min (s + 1) (1024 - a % 1024)) (v := fun _ => m.dummyPagePteval)
      rw [htr', htr, hk.dummyPage, happ]
      congr 1
      omega

/-- The first `t` of the pages have a table each: they go to the dummy page,
and any other page that changes does too. -/
theorem l2UnmapTables_prefix (hi : Inv m) (hn : i + n = 1024) (hidx : t = 0 ∨ a / 1024 = i)
    (hs : a + s ≤ 2 ^ 20) (hts : t ≤ s) (htab : ∀ k < t, (m.l2Pts ((a + k) / 1024)).isSome) :
    (∀ k < t, translate (l2UnmapTables n i m (4096 * a) (4096 * s)) (a + k) = m.dummyPagePteval) ∧
      (∀ p, translate (l2UnmapTables n i m (4096 * a) (4096 * s)) p = translate m p ∨
        translate (l2UnmapTables n i m (4096 * a) (4096 * s)) p = m.dummyPagePteval) ∧
      Kept m (l2UnmapTables n i m (4096 * a) (4096 * s)) := by
  induction n generalizing i m a s t with
  | zero =>
    obtain rfl : t = 0 := by omega
    exact ⟨by simp, fun p => .inl rfl, .refl m⟩
  | succ n ih =>
    cases s with
    | zero =>
      obtain rfl : t = 0 := by omega
      rw [l2UnmapTables, if_neg (by omega)]
      exact ⟨by simp, fun p => .inl rfl, .refl m⟩
    | succ s =>
      rw [l2UnmapTables, if_pos (by omega)]
      by_cases hl1 : m.l1Pt i = m.dummyL2Pteval
      · -- a missing table: none of the `t` pages is left, and what follows may hit others
        obtain rfl : t = 0 := by
          by_contra ht
          have h0 := htab 0 (by omega)
          rw [Nat.add_zero, hidx.resolve_left ht, (hi.l1Pt_eq_dummy_iff i).mp hl1] at h0
          cases h0
        rw [if_pos hl1]
        exact ih hi (by omega) (.inl rfl) hs (by omega) (by simp)
      · have hsome : (m.l2Pts i).isSome := by
          rw [Option.isSome_iff_ne_none]
          exact fun hnone => hl1 (hi.empty i hnone)
        obtain ⟨m', hrun, htr, hk⟩ := l2UnmapEntries_spec a (s + 1)
          (show a % 1024 + (1024 - a % 1024) = 1024 by omega) hsome
        rw [if_neg hl1, l2Index_page (by omega), l2ptPtes, hrun]
        generalize hc : min (s + 1) (1024 - a % 1024) = c at htr
        obtain ⟨hdone, hor, hk'⟩ := ih (i := i + 1) (m := m') (a := a + c) (s := s + 1 - c)
          (t := t - c) (hk.inv hi) (by omega) (by omega) (by omega) (by omega) (by
            intro k hkt
            rw [hk.isSome, Nat.add_assoc]
            exact htab _ (by omega))
        rw [hk.dummyPage] at hdone hor
        refine ⟨fun k hkt => ?_, fun p => ?_, hk.trans hk'⟩
        · by_cases hkc : k < c
          · rcases hor (a + k) with h | h
            · have hpage : a + k = 1024 * i + a % 1024 + k := by omega
              rw [h, htr, hpage, overlay_apply hkc]
            · exact h
          · rw [show a + k = a + c + (k - c) by omega]
            exact hdone _ (by omega)
        · rcases hor p with h | h
          · by_cases hin : 1024 * i + a % 1024 ≤ p ∧ p < 1024 * i + a % 1024 + c
            · rw [h, htr, overlay_of_mem hin.1 hin.2]
              exact .inr rfl
            · rw [h, htr, overlay_of_not_mem hin]
              exact .inl rfl
          · exact .inr h

theorem l2Unmap_spec (hi : Inv m) (hs : a + s ≤ 2 ^ 20)
    (htab : ∀ k < s, (m.l2Pts ((a + k) / 1024)).isSome) :
    translate (l2Unmap m (4096 * a) (4096 * s)) =
        overlay (translate m) a s (fun _ => m.dummyPagePteval) ∧
      Kept m (l2Unmap m (4096 * a) (4096 * s)) := by
  unfold l2Unmap
  rw [l1Index_page (by omega)]
  exact l2UnmapTables_spec hi (by simp only [l1ptPtes]; omega) (.inr rfl) hs htab

theorem mmuUnmap_spec (hi : Inv m) (hs : a + s ≤ 2 ^ 20)
    (htab : ∀ k < s, (m.l2Pts ((a + k) / 1024)).isSome) :
    translate (ipu6MmuUnmap m (4096 * a) (4096 * s)) =
        overlay (translate m) a s (fun _ => m.dummyPagePteval) ∧
      Kept m (ipu6MmuUnmap m (4096 * a) (4096 * s)) := by
  have hal : isAligned (4096 * a ||| 4096 * s) 4096 = true := by
    simp [isAligned_page, or_mod_page]
  unfold ipu6MmuUnmap
  rw [minPagesz_eq hi, hal]
  exact l2Unmap_spec hi hs htab

theorem mmuUnmap_prefix (hi : Inv m) (hs : a + s ≤ 2 ^ 20) (hts : t ≤ s)
    (htab : ∀ k < t, (m.l2Pts ((a + k) / 1024)).isSome) :
    (∀ k < t, translate (ipu6MmuUnmap m (4096 * a) (4096 * s)) (a + k) = m.dummyPagePteval) ∧
      (∀ p, translate (ipu6MmuUnmap m (4096 * a) (4096 * s)) p = translate m p ∨
        translate (ipu6MmuUnmap m (4096 * a) (4096 * s)) p = m.dummyPagePteval) ∧
      Kept m (ipu6MmuUnmap m (4096 * a) (4096 * s)) := by
  have hal : isAligned (4096 * a ||| 4096 * s) 4096 = true := by
    simp [isAligned_page, or_mod_page]
  unfold ipu6MmuUnmap
  rw [minPagesz_eq hi, hal]
  show _ ∧ _ ∧ Kept m (l2Unmap m (4096 * a) (4096 * s))
  unfold l2Unmap
  rw [l1Index_page (by omega)]
  exact l2UnmapTables_prefix hi (by simp only [l1ptPtes]; omega) (.inr rfl) hs hts htab

/-- `m'` is `m` after some writes of table entries. -/
inductive Written (m : MmuInfo) : MmuInfo → Prop
  | refl : Written m m
  | setPte (i j v : Nat) : Written m m' → Written m (m'.setPte i j v)

theorem Written.trans (h₁ : Written m m₁) (h₂ : Written m₁ m₂) : Written m m₂ := by
  induction h₂ with
  | refl => exact h₁
  | setPte i j v _ ih => exact .setPte i j v ih

theorem Written.kept (h : Written m m') : Kept m m' := by
  induction h with
  | refl => exact .refl m
  | setPte i j v _ ih => exact ih.trans (kept_setPte _ i j v)

theorem Written.page (h : Written m m') (i : Nat) :
    (m'.l2Pts i).map L2Pt.page = (m.l2Pts i).map L2Pt.page := by
  induction h with
  | refl => rfl
  | setPte k j v _ ih =>
    rw [← ih]
    simp only [MmuInfo.setPte]
    by_cases hk : i = k
    · subst hk
      simp only [Function.update_self, Option.map_map]
      rfl
    · rw [Function.update_of_ne hk]

theorem written_l2UnmapEntries (i n j : Nat) (m : MmuInfo) (a s : Nat) :
    Written m (l2UnmapEntries i n j m a s).1 := by
  induction n generalizing j m a s with
  | zero => exact .refl
  | succ n ih =>
    simp only [l2UnmapEntries]
    split
    · exact (Written.setPte i j _ .refl).trans (ih ..)
    · exact .refl

theorem written_l2UnmapTables (n i : Nat) (m : MmuInfo) (a s : Nat) :
    Written m (l2UnmapTables n i m a s) := by
  induction n generalizing i m a s with
  | zero => exact .refl
  | succ n ih =>
    simp only [l2UnmapTables]
    split
    · split
      · exact ih ..
      · exact (written_l2UnmapEntries ..).trans (ih ..)
    · exact .refl

theorem written_mmuUnmap (m : MmuInfo) (iova size : Nat) : Written m (ipu6MmuUnmap m iova size) := by
  unfold ipu6MmuUnmap
  split
  · exact .refl
  · exact written_l2UnmapTables ..

-- ---------------------------------------------------------------------------
-- Giving an L1 entry its table
-- ---------------------------------------------------------------------------

/-- The addresses `dma_map_single` may hand out for missing tables: of whole
pages, not live yet, no two alike. -/
def Fresh (m : MmuInfo) (env : Nat → PageEnv) : Prop :=
  ∀ i a, m.l2Pts i = none → (env i).dmaMapSingle = some a →
    DmaAddr a ∧ a ∉ m.maps ∧ ∀ j, m.l2Pts j = none → (env j).dmaMapSingle = some a → j = i

/-- Slot `i` has a table, or page and mapping can be had for one. -/
def CanTable (m : MmuInfo) (env : Nat → PageEnv) (i : Nat) : Prop :=
  (m.l2Pts i).isSome ∨
    ((env i).getZeroedPage.isSome ∧ mapSingle (env i).dmaMapSingle ≠ 0)

/-- What every part of `l2_map` keeps: tables are only added. -/
structure Extends (env : Nat → PageEnv) (m m' : MmuInfo) : Prop where
  inv : Inv m'
  fresh : Fresh m' env
  dummyPage : m'.dummyPagePteval = m.dummyPagePteval
  aperture : m'.apertureEnd = m.apertureEnd
  tables : ∀ i, (m.l2Pts i).isSome → (m'.l2Pts i).isSome
  can : ∀ i, CanTable m' env i ↔ CanTable m env i

theorem Extends.trans (h₁ : Extends env m m₁) (h₂ : Extends env m₁ m₂) : Extends env m m₂ where
  inv := h₂.inv
  fresh := h₂.fresh
  dummyPage := h₂.dummyPage.trans h₁.dummyPage
  aperture := h₂.aperture.trans h₁.aperture
  tables := fun i hs => h₂.tables i (h₁.tables i hs)
  can := fun i => (h₂.can i).trans (h₁.can i)

theorem Kept.fresh (h : Kept m m') (hf : Fresh m env) : Fresh m' env := by
  intro i a hn ha
  obtain ⟨haddr, hlive, hinj⟩ := hf i a ((h.none_iff i).mp hn) ha
  refine ⟨haddr, by rw [h.maps]; exact hlive, fun j hj => hinj j ((h.none_iff j).mp hj)⟩

theorem Kept.extends (h : Kept m m') (hi : Inv m) (hf : Fresh m env) : Extends env m m' where
  inv := h.inv hi
  fresh := h.fresh hf
  dummyPage := h.dummyPage
  aperture := h.aperture
  tables := fun i hs => by rw [h.isSome]; exact hs
  can := fun i => by simp only [CanTable, h.isSome]

theorem Extends.refl (hi : Inv m) (hf : Fresh m env) : Extends env m m := (Kept.refl m).extends hi hf

/-- Slot `i` with a table of dummy entries in `page`, mapped at `dma`. -/
def MmuInfo.addTable (m : MmuInfo) (i page dma : Nat) : MmuInfo :=
  { m with
    l1Pt := Function.update m.l1Pt i (dma / 4096 % 2 ^ 32)
    l2Pts := Function.update m.l2Pts i (some ⟨page, dma, fun _ => m.dummyPagePteval⟩)
    pages := page :: m.pages
    maps := dma :: m.maps }

theorem l2Pts_addTable (m : MmuInfo) (i page dma : Nat) :
    (m.addTable i page dma).l2Pts i = some ⟨page, dma, fun _ => m.dummyPagePteval⟩ :=
  Function.update_self ..

theorem l2Pts_addTable_of_ne (h : j ≠ i) : (m.addTable i page dma).l2Pts j = m.l2Pts j :=
  Function.update_of_ne h ..

theorem ne_of_addTable_none (h : (m.addTable i page dma).l2Pts j = none) : j ≠ i := by
  rintro rfl
  rw [l2Pts_addTable] at h
  cases h

theorem translate_addTable (hn : m.l2Pts i = none) :
    translate (m.addTable i page dma) = translate m := by
  funext p
  unfold translate
  by_cases hp : p / 1024 = i
  · simp only [hp, l2Pts_addTable, hn]
  · rw [l2Pts_addTable_of_ne hp]
    rfl

theorem addTable_cases (h : (m.addTable i page dma).l2Pts j = some pt) :
    (j = i ∧ pt.dma = dma) ∨ (j ≠ i ∧ m.l2Pts j = some pt) := by
  by_cases hj : j = i
  · subst hj
    rw [l2Pts_addTable] at h
    obtain rfl := Option.some.inj h
    exact .inl ⟨rfl, rfl⟩
  · exact .inr ⟨hj, l2Pts_addTable_of_ne hj ▸ h⟩

theorem inv_addTable (hi : Inv m) (haddr : DmaAddr a) (hlive : a ∉ m.maps) :
    Inv (m.addTable i page a) where
  pgsize := hi.pgsize
  dummyTable := hi.dummyTable
  dummyMapped := List.mem_cons_of_mem _ hi.dummyMapped
  empty := fun j hj => by
    have hji := ne_of_addTable_none hj
    rw [l2Pts_addTable_of_ne hji] at hj
    exact (Function.update_of_ne hji ..).trans (hi.empty j hj)
  entry := fun j pt hpt => by
    rcases addTable_cases hpt with ⟨rfl, hdma⟩ | ⟨hji, hpt⟩
    · have hframe : a / 4096 % 2 ^ 32 = a / 4096 := by
        have := haddr.bound
        omega
      rw [hdma, ← hframe]
      exact Function.update_self ..
    · exact (Function.update_of_ne hji ..).trans (hi.entry j pt hpt)
  addr := fun j pt hpt => by
    rcases addTable_cases hpt with ⟨rfl, hdma⟩ | ⟨hji, hpt⟩
    · rw [hdma]
      refine ⟨haddr, List.mem_cons_self, fun heq => hlive ?_⟩
      rw [heq]
      exact hi.dummyMapped
    · obtain ⟨h₁, h₂, h₃⟩ := hi.addr j pt hpt
      exact ⟨h₁, List.mem_cons_of_mem _ h₂, h₃⟩
  distinct := fun j k pt pt' hpt hpt' heq => by
    rcases addTable_cases hpt with ⟨hj, hdma⟩ | ⟨hji, hold⟩ <;>
      rcases addTable_cases hpt' with ⟨hk, hdma'⟩ | ⟨hki, hold'⟩
    · rw [hj, hk]
    · exact absurd (hi.addr k pt' hold').2.1 (by rw [← heq, hdma]; exact hlive)
    · exact absurd (hi.addr j pt hold).2.1 (by rw [heq, hdma']; exact hlive)
    · exact hi.distinct j k pt pt' hold hold' heq

theorem fresh_addTable (hf : Fresh m env) (hn : m.l2Pts i = none)
    (ha : (env i).dmaMapSingle = some a) : Fresh (m.addTable i page a) env := by
  intro j b hj hb
  have hji := ne_of_addTable_none hj
  rw [l2Pts_addTable_of_ne hji] at hj
  obtain ⟨haddr, hlive, hinj⟩ := hf j b hj hb
  refine ⟨haddr, ?_, fun k hk hkb => ?_⟩
  · intro hmem
    rcases List.mem_cons.mp hmem with rfl | hmem
    · exact hji ((hf i b hn ha).2.2 j hj hb)
    · exact hlive hmem
  · have hki := ne_of_addTable_none hk
    exact hinj k (l2Pts_addTable_of_ne hki ▸ hk) hkb

theorem extends_addTable (hi : Inv m) (hf : Fresh m env) (hn : m.l2Pts i = none)
    (hcan : CanTable m env i) (ha : (env i).dmaMapSingle = some a) :
    Extends env m (m.addTable i page a) where
  inv := inv_addTable hi (hf i a hn ha).1 (hf i a hn ha).2.1
  fresh := fresh_addTable hf hn ha
  dummyPage := rfl
  aperture := rfl
  tables := fun j hj => by
    by_cases hji : j = i
    · rw [hji, l2Pts_addTable]
      rfl
    · rw [l2Pts_addTable_of_ne hji]
      exact hj
  can := fun j => by
    by_cases hji : j = i
    · subst hji
      exact ⟨fun _ => hcan, fun _ => .inl (by rw [l2Pts_addTable]; rfl)⟩
    · simp only [CanTable, l2Pts_addTable_of_ne hji]

/-- What `l2_map` does for an L1 entry: it has a table; or there is no page, or
no mapping for the page, and nothing has changed; or a table is added. -/
inductive TableCase (m : MmuInfo) (env : Nat → PageEnv) (i : Nat) : MmuInfo → Option Errno → Prop
  | found : (m.l2Pts i).isSome → TableCase m env i m none
  | noPage : m.l2Pts i = none → (env i).getZeroedPage = none → TableCase m env i m (some .ENOMEM)
  | noMapping (page : Nat) : m.l2Pts i = none → (env i).getZeroedPage = some page →
      mapSingle (env i).dmaMapSingle = 0 → TableCase m env i m (some .EINVAL)
  | added (page a : Nat) : m.l2Pts i = none → (env i).getZeroedPage = some page →
      (env i).dmaMapSingle = some a → a ≠ 0 → TableCase m env i (m.addTable i page a) none

theorem l2MapTable_cases (hi : Inv m) (env : Nat → PageEnv) (i : Nat) :
    TableCase m env i (l2MapTable m env i).1 (l2MapTable m env i).2 := by
  unfold l2MapTable
  by_cases hl1 : m.l1Pt i = m.dummyL2Pteval
  · have hn := (hi.l1Pt_eq_dummy_iff i).mp hl1
    rw [if_pos hl1]
    simp only [l2Virt, hn]
    cases hpage : (env i).getZeroedPage with
    | none => exact .noPage hn hpage
    | some page =>
      simp only
      by_cases hdma : mapSingle (env i).dmaMapSingle = 0
      · rw [if_pos hdma, List.erase_cons_head]
        exact .noMapping page hn hpage hdma
      · rw [if_neg hdma]
        obtain ⟨a, ha⟩ : ∃ a, (env i).dmaMapSingle = some a := by
          cases h : (env i).dmaMapSingle with
          | none => simp [mapSingle, h] at hdma
          | some a => exact ⟨a, rfl⟩
        have hval : mapSingle (env i).dmaMapSingle = a := by simp [mapSingle, ha]
        rw [hval] at hdma ⊢
        exact .added page a hn hpage ha hdma
  · rw [if_neg hl1]
    refine .found ?_
    rw [Option.isSome_iff_ne_none]
    exact fun hn => hl1 (hi.empty i hn)

theorem l2MapTable_spec (hi : Inv m) (hf : Fresh m env) (i : Nat) :
    ∃ m' e, l2MapTable m env i = (m', e) ∧ Extends env m m' ∧ translate m' = translate m ∧
      (e = none → (m'.l2Pts i).isSome) ∧ (e = none ↔ CanTable m env i) := by
  have hcase := l2MapTable_cases hi env i
  generalize l2MapTable m env i = r at hcase
  obtain ⟨m', e⟩ := r
  simp only at hcase
  refine ⟨m', e, rfl, ?_⟩
  cases hcase with
  | found hsome => exact ⟨.refl hi hf, rfl, fun _ => hsome, by simp [CanTable, hsome]⟩
  | noPage hn hpage => exact ⟨.refl hi hf, rfl, by simp, by simp [CanTable, hn, hpage]⟩
  | noMapping page hn hpage hdma => exact ⟨.refl hi hf, rfl, by simp, by simp [CanTable, hn, hdma]⟩
  | added page a hn hpage ha hne =>
    have hcan : CanTable m env i := .inr ⟨by simp [hpage], by simpa [mapSingle, ha] using hne⟩
    refine ⟨extends_addTable hi hf hn hcan ha, translate_addTable hn, fun _ => ?_, by simpa using hcan⟩
    show ((m.addTable i page a).l2Pts i).isSome
    rw [l2Pts_addTable]
    rfl

-- ---------------------------------------------------------------------------
-- Mapping
-- ---------------------------------------------------------------------------

/-- The running variables at page `a` and frame `f`, with `g` pages mapped and
`s` to go. -/
def pageCursor (a f g s : Nat) : Cursor := ⟨4096 * a, 4096 * f, 4096 * g, 4096 * s⟩

theorem pageCursor_start (a f s : Nat) :
    (⟨4096 * a, pageAlign (4096 * f), 0, 4096 * s⟩ : Cursor) = pageCursor a f 0 s := by
  simp only [pageAlign, pageCursor, Cursor.mk.injEq, true_and, and_true]
  omega

theorem pageCursor_next (a f g s : Nat) :
    (pageCursor a f g (s + 1)).next = pageCursor (a + 1) (f + 1) (g + 1) s := by
  simp only [pageCursor, Cursor.next, ispPageSize, Cursor.mk.injEq]
  omega

theorem l2MapEntries_spec (hj : j + n = 1024) (htab : (m.l2Pts i).isSome)
    (ha : a = 1024 * i + j) (hf : f + s ≤ 2 ^ 32) :
    ∃ m', l2MapEntries i n j m (pageCursor a f g s) =
        (m', pageCursor (a + min s n) (f + min s n) (g + min s n) (s - min s n)) ∧
      translate m' = overlay (translate m) a (min s n) (f + ·) ∧ Kept m m' := by
  induction n generalizing j m a f g s with
  | zero => exact ⟨m, by simp [l2MapEntries], by simp, .refl m⟩
  | succ n ih =>
    cases s with
    | zero => exact ⟨m, by simp [l2MapEntries, pageCursor], by simp, .refl m⟩
    | succ s =>
      have hkept := kept_setPte m i j f
      obtain ⟨m', hrun, htr, hk⟩ := ih (j := j + 1) (m := m.setPte i j f) (a := a + 1)
        (f := f + 1) (g := g + 1) (s := s) (by omega) (by rw [hkept.isSome]; exact htab)
        (by omega) (by omega)
      have hmin : min (s + 1) (n + 1) = min s n + 1 := by omega
      refine ⟨m', ?_, ?_, hkept.trans hk⟩
      · have hpte : (pageCursor a f g (s + 1)).paddr / 4096 % 2 ^ 32 = f := by
          simp only [pageCursor]
          omega
        have hend : ∀ x, x + 1 + min s n = x + (min s n + 1) := by omega
        have hleft : s - min s n = s + 1 - (min s n + 1) := by omega
        rw [l2MapEntries, if_pos (by simp only [pageCursor]; omega), hpte, pageCursor_next, hrun,
          hmin, hend, hend, hend, hleft]
      · have hv : (fun k => f + 1 + k) = fun k => f + (k + 1) := by
          funext k
          omega
        rw [htr, translate_setPte htab (by omega), ← ha, hmin, hv]
        exact overlay_succ (v := fun k => f + k)

theorem l2MapTables_spec (hi : Inv m) (hfr : Fresh m env) (hn : i + n = 1024)
    (hidx : s = 0 ∨ a / 1024 = i) (hs : a + s ≤ 2 ^ 20) (hf : f + s ≤ 2 ^ 32) :
    ∃ m' t e, l2MapTables env n i m (pageCursor a f g s) =
        (m', pageCursor (a + t) (f + t) (g + t) (s - t), e) ∧
      t ≤ s ∧ (e = none → t = s) ∧
      translate m' = overlay (translate m) a t (f + ·) ∧ Extends env m m' ∧
      (∀ k < t, (m'.l2Pts ((a + k) / 1024)).isSome) ∧
      (e = none ↔ ∀ k < s, CanTable m env ((a + k) / 1024)) := by
  induction n generalizing i m a f g s with
  | zero =>
    obtain rfl : s = 0 := by omega
    exact ⟨m, 0, none, by simp [l2MapTables], by simp, by simp, by simp, .refl hi hfr, by simp,
      by simp⟩
  | succ n ih =>
    cases s with
    | zero =>
      exact ⟨m, 0, none, by simp [l2MapTables, pageCursor], by simp, by simp, by simp,
        .refl hi hfr, by simp, by simp⟩
    | succ s =>
      obtain rfl : a / 1024 = i := by omega
      have hsize : (pageCursor a f g (s + 1)).size > 0 := by simp only [pageCursor]; omega
      have hiova : l2Index (pageCursor a f g (s + 1)).iova = a % 1024 := l2Index_page (by omega)
      obtain ⟨m₁, e, htable, hext, htr₁, hsome, hcan⟩ := l2MapTable_spec hi hfr (a / 1024)
      cases e with
      | some e =>
        refine ⟨m₁, 0, some e, ?_, by omega, by simp, by simpa using htr₁, hext, by simp, ?_⟩
        · rw [l2MapTables, if_pos hsize, htable]
          rfl
        · simp only [reduceCtorEq, false_iff] at hcan ⊢
          exact fun h => hcan (by simpa using h 0 (by omega))
      | none =>
        have hcan := hcan.mp rfl
        obtain ⟨m₂, hrun, htr₂, hk⟩ := l2MapEntries_spec (g := g)
          (show a % 1024 + (1024 - a % 1024) = 1024 by omega) (hsome rfl)
          (show a = 1024 * (a / 1024) + a % 1024 by omega) hf
        have hext₂ := hext.trans (hk.extends hext.inv hext.fresh)
        -- `c` pages of this table, then the tables after it
        generalize hc : min (s + 1) (1024 - a % 1024) = c at hrun htr₂
        obtain ⟨m', t, e, hrun', hts, hall, htr', hext', htab', hcan'⟩ :=
          ih (i := a / 1024 + 1) (m := m₂) (a := a + c) (f := f + c) (g := g + c)
            (s := s + 1 - c) hext₂.inv hext₂.fresh (by omega) (by omega) (by omega) (by omega)
        refine ⟨m', c + t, e, ?_, by omega, fun he => by have := hall he; omega, ?_,
          hext₂.trans hext', ?_, ?_⟩
        · rw [l2MapTables, if_pos hsize, htable, hiova, l2ptPtes]
          simp only [hrun, hrun', Nat.add_assoc, Nat.sub_sub]
        · have hv : (fun k => f + c + k) = fun k => f + (c + k) := by
            funext k
            omega
          rw [htr', htr₂, htr₁, hv]
          exact overlay_append (v := fun k => f + k)
        · intro k hkt
          by_cases hkc : k < c
          · have hpage : (a + k) / 1024 = a / 1024 := by omega
            rw [hpage]
            exact hext'.tables _ (by rw [hk.isSome]; exact hsome rfl)
          · have hpage : a + k = a + c + (k - c) := by omega
            rw [hpage]
            exact htab' _ (by omega)
        · rw [hcan']
          constructor
          · intro h k hks
            by_cases hkc : k < c
            · have hpage : (a + k) / 1024 = a / 1024 := by omega
              rw [hpage]
              exact hcan
            · have hpage : a + k = a + c + (k - c) := by omega
              rw [hpage]
              exact (hext₂.can _).mp (h _ (by omega))
          · intro h k hks
            refine (hext₂.can _).mpr ?_
            rw [Nat.add_assoc]
            exact h _ (by omega)

theorem written_l2MapEntries (i n j : Nat) (m : MmuInfo) (c : Cursor) :
    Written m (l2MapEntries i n j m c).1 := by
  induction n generalizing j m c with
  | zero => exact .refl
  | succ n ih =>
    simp only [l2MapEntries]
    split
    · exact (Written.setPte i j _ .refl).trans (ih ..)
    · exact .refl

theorem l2MapEntries_cursor (i n j : Nat) (m : MmuInfo) (a f g s : Nat) :
    ∃ t ≤ s, (l2MapEntries i n j m (pageCursor a f g s)).2 =
      pageCursor (a + t) (f + t) (g + t) (s - t) := by
  induction n generalizing j m a f g s with
  | zero => exact ⟨0, Nat.zero_le s, rfl⟩
  | succ n ih =>
    cases s with
    | zero => exact ⟨0, Nat.le_refl 0, by simp [l2MapEntries, pageCursor]⟩
    | succ s =>
      obtain ⟨t, hts, hrun⟩ := ih (j + 1) (m.setPte i j ((pageCursor a f g (s + 1)).paddr / 4096 % 2 ^ 32))
        (a + 1) (f + 1) (g + 1) s
      refine ⟨t + 1, by omega, ?_⟩
      rw [l2MapEntries, if_pos (by simp only [pageCursor]; omega), pageCursor_next, hrun]
      simp only [pageCursor, Cursor.mk.injEq]
      omega

theorem l2MapTables_cursor (env : Nat → PageEnv) (n i : Nat) (m : MmuInfo) (a f g s : Nat) :
    ∃ t ≤ s, (l2MapTables env n i m (pageCursor a f g s)).2.1 =
        pageCursor (a + t) (f + t) (g + t) (s - t) ∧
      ((l2MapTables env n i m (pageCursor a f g s)).2.2.isSome → t < s) := by
  induction n generalizing i m a f g s with
  | zero => exact ⟨0, Nat.zero_le s, rfl, by simp [l2MapTables]⟩
  | succ n ih =>
    cases s with
    | zero => exact ⟨0, Nat.le_refl 0, by simp [l2MapTables, pageCursor]⟩
    | succ s =>
      simp only [l2MapTables, if_pos (show (pageCursor a f g (s + 1)).size > 0 by
        simp only [pageCursor]; omega)]
      rcases l2MapTable m env i with ⟨m₁, _ | err⟩
      · simp only
        obtain ⟨t, hts, hrun⟩ := l2MapEntries_cursor i
          (l2ptPtes - l2Index (pageCursor a f g (s + 1)).iova)
          (l2Index (pageCursor a f g (s + 1)).iova) m₁ a f g (s + 1)
        rw [hrun]
        obtain ⟨t', hts', hrun', herr⟩ := ih (i + 1) _ (a + t) (f + t) (g + t) (s + 1 - t)
        refine ⟨t + t', by omega, ?_, fun he => ?_⟩
        · rw [hrun']
          simp only [pageCursor, Cursor.mk.injEq]
          omega
        · have := herr he
          omega
      · exact ⟨0, Nat.zero_le _, rfl, fun _ => by omega⟩

/-- The outcome of a map call: all `s` pages mapped, or an error and every
translation as it was. -/
structure Mapped (m : MmuInfo) (env : Nat → PageEnv) (a f s : Nat) (m' : MmuInfo)
    (e : Option Errno) : Prop where
  ext : Extends env m m'
  ok : e = none → translate m' = overlay (translate m) a s (f + ·) ∧
    ∀ k < s, (m'.l2Pts ((a + k) / 1024)).isSome
  err : e ≠ none → translate m' = translate m
  can : e = none ↔ ∀ k < s, CanTable m env ((a + k) / 1024)

theorem l2Map_extends (hi : Inv m) (hfr : Fresh m env) (hs : a + s ≤ 2 ^ 20) (hf : f + s ≤ 2 ^ 32) :
    Extends env m (l2Map m env (4096 * a) (4096 * f) (4096 * s)).1 ∧
    ((l2Map m env (4096 * a) (4096 * f) (4096 * s)).2 = none ↔
      ∀ k < s, CanTable m env ((a + k) / 1024)) := by
  obtain ⟨m₁, t, e, hrun, hts, hall, htr, hext, htab, hcan⟩ := l2MapTables_spec (g := 0) hi hfr
    (show a / 1024 + (1024 - a / 1024) = 1024 by omega) (.inr rfl) hs hf
  simp only [l2Map, pageCursor_start, l1Index_page (show a ≤ 2 ^ 20 by omega), l1ptPtes, hrun]
  cases e with
  | none => exact ⟨hext, hcan⟩
  | some e =>
    refine ⟨?_, by simpa using hcan⟩
    simp only
    split
    · exact hext.trans ((written_l2UnmapTables ..).kept.extends hext.inv hext.fresh)
    · exact hext

theorem l2Map_spec (hi : Inv m) (hfr : Fresh m env) (hs : a + s ≤ 2 ^ 20) (hf : f + s ≤ 2 ^ 32)
    (hun : ∀ k < s, translate m (a + k) = m.dummyPagePteval) :
    Mapped m env a f s (l2Map m env (4096 * a) (4096 * f) (4096 * s)).1
      (l2Map m env (4096 * a) (4096 * f) (4096 * s)).2 := by
  obtain ⟨hext, hcan⟩ := l2Map_extends hi hfr hs hf
  obtain ⟨m₁, t, e, hrun, hts, hall, htr, hext₁, htab, -⟩ := l2MapTables_spec (g := 0) hi hfr
    (show a / 1024 + (1024 - a / 1024) = 1024 by omega) (.inr rfl) hs hf
  refine ⟨hext, ?_, ?_, hcan⟩ <;>
    simp only [l2Map, pageCursor_start, l1Index_page (show a ≤ 2 ^ 20 by omega), l1ptPtes, hrun] <;>
    cases e with
    | none => ?_
    | some e => ?_
  · obtain rfl := hall rfl
    exact fun _ => ⟨htr, htab⟩
  · simp
  · simp
  · intro _
    simp only [pageCursor, Nat.zero_add]
    -- what was mapped is taken down again
    by_cases ht : t = 0
    · subst ht
      simpa using htr
    · obtain ⟨hun', -⟩ := l2Unmap_spec (a := a) (s := t) hext₁.inv (by omega) htab
      have hsub : 4096 * (a + t) - 4096 * t = 4096 * a := by omega
      rw [if_pos (by omega), hsub, hun', htr, overlay_overlay, hext₁.dummyPage]
      exact overlay_eq_self fun k hkt => hun k (by omega)

theorem mmuMap_eq (hi : Inv m) (env : Nat → PageEnv) (a f s : Nat) :
    ipu6MmuMap m env (4096 * a) (4096 * f) (4096 * s) =
      l2Map m env (4096 * (a % 2 ^ 20)) (4096 * f) (4096 * s) := by
  have hal : isAligned (4096 * a ||| 4096 * f ||| 4096 * s) 4096 = true := by
    simp [isAligned_page, or_mod_page]
  have hpg : m.pgsizeBitmap ≠ 0 := by
    rw [hi.pgsize]
    decide
  have hstart : 4096 * a / 4096 * 4096 % 2 ^ 32 = 4096 * (a % 2 ^ 20) := by omega
  unfold ipu6MmuMap
  rw [if_neg hpg, minPagesz_eq hi, hal, hstart]
  rfl

theorem mmuMap_spec (hi : Inv m) (hfr : Fresh m env) (hs : a + s ≤ 2 ^ 20) (hf : f + s ≤ 2 ^ 32)
    (hun : ∀ k < s, translate m (a + k) = m.dummyPagePteval) :
    Mapped m env a f s (ipu6MmuMap m env (4096 * a) (4096 * f) (4096 * s)).1
      (ipu6MmuMap m env (4096 * a) (4096 * f) (4096 * s)).2 := by
  rw [mmuMap_eq hi]
  by_cases ha : a < 2 ^ 20
  · rw [Nat.mod_eq_of_lt ha]
    exact l2Map_spec hi hfr hs hf hun
  · -- an empty range at the very end starts over at 0, with nothing to do
    obtain rfl : s = 0 := by omega
    obtain rfl : a = 2 ^ 20 := by omega
    have h0 := l2Map_spec (a := 0) (s := 0) hi hfr (by omega) hf (by simp)
    refine ⟨h0.ext, fun he => ?_, h0.err, by simpa using h0.can⟩
    simpa using h0.ok he

theorem mmuMap_extends (hi : Inv m) (hfr : Fresh m env) (hs : a + s ≤ 2 ^ 20)
    (hf : f + s ≤ 2 ^ 32) :
    Extends env m (ipu6MmuMap m env (4096 * a) (4096 * f) (4096 * s)).1 ∧
    ((ipu6MmuMap m env (4096 * a) (4096 * f) (4096 * s)).2 = none ↔
      ∀ k < s, CanTable m env ((a + k) / 1024)) := by
  rw [mmuMap_eq hi]
  by_cases ha : a < 2 ^ 20
  · rw [Nat.mod_eq_of_lt ha]
    exact l2Map_extends hi hfr hs hf
  · obtain rfl : s = 0 := by omega
    obtain ⟨hext, hcan⟩ := l2Map_extends (a := a % 2 ^ 20) (s := 0) hi hfr (by omega) hf
    exact ⟨hext, by simpa using hcan⟩

-- ---------------------------------------------------------------------------
-- An empty table
-- ---------------------------------------------------------------------------

/-- A page whose DMA address is given by its number. -/
def plainPage (page : Nat) : PageEnv := ⟨some page, some (4096 * page)⟩

/-- Pages for the first `n` L2 tables. -/
def plainTables (n i : Nat) : PageEnv := if i < n then plainPage (20 + i) else ⟨none, none⟩

def plainAlloc : AllocEnv := ⟨true, true, true, plainPage 10, plainPage 11, plainPage 12⟩

def emptyMmu : MmuInfo := (ipu6MmuAlloc plainAlloc).get rfl

theorem mmuAlloc_plainAlloc : ipu6MmuAlloc plainAlloc = some emptyMmu := (Option.some_get rfl).symm

theorem emptyMmu_maps : emptyMmu.maps = [4096 * 12, 4096 * 11, 4096 * 10] := rfl

theorem emptyMmu_addr : ∀ a ∈ emptyMmu.maps, DmaAddr a := by
  simp only [emptyMmu_maps, List.forall_mem_cons, List.not_mem_nil, false_imp_iff, implies_true,
    and_true]
  refine ⟨⟨?_, ?_, ?_⟩, ⟨?_, ?_, ?_⟩, ⟨?_, ?_, ?_⟩⟩ <;> decide

theorem inv_emptyMmu : Inv emptyMmu ∧ ∀ i, emptyMmu.l2Pts i = none :=
  inv_mmuAlloc mmuAlloc_plainAlloc emptyMmu_addr

theorem fresh_plainTables (hn : n ≤ 1024) : Fresh emptyMmu (plainTables n) := by
  have hplain : ∀ i a, (plainTables n i).dmaMapSingle = some a → i < n ∧ a = 4096 * (20 + i) := by
    intro i a ha
    by_cases hi : i < n
    · simp only [plainTables, if_pos hi, plainPage, Option.some.injEq] at ha
      exact ⟨hi, ha.symm⟩
    · simp [plainTables, hi] at ha
  intro i a _ ha
  obtain ⟨hi, rfl⟩ := hplain i a ha
  refine ⟨⟨by omega, by omega, by omega⟩, ?_, fun j _ hj => ?_⟩
  · simp only [emptyMmu_maps, List.mem_cons, List.not_mem_nil, or_false]
    omega
  · have := (hplain j _ hj).2
    omega

theorem canTable_plainTables (hi : i < n) : CanTable m (plainTables n) i := by
  refine .inr ⟨?_, ?_⟩
  · simp [plainTables, hi, plainPage]
  · simp only [plainTables, if_pos hi, plainPage, mapSingle, Option.getD_some]
    omega

end Ipu4.Mmu
