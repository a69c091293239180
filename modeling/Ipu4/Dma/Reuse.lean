import Ipu4.Dma.Tlb

/-!
# No reuse before an invalidation

When the traces of `ipu6-dma.c` are clean. `ipu6_dma_free` gives the pages of
a buffer back between unmapping and invalidating, and `ipu6_dma_alloc` gives
back pages and range of a buffer it could not finish with no invalidation at
all; scatter lists are unmapped, invalidated and given back in this order.
-/

namespace Ipu4.Dma

open Mmu Ledger Trace
open Runs (Reachable)

-- ---------------------------------------------------------------------------
-- Maps inside a range
-- ---------------------------------------------------------------------------

def mapActs (a : Nat) (page : Option Nat) (t : Nat) : List Act :=
  (List.range t).map fun k => .map (a + k) page

theorem mmuMapTrace_cases (m : MmuInfo) (env : Nat → PageEnv) (paddr : Nat) (page : Option Nat)
    (hs : a + s ≤ 2 ^ 20) :
    ((ipu6MmuMap m env (4096 * a) paddr (4096 * s)).2 = none ∧
      ∃ t ≤ s, mmuMapTrace m env (4096 * a) paddr (4096 * s) page = mapActs a page t) ∨
    ((ipu6MmuMap m env (4096 * a) paddr (4096 * s)).2 ≠ none ∧
      ∃ t, (t = 0 ∨ t < s) ∧ mmuMapTrace m env (4096 * a) paddr (4096 * s) page =
        mapActs a page t ++ if t ≠ 0 then [.unmap a t] else []) := by
  have hnone : (∃ t, (t = 0 ∨ t < s) ∧ ([] : List Act) =
      mapActs a page t ++ if t ≠ 0 then [.unmap a t] else []) := ⟨0, .inl rfl, rfl⟩
  unfold ipu6MmuMap mmuMapTrace
  split
  · exact .inr ⟨by simp, hnone⟩
  · split
    · exact .inr ⟨by simp, hnone⟩
    · have hstart : 4096 * a / 4096 * 4096 % 2 ^ 32 = 4096 * (a % 2 ^ 20) := by omega
      have hcur : (⟨4096 * (a % 2 ^ 20), pageAlign paddr, 0, 4096 * s⟩ : Cursor) =
          pageCursor (a % 2 ^ 20) ((paddr + 4095) / 4096) 0 s := by
        simp only [pageAlign, pageCursor, Cursor.mk.injEq, true_and, and_true]
        omega
      obtain ⟨t, hts, hcursor, herr⟩ := l2MapTables_cursor env
        (l1ptPtes - l1Index (4096 * (a % 2 ^ 20))) (l1Index (4096 * (a % 2 ^ 20))) m (a % 2 ^ 20)
        ((paddr + 4095) / 4096) 0 s
      rw [hstart]
      simp only [l2Map, l2MapTrace, hcur]
      generalize l2MapTables env (l1ptPtes - l1Index (4096 * (a % 2 ^ 20)))
        (l1Index (4096 * (a % 2 ^ 20))) m (pageCursor (a % 2 ^ 20) ((paddr + 4095) / 4096) 0 s) = l
        at hcursor herr
      -- a page that is mapped lies in the first 4 GiB, where the start is not cut
      have hsame : t ≠ 0 → a % 2 ^ 20 = a := fun ht => Nat.mod_eq_of_lt (by omega)
      have hacts : (List.range t).map (fun k => Act.map (a % 2 ^ 20 + k) page) = mapActs a page t := by
        by_cases ht : t = 0
        · rw [ht]
          rfl
        · rw [hsame ht]
          rfl
      obtain ⟨m', c, e⟩ := l
      simp only at hcursor herr
      subst hcursor
      have hdiv : ∀ x, 4096 * x / 4096 = x := fun x => by omega
      cases e with
      | none =>
        refine .inl ⟨rfl, t, hts, ?_⟩
        simp only [pageCursor, Nat.zero_add, hdiv, hacts, Option.isSome_none, Bool.false_and,
          Bool.false_eq_true, if_false, List.append_nil]
      | some err =>
        refine .inr ⟨by simp, t, .inr (herr rfl), ?_⟩
        have hsub : 4096 * (a % 2 ^ 20 + t) - 4096 * t = 4096 * (a % 2 ^ 20) := by omega
        simp only [pageCursor, Nat.zero_add, hdiv, hacts, Option.isSome_some, Bool.true_and, hsub]
        by_cases ht : t = 0
        · simp [ht]
        · have hne : 4096 * t ≠ 0 := by omega
          rw [hsame ht]
          simp [ht, hne]

/-- An action of a scatter list on range `r`. -/
def Act.Within (r : Iova) : Act → Prop
  | .map pfn page => r.Mem pfn ∧ page = none
  | .unmap pfnLo count => ∀ p, pfnLo ≤ p → p < pfnLo + count → r.Mem p
  | _ => False

theorem pageAlign32_eq (len : Nat) : ∃ s ≤ pfnUp len, pageAlign32 len = 4096 * s := by
  refine ⟨(len + 4095) % 2 ^ 32 / 4096, ?_, Nat.mul_comm ..⟩
  exact Nat.div_le_div_right (Nat.mod_le ..)

theorem mmuMapTrace_within {r : Iova} (hs : a + s ≤ 2 ^ 20)
    (hr : ∀ p, a ≤ p → p < a + s → r.Mem p) :
    ∀ x ∈ mmuMapTrace m env (4096 * a) paddr (4096 * s) none, x.Within r := by
  have hacts : ∀ t ≤ s, ∀ x ∈ mapActs a none t, x.Within r := by
    intro t ht x hx
    obtain ⟨k, hk, rfl⟩ := List.mem_map.mp hx
    have := List.mem_range.mp hk
    exact ⟨hr _ (by omega) (by omega), rfl⟩
  rcases mmuMapTrace_cases m env paddr none hs with ⟨-, t, ht, htrace⟩ | ⟨-, t, ht, htrace⟩
  · rw [htrace]
    exact hacts t ht
  · rw [htrace]
    intro x hx
    rcases List.mem_append.mp hx with hx | hx
    · exact hacts t (by omega) x hx
    · split at hx
      · obtain rfl := List.mem_singleton.mp hx
        exact fun p h₁ h₂ => hr p h₁ (by omega)
      · cases hx

theorem mapSgLoopTrace_within {r : Iova} (env : SgEnv) (sgl : List Sg) (a : Nat) (m : MmuInfo)
    (hb : a + npages sgl ≤ 2 ^ 20) (hr : ∀ p, a ≤ p → p < a + npages sgl → r.Mem p) :
    ∀ x ∈ mapSgLoopTrace env sgl a m, x.Within r := by
  induction sgl generalizing a m with
  | nil => simp [mapSgLoopTrace]
  | cons e es ih =>
    rw [npages_cons] at hb hr
    intro x hx
    rcases List.mem_append.mp hx with hx | hx
    · obtain ⟨s, hs, hlen⟩ := pageAlign32_eq e.dmaLen
      rw [hlen] at hx
      exact mmuMapTrace_within (by omega) (fun p h₁ h₂ => hr p h₁ (by omega)) x hx
    · split at hx
      · cases hx
      · exact ih _ _ (by omega) (fun p h₁ h₂ => hr p (by omega) (by omega)) x hx

/-- Slot `i` of the buffer at `lo` can be mapped. -/
def PageCan (d : Ipu6Mmu) (env : AllocEnv) (lo i : Nat) : Prop :=
  (env.dmaMapPage i).isSome ∧ CanTable d.mmu env.tables ((lo + i) / 1024)

section
variable {env : AllocEnv} {d : Ipu6Mmu} {iova : Iova} {pages : List Nat}

theorem mapPage_extends (hi : Mmu.Inv d.mmu) (hf : Fresh d.mmu env.tables)
    (hal : x % 4096 = 0 ∧ x < 2 ^ 39) (hb : p < 2 ^ 20) :
    Extends env.tables d.mmu (ipu6MmuMap d.mmu env.tables (4096 * p) x 4096).1 ∧
    ((ipu6MmuMap d.mmu env.tables (4096 * p) x 4096).2 = none ↔
      CanTable d.mmu env.tables (p / 1024)) := by
  have h := mmuMap_extends (a := p) (f := x / 4096) (s := 1) hi hf (by omega) (by omega)
  rw [show 4096 * (x / 4096) = x by omega, Nat.mul_one] at h
  refine ⟨h.1, h.2.trans ⟨fun hk => hk 0 (by omega), fun hc k hk => ?_⟩⟩
  obtain rfl : k = 0 := by omega
  exact hc

theorem allocMapLoop_extends (hi : Mmu.Inv d.mmu) (hf : Fresh d.mmu env.tables)
    (hdma : ∀ k a, env.dmaMapPage k = some a → a % 4096 = 0 ∧ a < 2 ^ 39)
    (hb : iova.pfnLo + (i + n) ≤ 2 ^ 20) :
    Extends env.tables d.mmu (allocMapLoop env iova pages n i d).1.mmu := by
  induction n generalizing i d with
  | zero => exact .refl hi hf
  | succ n ih =>
    simp only [allocMapLoop]
    split
    · exact .refl hi hf
    · rename_i a ha
      have hext := (mapPage_extends hi hf (hdma i a ha) (show iova.pfnLo + i < 2 ^ 20 by omega)).1
      simp only [Ipu6Mmu.mapPage] at *
      generalize ipu6MmuMap d.mmu env.tables (4096 * (iova.pfnLo + i)) a 4096 = r at hext ⊢
      obtain ⟨mmu, _ | e⟩ := r
      · exact hext.trans (ih (d := { d.mapPage (pages.getD i 0) a with mmu := mmu }) (i := i + 1)
          hext.inv hext.fresh (by omega))
      · exact hext

theorem allocMapLoop_first (hi : Mmu.Inv d.mmu) (hf : Fresh d.mmu env.tables)
    (hdma : ∀ k a, env.dmaMapPage k = some a → a % 4096 = 0 ∧ a < 2 ^ 39)
    (hb : iova.pfnLo < 2 ^ 20) (hno : ¬ PageCan d env iova.pfnLo 0) (hn : n ≠ 0) :
    allocMapTrace env iova pages n 0 d = [] ∧ (allocMapLoop env iova pages n 0 d).2 = (0, false) := by
  obtain ⟨n, rfl⟩ := Nat.exists_eq_succ_of_ne_zero hn
  simp only [allocMapTrace, allocMapLoop]
  cases ha : env.dmaMapPage 0 with
  | none => exact ⟨rfl, rfl⟩
  | some a =>
    have hcan := (mapPage_extends hi hf (hdma 0 a ha) hb).2
    have hfail : (ipu6MmuMap d.mmu env.tables (4096 * iova.pfnLo) a 4096).2 ≠ none := by
      rw [Ne, hcan]
      exact fun hc => hno ⟨by simp [ha], hc⟩
    have htrace : mmuMapTrace d.mmu env.tables (4096 * iova.pfnLo) a 4096 (some (pages.getD 0 0)) = [] := by
      have h := mmuMapTrace_cases (a := iova.pfnLo) (s := 1) d.mmu env.tables a
        (some (pages.getD 0 0)) (by omega)
      rw [Nat.mul_one] at h
      obtain ⟨-, t, ht, htrace⟩ := h.resolve_left fun hok => hfail hok.1
      obtain rfl : t = 0 := by omega
      exact htrace
    simp only [Ipu6Mmu.mapPage, Nat.add_zero, htrace] at *
    generalize ipu6MmuMap d.mmu env.tables (4096 * iova.pfnLo) a 4096 = r at hfail ⊢
    obtain ⟨mmu, _ | e⟩ := r
    · exact absurd rfl hfail
    · exact ⟨rfl, rfl⟩

theorem allocMapLoop_all (pages : List Nat) (hi : Mmu.Inv d.mmu) (hf : Fresh d.mmu env.tables)
    (hdma : ∀ k a, env.dmaMapPage k = some a → a % 4096 = 0 ∧ a < 2 ^ 39)
    (hb : iova.pfnLo + (i + n) ≤ 2 ^ 20)
    (hcan : ∀ k, i ≤ k → k < i + n → PageCan d env iova.pfnLo k) :
    (allocMapLoop env iova pages n i d).2.2 = true ∧
      ∀ x ∈ allocMapTrace env iova pages n i d, ∃ p page, x = .map p page ∧
        iova.pfnLo + i ≤ p ∧ p < iova.pfnLo + (i + n) := by
  induction n generalizing i d with
  | zero => simp [allocMapLoop, allocMapTrace]
  | succ n ih =>
    obtain ⟨hdmai, htable⟩ := hcan i (Nat.le_refl i) (by omega)
    obtain ⟨a, ha⟩ := Option.isSome_iff_exists.mp hdmai
    obtain ⟨hext, hiff⟩ := mapPage_extends hi hf (hdma i a ha) (show iova.pfnLo + i < 2 ^ 20 by omega)
    have hok := hiff.mpr htable
    have htrace : ∃ t ≤ 1, mmuMapTrace d.mmu env.tables (4096 * (iova.pfnLo + i)) a 4096
        (some (pages.getD i 0)) = mapActs (iova.pfnLo + i) (some (pages.getD i 0)) t := by
      have h := mmuMapTrace_cases (a := iova.pfnLo + i) (s := 1) d.mmu env.tables a
        (some (pages.getD i 0)) (by omega)
      rw [Nat.mul_one] at h
      exact (h.resolve_right fun herr => herr.1 hok).2
    obtain ⟨t, ht, htrace⟩ := htrace
    simp only [allocMapLoop, allocMapTrace, ha, Ipu6Mmu.mapPage, htrace] at *
    generalize ipu6MmuMap d.mmu env.tables (4096 * (iova.pfnLo + i)) a 4096 = r at hext hok ⊢
    obtain ⟨mmu, e⟩ := r
    simp only at hext hok
    subst hok
    simp only
    obtain ⟨hdone, hacts⟩ := ih (i := i + 1)
      (d := { d.mapPage (pages.getD i 0) a with mmu := mmu }) hext.inv hext.fresh (by omega)
      fun k h₁ h₂ => by
        obtain ⟨hk, hc⟩ := hcan k (by omega) (by omega)
        exact ⟨hk, (hext.can _).mpr hc⟩
    refine ⟨hdone, fun x hx => ?_⟩
    rcases List.mem_append.mp hx with hx | hx
    · obtain ⟨k, hk, rfl⟩ := List.mem_map.mp hx
      have := List.mem_range.mp hk
      exact ⟨_, _, rfl, by omega, by omega⟩
    · obtain ⟨p, page, rfl, h₁, h₂⟩ := hacts x hx
      exact ⟨p, page, rfl, by omega, by omega⟩

end

-- ---------------------------------------------------------------------------
-- Runs
-- ---------------------------------------------------------------------------

/-- A state of the MMU, and what has been done to get there. -/
structure Traced where
  d : Ipu6Mmu
  acts : List Act

/-- What the kernel may answer to a scatter list: a free range below
`aperture_end`, fresh tables; the entries have addresses the MMU can hold. -/
structure SgEnvOk (d : Ipu6Mmu) (env : SgEnv) (sgl : List Sg) : Prop where
  iova : ∀ lo, env.allocIova = some lo → 1 ≤ lo ∧
    lo + npages sgl ≤ d.mmu.apertureEnd / 4096 + 1 ∧
    ∀ p, lo ≤ p → p < lo + npages sgl → ∀ r ∈ d.iovad, ¬ r.Mem p
  tables : Fresh d.mmu env.tables
  phys : ∀ e ∈ sgl, e.dmaAddress + 4096 * pfnUp e.dmaLen ≤ 2 ^ 39

def Op.Answers (d : Ipu6Mmu) : Op → Prop
  | .alloc env size => EnvOk d env size
  | .mapSg env sgl => SgEnvOk d env sgl
  | .free .. | .unmapSg .. => True

structure Traced.Step (s : Traced) (op : Op) (s' : Traced) : Prop where
  answers : op.Answers s.d
  run : op.run s.d = some s'.d
  acts : s'.acts = s.acts ++ op.trace s.d

/-- An allocation that gets its first page into the table gets all of them and
its `vmap` area; a free has no page to give back. -/
def Op.NothingUndone (d : Ipu6Mmu) : Op → Prop
  | .alloc env size => ∀ lo, env.allocIova = some lo → Buffered env size →
    0 < pageAlign64 size / 4096 → PageCan d env lo 0 →
    (∀ i < pageAlign64 size / 4096, PageCan d env lo i) ∧ env.vmap.isSome
  | .free size dmaHandle => ∀ iova info, findIova d.iovad (dmaHandle / 4096) = some iova →
    getVmInfo d.vmaList dmaHandle = some info → info.vaddr ≠ 0 →
    info.pages.take (pageAlign64 size / 4096) = []
  | .mapSg .. | .unmapSg .. => True

/-- Where a run may start: the device holds no translation that is not in the
table, and those of the table lie in ranges of the IOVA domain. -/
structure Begin (d : Ipu6Mmu) (w : Watch) : Prop where
  inv : Mmu.Inv d.mmu
  aperture : d.mmu.apertureEnd < 2 ^ 32
  ranges : w.ranges = d.iovad
  live : ∀ u ∈ w.live, ∃ r ∈ d.iovad, r.Mem u.pfn
  stale : w.stale = []

-- ---------------------------------------------------------------------------
-- The invariant
-- ---------------------------------------------------------------------------

structure Watch.Ok (w : Watch) : Prop where
  live : ∀ u ∈ w.live, ∃ r ∈ w.ranges, r.Mem u.pfn
  page : ∀ u ∈ w.stale, u.page = none
  stale : ∀ u ∈ w.stale, ∃ r ∈ w.ranges, r.Mem u.pfn

def Watch.Unused (r : Iova) (w : Watch) : Prop := ∀ u ∈ w.live ++ w.stale, ¬ r.Mem u.pfn

/-- Translations of range `r` are of a scatter list. -/
def Watch.Listed (r : Iova) (w : Watch) : Prop := ∀ u ∈ w.live, r.Mem u.pfn → u.page = none

section
variable {w : Watch} {r : Iova}

theorem Watch.Ok.allocIova (h : w.Ok) (r : Iova) : (w.next (.allocIova r)).Ok := by
  refine ⟨fun u hu => ?_, h.page, fun u hu => ?_⟩
  · obtain ⟨r', hr', hmem⟩ := h.live u hu
    exact ⟨r', List.mem_cons_of_mem _ hr', hmem⟩
  · obtain ⟨r', hr', hmem⟩ := h.stale u hu
    exact ⟨r', List.mem_cons_of_mem _ hr', hmem⟩

theorem Watch.Ok.unused (h : w.Ok) (hr : ∀ p, r.Mem p → ∀ r' ∈ w.ranges, ¬ r'.Mem p) :
    w.Unused r := by
  intro u hu hmem
  obtain ⟨r', hr', hmem'⟩ : ∃ r' ∈ w.ranges, r'.Mem u.pfn := by
    rcases List.mem_append.mp hu with hu | hu
    · exact h.live u hu
    · exact h.stale u hu
  exact hr _ hmem r' hr' hmem'

theorem Watch.Ok.freePages (h : w.Ok) (pages : List Nat) : w.Allows (.freePages pages) := by
  intro u hu page _
  rw [h.page u hu]
  exact nofun

theorem Watch.Ok.map (h : w.Ok) (hr : r ∈ w.ranges) (hp : r.Mem p) (page : Option Nat) :
    (w.next (.map p page)).Ok := by
  refine ⟨?_, h.page, h.stale⟩
  exact List.forall_mem_cons.mpr ⟨⟨r, hr, hp⟩, h.live⟩

theorem Watch.Ok.freeIova (h : w.Ok) (hr : w.Unused r) : (w.next (.freeIova r)).Ok := by
  have hstay : ∀ u ∈ w.live ++ w.stale, (∃ r' ∈ w.ranges, r'.Mem u.pfn) →
      ∃ r' ∈ w.ranges.erase r, r'.Mem u.pfn := by
    rintro u hu ⟨r', hr', hmem⟩
    have hne : r' ≠ r := fun heq => hr u hu (heq ▸ hmem)
    exact ⟨r', (List.mem_erase_of_ne hne).mpr hr', hmem⟩
  exact ⟨fun u hu => hstay u (List.mem_append_left _ hu) (h.live u hu), h.page,
    fun u hu => hstay u (List.mem_append_right _ hu) (h.stale u hu)⟩

theorem Watch.Unused.allows (h : w.Unused r) : w.Allows (.freeIova r) :=
  fun u hu => h u (List.mem_append_right _ hu)

theorem Watch.Ok.giveBack (h : w.Ok) (hr : w.Unused r) (pages : List Nat) :
    EndsIn reuse w [.freePages pages, .freeIova r] Watch.Ok :=
  .cons (h.freePages pages) (.cons hr.allows (.nil (h.freeIova hr)))

theorem Watch.Ok.unmapRange (h : w.Ok) (r : Iova) :
    EndsIn reuse w [.unmap r.pfnLo (r.pfnHi + 1 - r.pfnLo), .tlbInvalidate, .freeIova r] Watch.Ok := by
  have hsub : ∀ u ∈ w.live.filter fun u => !u.within r.pfnLo (r.pfnHi + 1 - r.pfnLo),
      u ∈ w.live ∧ ¬ r.Mem u.pfn := by
    intro u hu
    obtain ⟨hu, hout⟩ := List.mem_filter.mp hu
    refine ⟨hu, fun hmem => ?_⟩
    simp only [Translation.within, Bool.not_eq_true', Bool.and_eq_false_iff,
      decide_eq_false_iff_not] at hout
    simp only [Iova.Mem] at hmem
    omega
  have hok : Watch.Ok ⟨w.ranges, w.live.filter fun u => !u.within r.pfnLo (r.pfnHi + 1 - r.pfnLo), []⟩ :=
    ⟨fun u hu => h.live u (hsub u hu).1, by simp, by simp⟩
  have hun : Watch.Unused r
      ⟨w.ranges, w.live.filter fun u => !u.within r.pfnLo (r.pfnHi + 1 - r.pfnLo), []⟩ := by
    intro u hu
    rw [List.append_nil] at hu
    exact (hsub u hu).2
  exact .cons trivial (.cons trivial (.cons hun.allows (.nil (hok.freeIova hun))))

theorem Watch.Ok.within {a : Act} (h : w.Ok) (hl : w.Listed r) (hr : r ∈ w.ranges) (ha : a.Within r) :
    w.Allows a ∧ (w.next a).Ok ∧ (w.next a).Listed r ∧ r ∈ (w.next a).ranges := by
  cases a with
  | map p page =>
    obtain ⟨hp, rfl⟩ := ha
    exact ⟨trivial, h.map hr hp none, List.forall_mem_cons.mpr ⟨fun _ => rfl, hl⟩, hr⟩
  | unmap lo n =>
    have hin : ∀ u ∈ w.live.filter (·.within lo n), u ∈ w.live ∧ r.Mem u.pfn := by
      intro u hu
      obtain ⟨hu, hwithin⟩ := List.mem_filter.mp hu
      simp only [Translation.within, Bool.and_eq_true, decide_eq_true_eq] at hwithin
      exact ⟨hu, ha _ hwithin.1 hwithin.2⟩
    have hkept : ∀ u ∈ w.live.filter fun u => !u.within lo n, u ∈ w.live :=
      fun u hu => (List.mem_filter.mp hu).1
    refine ⟨trivial, ⟨fun u hu => h.live u (hkept u hu), fun u hu => ?_, fun u hu => ?_⟩,
      fun u hu => hl u (hkept u hu), hr⟩
    · rcases List.mem_append.mp hu with hu | hu
      · exact hl u (hin u hu).1 (hin u hu).2
      · exact h.page u hu
    · rcases List.mem_append.mp hu with hu | hu
      · exact h.live u (hin u hu).1
      · exact h.stale u hu
  | _ => exact ha.elim

end

-- ---------------------------------------------------------------------------
-- One call
-- ---------------------------------------------------------------------------

section
variable {d d' : Ipu6Mmu} {w : Watch}

structure TableKept (m m' : MmuInfo) : Prop where
  inv : Mmu.Inv m'
  aperture : m'.apertureEnd = m.apertureEnd

theorem TableKept.refl (hi : Mmu.Inv m) : TableKept m m := ⟨hi, rfl⟩

theorem TableKept.trans (h₁ : TableKept m m₁) (h₂ : TableKept m₁ m₂) : TableKept m m₂ :=
  ⟨h₂.inv, h₂.aperture.trans h₁.aperture⟩

theorem tableKept_of_extends (h : Extends env m m') : TableKept m m' := ⟨h.inv, h.aperture⟩

theorem tableKept_mmuUnmap (hi : Mmu.Inv m) (iova size : Nat) :
    TableKept m (ipu6MmuUnmap m iova size) :=
  ⟨(written_mmuUnmap m iova size).kept.inv hi, (written_mmuUnmap m iova size).kept.aperture⟩

theorem outUnmap_table (i : Nat) (d : Ipu6Mmu) (hi : Mmu.Inv d.mmu)
    (h : outUnmap iova i d = some d') : TableKept d.mmu d'.mmu := by
  induction i generalizing d with
  | zero =>
    obtain rfl := Option.some.inj h
    exact .refl hi
  | succ i ih =>
    simp only [outUnmap, Option.bind_eq_bind, Option.bind_eq_some_iff] at h
    obtain ⟨x, -, h⟩ := h
    have hun := tableKept_mmuUnmap hi (4096 * (iova.pfnLo + i)) 4096
    exact hun.trans (ih _ hun.inv h)

theorem mapSgLoop_extends (env : SgEnv) (hi : Mmu.Inv m) (hf : Fresh m env.tables)
    (hb : a + npages sgl ≤ 2 ^ 20)
    (hphys : ∀ e ∈ sgl, e.dmaAddress + 4096 * pfnUp e.dmaLen ≤ 2 ^ 39) :
    Extends env.tables m (mapSgLoop env sgl a m).1 := by
  induction sgl generalizing a m with
  | nil => exact .refl hi hf
  | cons e es ih =>
    rw [npages_cons] at hb
    have hbound := hphys e List.mem_cons_self
    simp only [mapSgLoop]
    have hext : Extends env.tables m
        (ipu6MmuMap m env.tables (4096 * a) e.dmaAddress (pageAlign32 e.dmaLen)).1 := by
      by_cases hal : e.dmaAddress % 4096 = 0
      · obtain ⟨s, hs, hlen⟩ := pageAlign32_eq e.dmaLen
        have h := mmuMap_extends (a := a) (f := e.dmaAddress / 4096) (s := s) hi hf (by omega)
          (by omega)
        rw [show 4096 * (e.dmaAddress / 4096) = e.dmaAddress by omega, ← hlen] at h
        exact h.1
      · rw [mmuMap_unaligned hi hal]
        exact .refl hi hf
    generalize ipu6MmuMap m env.tables (4096 * a) e.dmaAddress (pageAlign32 e.dmaLen) = r at hext ⊢
    obtain ⟨m₁, _ | err⟩ := r
    · exact hext.trans (ih (m := m₁) (a := a + pfnUp e.dmaLen) hext.inv hext.fresh (by omega)
        fun e' he' => hphys e' (List.mem_cons_of_mem _ he'))
    · exact hext

/-- What a call that meets the condition does: a clean trace, and the invariant
again. -/
structure CallOk (d : Ipu6Mmu) (w : Watch) (d' : Ipu6Mmu) (acts : List Act) : Prop where
  table : TableKept d.mmu d'.mmu
  ends : EndsIn reuse w acts Watch.Ok

theorem CallOk.nothing (hi : Mmu.Inv d.mmu) (h : w.Ok) : CallOk d w d [] := ⟨.refl hi, .nil h⟩

theorem mem_iova (hlo : 1 ≤ lo) : Iova.Mem p ⟨lo, lo + n - 1⟩ ↔ lo ≤ p ∧ p < lo + n := by
  simp only [Iova.Mem]
  omega

theorem allocBufferTrace_ends {I : Watch → Prop} (hI : ∀ w, I w → w.Ok) (h : I w) (env : AllocEnv)
    (size : Nat) : EndsIn reuse w (allocBufferTrace env size) I := by
  unfold allocBufferTrace
  split
  · exact .nil h
  · rcases allocBufferLoop env.allocPages (size / 4096) 0 (size / 4096) [] with ⟨pages, _ | _⟩
    · exact .cons trivial (.cons ((hI w h).freePages pages) (.nil h))
    · exact .cons trivial (.nil h)

theorem EnvOk.aligned (h : EnvOk d env size) (k a : Nat) (hk : env.dmaMapPage k = some a) :
    a % 4096 = 0 ∧ a < 2 ^ 39 :=
  ⟨(h.dma k a hk).1, (h.dma k a hk).2.1⟩

/-- How the mapping loop of a call that meets the condition ends: with every
page mapped, or with none. -/
theorem allocMapLoop_meets (pages : List Nat) (hd : d₁.mmu = d.mmu) (hi : Mmu.Inv d.mmu)
    (ha : EnvOk d env size) (hmem : ∀ p, iova.Mem p ↔ iova.pfnLo ≤ p ∧ p < iova.pfnLo + n)
    (hb : iova.pfnLo + n ≤ 2 ^ 20)
    (hm : 0 < n → PageCan d env iova.pfnLo 0 → ∀ i < n, PageCan d env iova.pfnLo i) :
    TableKept d.mmu (allocMapLoop env iova pages n 0 d₁).1.mmu ∧
    (((0 < n → PageCan d env iova.pfnLo 0) ∧ (allocMapLoop env iova pages n 0 d₁).2.2 = true ∧
        ∀ x ∈ allocMapTrace env iova pages n 0 d₁, ∃ p page, x = .map p page ∧ iova.Mem p) ∨
      (allocMapTrace env iova pages n 0 d₁ = [] ∧
        (allocMapLoop env iova pages n 0 d₁).2 = (0, false))) := by
  have hcan : ∀ k, PageCan d env iova.pfnLo k ↔ PageCan d₁ env iova.pfnLo k := fun k => by
    simp only [PageCan, hd]
  have hf := ha.tables
  rw [← hd] at hi hf ⊢
  simp only [hcan] at hm ⊢
  refine ⟨tableKept_of_extends (allocMapLoop_extends (i := 0) hi hf ha.aligned (by omega)), ?_⟩
  by_cases hfirst : 0 < n → PageCan d₁ env iova.pfnLo 0
  · have hall : ∀ k, 0 ≤ k → k < 0 + n → PageCan d₁ env iova.pfnLo k := fun k _ hk => by
      have hn : 0 < n := by omega
      exact hm hn (hfirst hn) k (by omega)
    obtain ⟨hdone, hacts⟩ := allocMapLoop_all (i := 0) pages hi hf ha.aligned (by omega) hall
    refine .inl ⟨hfirst, hdone, fun x hx => ?_⟩
    obtain ⟨p, page, rfl, h₁, h₂⟩ := hacts x hx
    rw [Nat.zero_add] at h₂
    exact ⟨p, page, rfl, (hmem p).mpr ⟨h₁, h₂⟩⟩
  · obtain ⟨hn, hno⟩ := Classical.not_imp.mp hfirst
    exact .inr (allocMapLoop_first hi hf ha.aligned (by omega) hno (by omega))

theorem AllocPath.ok (hpath : AllocPath d env size iova d' acts) (hi : Mmu.Inv d.mmu)
    (ha : EnvOk d env size) (hn : iova.pfnHi + 1 - iova.pfnLo = pageAlign64 size / 4096)
    (hmem : ∀ p, iova.Mem p ↔ iova.pfnLo ≤ p ∧ p < iova.pfnLo + pageAlign64 size / 4096)
    (hb : iova.pfnLo + pageAlign64 size / 4096 ≤ 2 ^ 20)
    (hm : Buffered env size → 0 < pageAlign64 size / 4096 → PageCan d env iova.pfnLo 0 →
      (∀ i < pageAlign64 size / 4096, PageCan d env iova.pfnLo i) ∧ env.vmap.isSome) :
    TableKept d.mmu d'.mmu ∧
      ∀ w : Watch, w.Ok → w.Unused iova → iova ∈ w.ranges → EndsIn reuse w acts Watch.Ok := by
  have hbuf := (allocBuffer_replay { d with iovad := iova :: d.iovad } env (pageAlign64 size)).2
  cases hpath with
  | noPages hno hbuf₁ =>
    rw [hbuf₁] at hbuf
    refine ⟨?_, fun w hok hun _ => .cons hun.allows (.nil (hok.freeIova hun))⟩
    show TableKept d.mmu _
    rw [hbuf]
    exact .refl hi
  | @buffer d₁ pages d₂ i v hfull hbuf₁ hloop =>
    rw [hbuf₁] at hbuf
    obtain ⟨htable, hend⟩ := allocMapLoop_meets (d := d) pages hbuf hi ha hmem hb
      fun h0 hc => (hm hfull h0 hc).1
    rw [hn] at hloop ⊢
    rw [hloop] at htable hend
    refine ⟨htable, fun w hok hun hr => ?_⟩
    rcases hend with ⟨-, -, hacts⟩ | ⟨-, hstop⟩
    · refine (EndsIn.of_invariant (I := fun w => w.Ok ∧ iova ∈ w.ranges) ⟨hok, hr⟩ ?_).imp
        fun w hI => hI.1
      rintro w x ⟨hok, hr⟩ hx
      obtain ⟨p, page, rfl, hp⟩ := hacts x hx
      exact ⟨trivial, hok.map hr hp page, hr⟩
    · simp at hstop
  | @back d₁ pages d₂ i mapped d₃ hfull hbuf₁ hloop hvmap hout =>
    rw [hbuf₁] at hbuf
    obtain ⟨htable, hend⟩ := allocMapLoop_meets (d := d) pages hbuf hi ha hmem hb
      fun h0 hc => (hm hfull h0 hc).1
    rw [hn] at hloop ⊢
    rw [hloop] at htable hend
    have hback := outUnmap_table _ _ htable.inv hout
    refine ⟨htable.trans hback, fun w hok hun hr => ?_⟩
    have hnothing : allocMapTrace env iova pages (pageAlign64 size / 4096) 0 d₁ = [] ∧ i = 0 := by
      rcases hend with ⟨h0, hmapped, -⟩ | ⟨hnil, hstop⟩
      · -- every page was mapped, so only a buffer of no pages has no `vmap` area
        have hv := hvmap hmapped
        by_cases hz : pageAlign64 size / 4096 = 0
        · rw [hz] at hloop ⊢
          simp only [allocMapLoop, Prod.mk.injEq] at hloop
          exact ⟨rfl, hloop.2.1.symm⟩
        · have hsome := (hm hfull (by omega) (h0 (by omega))).2
          rw [vmap, if_neg hz] at hv
          simp [hv] at hsome
      · exact ⟨hnil, (Prod.mk.inj hstop).1⟩
    obtain ⟨hnil, rfl⟩ := hnothing
    rw [hnil]
    exact hok.giveBack hun _

theorem dmaAlloc_ok (hi : Mmu.Inv d.mmu) (hap : d.mmu.apertureEnd < 2 ^ 32) (hw : w.Ok)
    (hranges : w.ranges = d.iovad) (ha : EnvOk d env size)
    (hm : Op.NothingUndone d (.alloc env size)) (hrun : ipu6DmaAlloc d env size = some (d', r)) :
    CallOk d w d' (dmaAllocTrace d env size) := by
  rcases dmaAlloc_cases hrun with ⟨rfl, htrace⟩ | ⟨lo, acts, hlo, htrace, hpath⟩
  · rw [htrace]
    exact .nothing hi hw
  · obtain ⟨hpos, hbound, hfree⟩ := ha.iova lo hlo
    obtain ⟨htable, hends⟩ := hpath.ok hi ha (by simp only; omega) (fun p => mem_iova hpos)
      (by simp only; omega) (hm lo hlo)
    have hnew : w.Unused ⟨lo, lo + pageAlign64 size / 4096 - 1⟩ := hw.unused fun p hp r hr => by
      rw [mem_iova hpos] at hp
      rw [hranges] at hr
      exact hfree p hp.1 hp.2 r hr
    rw [htrace]
    generalize (⟨lo, lo + pageAlign64 size / 4096 - 1⟩ : Iova) = iova at *
    refine ⟨htable, .cons trivial ?_⟩
    refine (allocBufferTrace_ends (I := fun w => w.Ok ∧ w.Unused iova ∧ iova ∈ w.ranges)
      (fun w hI => hI.1) ?_ _ _).append fun w₁ hI => hends w₁ hI.1 hI.2.1 hI.2.2
    exact ⟨hw.allocIova _, hnew, List.mem_cons_self⟩

theorem dmaFree_ok (hi : Mmu.Inv d.mmu) (hw : w.Ok) (hm : Op.NothingUndone d (.free size handle))
    (hrun : ipu6DmaFree d size handle = some d') : CallOk d w d' (dmaFreeTrace d size handle) := by
  rcases dmaFree_cases hrun with ⟨rfl, htrace⟩ | ⟨iova, info, maps, hiova, hinfo, hv, rfl, htrace⟩
  · rw [htrace]
    exact .nothing hi hw
  · rw [htrace, freeBufferTrace, hm iova info hiova hinfo hv]
    obtain ⟨⟨_, hrest⟩, hok⟩ := hw.unmapRange iova
    -- no page goes back between the two
    exact ⟨tableKept_mmuUnmap hi _ _, ⟨trivial, by simp [reuse, Watch.Allows], hrest⟩, hok⟩

theorem dmaUnmapSg_ok (hi : Mmu.Inv d.mmu) (hw : w.Ok)
    (hrun : ipu6DmaUnmapSg d sgl nents = some (d', sgl')) :
    CallOk d w d' (dmaUnmapSgTrace d sgl nents) := by
  rcases dmaUnmapSg_cases hrun with ⟨rfl, htrace⟩ | ⟨iova, p, -, rfl, htrace⟩
  · rw [htrace]
    exact .nothing hi hw
  · rw [htrace]
    exact ⟨tableKept_mmuUnmap hi _ _, hw.unmapRange iova⟩

theorem dmaMapSg_ok (hi : Mmu.Inv d.mmu) (hap : d.mmu.apertureEnd < 2 ^ 32) (hw : w.Ok)
    (hranges : w.ranges = d.iovad) (ha : SgEnvOk d env sgl)
    (hrun : ipu6DmaMapSg d env sgl = some (d', sgl', ret)) :
    CallOk d w d' (dmaMapSgTrace d env sgl) := by
  rcases dmaMapSg_cases hrun with ⟨-, rfl, htrace⟩ | ⟨lo, m, done, ok, acts, hlo, hrest⟩
  · rw [htrace]
    exact .nothing hi hw
  · obtain ⟨hrounds, htrace, hway⟩ := hrest
    obtain ⟨hpos, hbound, hfree⟩ := ha.iova lo hlo
    have hb : lo + npages sgl ≤ 2 ^ 20 := by omega
    have hmem : ∀ p, Iova.Mem p ⟨lo, lo + npages sgl - 1⟩ ↔ lo ≤ p ∧ p < lo + npages sgl :=
      fun p => mem_iova hpos
    have hacts := mapSgLoopTrace_within env sgl lo d.mmu hb
      fun p h₁ h₂ => (hmem p).mpr ⟨h₁, h₂⟩
    have hext := mapSgLoop_extends env hi ha.tables hb ha.phys
    rw [hrounds] at hext
    have hnew : w.Listed ⟨lo, lo + npages sgl - 1⟩ := by
      intro u hu hp
      obtain ⟨r, hr, hmem'⟩ := hw.live u hu
      rw [hranges] at hr
      exact absurd hmem' (hfree _ ((hmem _).mp hp).1 ((hmem _).mp hp).2 r hr)
    rw [htrace]
    generalize (⟨lo, lo + npages sgl - 1⟩ : Iova) = iova at *
    -- the entries in their own range, then the way back if one failed
    have hloop : EndsIn reuse (w.next (.allocIova iova)) (mapSgLoopTrace env sgl lo d.mmu)
        fun w => w.Ok ∧ w.Listed iova ∧ iova ∈ w.ranges :=
      .of_invariant ⟨hw.allocIova iova, hnew, List.mem_cons_self⟩ fun w a hI hx =>
        hI.1.within hI.2.1 hI.2.2 (hacts a hx)
    rcases hway with ⟨-, rfl, -, -, rfl⟩ | ⟨-, -, rfl, hun⟩
    · refine ⟨tableKept_of_extends hext, .cons trivial ?_⟩
      exact hloop.append fun w hI => .nil hI.1
    · have hback : ∀ w : Watch, w.Ok → CallOk _ w d' _ := fun w hok =>
        dmaUnmapSg_ok hext.inv hok hun
      exact ⟨(tableKept_of_extends hext).trans (hback _ hloop.2.1).table,
        .cons trivial (hloop.append fun w hI => (hback w hI.1).ends)⟩

theorem Op.ok (op : Op) (hi : Mmu.Inv d.mmu) (hap : d.mmu.apertureEnd < 2 ^ 32) (hw : w.Ok)
    (hranges : w.ranges = d.iovad) (ha : op.Answers d) (hm : op.NothingUndone d)
    (hrun : op.run d = some d') : CallOk d w d' (op.trace d) := by
  cases op with
  | alloc env size =>
    obtain ⟨⟨_, r⟩, hcall, rfl⟩ := Option.map_eq_some_iff.mp hrun
    exact dmaAlloc_ok hi hap hw hranges ha hm hcall
  | free size handle => exact dmaFree_ok hi hw hm hrun
  | mapSg env sgl =>
    obtain ⟨⟨_, sgl', ret⟩, hcall, rfl⟩ := Option.map_eq_some_iff.mp hrun
    exact dmaMapSg_ok hi hap hw hranges ha hcall
  | unmapSg sgl nents =>
    obtain ⟨⟨_, sgl'⟩, hcall, rfl⟩ := Option.map_eq_some_iff.mp hrun
    exact dmaUnmapSg_ok hi hw hcall

end

-- ---------------------------------------------------------------------------
-- Whole runs
-- ---------------------------------------------------------------------------

theorem after_ranges (w : Watch) (b : Balance Nat) (acts : List Act) :
    (after reuse w acts).ranges = (acts.foldl replay (b, w.ranges)).2 := by
  induction acts generalizing w b with
  | nil => rfl
  | cons a acts ih =>
    rw [after_cons, List.foldl_cons]
    cases a <;> exact ih ..

structure RunOk (w₀ : Watch) (s : Traced) : Prop where
  inv : Mmu.Inv s.d.mmu
  aperture : s.d.mmu.apertureEnd < 2 ^ 32
  ranges : (after reuse w₀ s.acts).ranges = s.d.iovad
  ends : EndsIn reuse w₀ s.acts Watch.Ok

theorem RunOk.step (h : RunOk w₀ s) (hm : op.NothingUndone s.d) (hs : Traced.Step s op s') :
    RunOk w₀ s' := by
  have hcall := op.ok h.inv h.aperture h.ends.2 h.ranges hs.answers hm hs.run
  refine ⟨hcall.table.inv, ?_, ?_, ?_⟩
  · rw [hcall.table.aperture]
    exact h.aperture
  · rw [hs.acts, after_append, after_ranges _ s.d.pages, h.ranges, op.run_replay hs.run]
  · rw [hs.acts]
    refine ⟨(clean_append ..).mpr ⟨h.ends.1, hcall.ends.1⟩, ?_⟩
    rw [after_append]
    exact hcall.ends.2

/-- In every run in which no allocation backs out of a mapping and no free has
pages, nothing is given back between the unmapping of a translation that used
it and the next invalidation. -/
theorem no_reuse_before_invalidate (h₀ : Begin d₀ w₀)
    (h : Reachable (· = ⟨d₀, []⟩) (fun s op s' => Traced.Step s op s' ∧ op.NothingUndone s.d) s) :
    Clean reuse w₀ s.acts := by
  have hinv : RunOk w₀ s := by
    refine h.invariant (fun s hs => ?_) fun s op s' hi hs => hi.step hs.2 hs.1
    subst hs
    refine ⟨h₀.inv, h₀.aperture, h₀.ranges, .nil ⟨?_, ?_, ?_⟩⟩
    · rw [h₀.ranges]
      exact h₀.live
    · simp [h₀.stale]
    · simp [h₀.stale]
  exact hinv.ends.1

def Traced.next (s : Traced) (op : Op) : Option Traced :=
  (op.run s.d).map fun d => ⟨d, s.acts ++ op.trace s.d⟩

theorem Traced.step_of_next {s s' : Traced} (h : s.next op = some s') (ha : op.Answers s.d) :
    Traced.Step s op s' := by
  obtain ⟨d, hrun, rfl⟩ := Option.map_eq_some_iff.mp h
  exact ⟨ha, hrun, rfl⟩

theorem begin_emptyStore : Begin emptyStore ⟨[], [], []⟩ :=
  ⟨start_emptyStore.inv, start_emptyStore.aperture, rfl, by simp, rfl⟩

/-- A scatter list of one page, mapped and unmapped again. -/
theorem no_reuse_before_invalidate_one_page :
    Clean reuse ⟨[], [], []⟩ [.allocIova ⟨1023, 1023⟩, .map 1023 none, .unmap 1023 1, .tlbInvalidate,
      .freeIova ⟨1023, 1023⟩] := by
  have hrun : ((Traced.next ⟨emptyStore, []⟩ (.mapSg (onePageEnv (some 1023)) onePage.sgl)).bind
      (·.next (.unmapSg [⟨0, 4096 * 1023, 4096⟩] 1))).map Traced.acts =
      some [.allocIova ⟨1023, 1023⟩, .map 1023 none, .unmap 1023 1, .tlbInvalidate,
        .freeIova ⟨1023, 1023⟩] := by
    decide +kernel
  obtain ⟨s₂, hrun, hacts⟩ := Option.map_eq_some_iff.mp hrun
  obtain ⟨s₁, h₁, h₂⟩ := Option.bind_eq_some_iff.mp hrun
  have hsg := sgOk_onePage (some 1023) (by simp)
  rw [← hacts]
  have hmap := Traced.step_of_next h₁ ⟨hsg.iova, hsg.tables, hsg.phys⟩
  have hunmap := Traced.step_of_next h₂ trivial
  exact no_reuse_before_invalidate begin_emptyStore
    (.step (.step (.init rfl) ⟨hmap, trivial⟩) ⟨hunmap, trivial⟩)

/-- Two pages on either side of the first 4 MiB boundary, of which the DMA
layer maps `mapped`. -/
def twoPagesEnv (mapped : Nat) : AllocEnv where
  kzalloc := true
  allocIova := some 1023
  kvzalloc := true
  allocPages := fun i order => if order = 0 then some (100 + i) else none
  dmaMapPage := fun i => if i < mapped then some (4096 * (50 + i)) else none
  tables := plainTables 2
  vmap := some 7

theorem envOk_twoPages (hm : mapped ≤ 2) : EnvOk emptyStore (twoPagesEnv mapped) 5000 := by
  have hplain : ∀ i b, (twoPagesEnv mapped).dmaMapPage i = some b → i < mapped ∧ b = 4096 * (50 + i) := by
    intro i b hb
    by_cases hi : i < mapped
    · simp only [twoPagesEnv, if_pos hi, Option.some.injEq] at hb
      exact ⟨hi, hb.symm⟩
    · simp [twoPagesEnv, hi] at hb
  refine ⟨fun lo hlo => ?_, fun k a ha => ?_, fresh_plainTables (by omega), fun vaddr hv => ?_⟩
  · obtain rfl : 1023 = lo := by simpa [twoPagesEnv] using hlo
    exact ⟨by decide, by decide, by simp [emptyStore]⟩
  · obtain ⟨hk, rfl⟩ := hplain k a ha
    refine ⟨by omega, by omega, rfl, fun j hj => ?_⟩
    have := (hplain j _ hj).2
    omega
  · obtain rfl : 7 = vaddr := by simpa [twoPagesEnv] using hv
    decide

def allocFreeActs : List Act :=
  [.allocIova ⟨1023, 1024⟩, .allocPages [100, 101], .map 1023 (some 100), .map 1024 (some 101),
    .unmap 1023 2, .freePages [100, 101], .tlbInvalidate, .freeIova ⟨1023, 1024⟩]

/-- What an allocation does whose second page cannot be mapped. -/
def allocBackActs : List Act :=
  [.allocIova ⟨1023, 1024⟩, .allocPages [100, 101], .map 1023 (some 100), .unmap 1023 1,
    .freePages [100, 101], .freeIova ⟨1023, 1024⟩]

/-- The pages of a freed buffer go back while the device may still hold their
translations, and so do page and range of an allocation that backs out. -/
theorem pages_reused_before_invalidate :
    (∃ s, Reachable (· = ⟨emptyStore, []⟩) Traced.Step s ∧ s.acts = allocFreeActs ∧
      ¬ Clean reuse ⟨[], [], []⟩ s.acts) ∧
    ∃ s, Reachable (· = ⟨emptyStore, []⟩) Traced.Step s ∧ s.acts = allocBackActs ∧
      ¬ Clean reuse ⟨[], [], []⟩ s.acts := by
  constructor
  · have hrun : ((Traced.next ⟨emptyStore, []⟩ (.alloc (twoPagesEnv 2) 5000)).bind
        (·.next (.free 5000 (4096 * 1023)))).map Traced.acts = some allocFreeActs := by
      decide +kernel
    obtain ⟨s₂, hrun, hacts⟩ := Option.map_eq_some_iff.mp hrun
    obtain ⟨s₁, h₁, h₂⟩ := Option.bind_eq_some_iff.mp hrun
    refine ⟨s₂, .step (.step (.init rfl) (Traced.step_of_next h₁ (envOk_twoPages (by omega))))
      (Traced.step_of_next h₂ trivial), hacts, ?_⟩
    rw [hacts]
    decide
  · have hrun : (Traced.next ⟨emptyStore, []⟩ (.alloc (twoPagesEnv 1) 5000)).map Traced.acts =
        some allocBackActs := by
      decide +kernel
    obtain ⟨s₁, hrun, hacts⟩ := Option.map_eq_some_iff.mp hrun
    refine ⟨s₁, .step (.init rfl) (Traced.step_of_next hrun (envOk_twoPages (by omega))), hacts, ?_⟩
    rw [hacts]
    decide

end Ipu4.Dma
