import Ipu4.Dma.Reuse
import Ipu4.Mmu.Tables

/-!
# Ranges over whole runs

What a run of `ipu6_dma_alloc`, `ipu6_dma_free`, `ipu6_dma_map_sg` and
`ipu6_dma_unmap_sg` keeps, whatever it calls them with: pages outside the
ranges of the IOVA domain are not mapped, and a range is mapped from its front.
-/

namespace Ipu4.Dma

open Mmu Overlay
open Runs (Reachable)

-- ---------------------------------------------------------------------------
-- The invariant
-- ---------------------------------------------------------------------------

/-- The pages of the range have tables up to some page, and are not mapped from
there on. -/
def Fronted (m : MmuInfo) (r : Iova) : Prop :=
  ∃ t, ∀ p, r.Mem p →
    (p < t → (m.l2Pts (p / 1024)).isSome) ∧ (t ≤ p → translate m p = m.dummyPagePteval)

structure Domain (d : Ipu6Mmu) : Prop where
  inv : Mmu.Inv d.mmu
  aperture : d.mmu.apertureEnd < 2 ^ 32
  bound : ∀ r ∈ d.iovad, r.pfnHi < 2 ^ 20
  disjoint : d.iovad.Pairwise Iova.Disjoint
  free : ∀ p, (∀ r ∈ d.iovad, ¬ r.Mem p) → translate d.mmu p = d.mmu.dummyPagePteval
  fronted : ∀ r ∈ d.iovad, Fronted d.mmu r

/-- Where a run may start: the domain may have ranges already, the trash
buffer's. -/
structure Begun (d : Ipu6Mmu) : Prop extends Start d where
  slots : ∀ k ≥ 1024, d.mmu.l2Pts k = none
  bound : ∀ r ∈ d.iovad, r.pfnHi < 2 ^ 20
  fronted : ∀ r ∈ d.iovad, Fronted d.mmu r

/-- A call that returns, with answers the kernel can give. -/
structure Calls (d : Ipu6Mmu) (op : Op) (d' : Ipu6Mmu) : Prop where
  answers : op.Answers d
  run : op.run d = some d'

/-- The pages of the ranges are mapped as they were, or not at all. -/
structure Carried (d d' : Ipu6Mmu) : Prop where
  domain : Domain d'
  dummyPage : d'.mmu.dummyPagePteval = d.mmu.dummyPagePteval
  kills : ∀ r ∈ d.iovad, ∀ p, r.Mem p →
    translate d'.mmu p = translate d.mmu p ∨ translate d'.mmu p = d.mmu.dummyPagePteval

section
variable {d d' : Ipu6Mmu}

theorem Carried.refl (h : Domain d) : Carried d d := ⟨h, rfl, fun _ _ _ _ => .inl rfl⟩

theorem Carried.trans {d'' : Ipu6Mmu} (h : Carried d d') (h' : Carried d' d'')
    (hsub : ∀ r ∈ d.iovad, r ∈ d'.iovad) : Carried d d'' := by
  refine ⟨h'.domain, h'.dummyPage.trans h.dummyPage, fun r hr p hp => ?_⟩
  rcases h'.kills r (hsub r hr) p hp with hsame | hlost
  · exact (h.kills r hr p hp).imp hsame.trans hsame.trans
  · exact .inr (hlost.trans h.dummyPage)

/-- Translations are as they were or of the dummy page. -/
def Kills (m m' : MmuInfo) : Prop :=
  ∀ p, translate m' p = translate m p ∨ translate m' p = m.dummyPagePteval

theorem Fronted.of_kills (h : Fronted m r) (hk : Kept m m') (hkill : Kills m m') : Fronted m' r := by
  obtain ⟨t, ht⟩ := h
  refine ⟨t, fun p hp => ⟨fun hlt => ?_, fun hle => ?_⟩⟩
  · rw [hk.isSome]
    exact (ht p hp).1 hlt
  · rw [hk.dummyPage]
    exact (hkill p).elim (fun hsame => hsame.trans ((ht p hp).2 hle)) id

theorem Fronted.of_extends (h : Fronted m r) (hext : Extends env m m')
    (hsame : ∀ p, r.Mem p → translate m' p = translate m p) : Fronted m' r := by
  obtain ⟨t, ht⟩ := h
  refine ⟨t, fun p hp => ⟨fun hlt => hext.tables _ ((ht p hp).1 hlt), fun hle => ?_⟩⟩
  rw [hsame p hp, hext.dummyPage]
  exact (ht p hp).2 hle

theorem Fronted.unmap (h : Fronted m r) (hi : Mmu.Inv m) (hb : r.pfnHi < 2 ^ 20) (hq : r.Mem q) :
    Kills m (ipu6MmuUnmap m (4096 * r.pfnLo) (4096 * (r.pfnHi + 1 - r.pfnLo))) ∧
    (∀ p, r.Mem p → translate (ipu6MmuUnmap m (4096 * r.pfnLo)
      (4096 * (r.pfnHi + 1 - r.pfnLo))) p = m.dummyPagePteval) ∧
    Kept m (ipu6MmuUnmap m (4096 * r.pfnLo) (4096 * (r.pfnHi + 1 - r.pfnLo))) := by
  obtain ⟨t, ht⟩ := h
  obtain ⟨hqlo, hqhi⟩ := hq
  have hs : r.pfnLo + (r.pfnHi + 1 - r.pfnLo) ≤ 2 ^ 20 := by omega
  obtain ⟨hdummy, hor, hk⟩ := mmuUnmap_prefix (t := min (t - r.pfnLo) (r.pfnHi + 1 - r.pfnLo)) hi hs
    (by omega) fun k hkt => (ht _ ⟨by omega, by omega⟩).1 (by omega)
  refine ⟨hor, fun p hp => ?_, hk⟩
  obtain ⟨hlo, hhi⟩ := id hp
  rcases Nat.lt_or_ge p t with hlt | hle
  · have hin := hdummy (p - r.pfnLo) (by omega)
    rwa [Nat.add_sub_cancel' hlo] at hin
  · exact (hor p).elim (fun hsame => hsame.trans ((ht p hp).2 hle)) id

-- ---------------------------------------------------------------------------
-- A range goes, a range comes
-- ---------------------------------------------------------------------------

theorem findIova_some (h : findIova iovad p = some r) : r ∈ iovad ∧ r.Mem p :=
  ⟨List.mem_of_find?_eq_some h, by simpa [Iova.Mem] using List.find?_some h⟩

theorem Domain.drop (h : Domain d) (hr : r ∈ d.iovad) (hq : r.Mem q)
    (hmmu : d'.mmu = ipu6MmuUnmap d.mmu (4096 * r.pfnLo) (4096 * (r.pfnHi + 1 - r.pfnLo)))
    (hiovad : d'.iovad = d.iovad.erase r) : Carried d d' := by
  obtain ⟨hkill, hdummy, hk⟩ := (h.fronted r hr).unmap h.inv (h.bound r hr) hq
  rw [← hmmu] at hkill hdummy hk
  have hmem : ∀ r' ∈ d'.iovad, r' ∈ d.iovad := fun r' hr' =>
    List.mem_of_mem_erase (by rwa [hiovad] at hr')
  refine ⟨⟨hk.inv h.inv, hk.aperture ▸ h.aperture, fun r' hr' => h.bound r' (hmem r' hr'), ?_,
    fun p hp => ?_, fun r' hr' => (h.fronted r' (hmem r' hr')).of_kills hk hkill⟩, hk.dummyPage,
    fun _ _ p _ => hkill p⟩
  · rw [hiovad]
    exact h.disjoint.erase r
  · rw [hk.dummyPage]
    by_cases hin : r.Mem p
    · exact hdummy p hin
    · have hfree := h.free p fun r' hr' hpr => by
        have hne : r' ≠ r := by
          rintro rfl
          exact hin hpr
        refine hp r' ?_ hpr
        rw [hiovad]
        exact (List.mem_erase_of_ne hne).mpr hr'
      exact (hkill p).elim (fun hsame => hsame.trans hfree) id

theorem Domain.add (h : Domain d) (hext : Extends env d.mmu d'.mmu) (hiovad : d'.iovad = r :: d.iovad)
    (hb : r.pfnHi < 2 ^ 20) (hdis : ∀ r' ∈ d.iovad, r.Disjoint r')
    (hout : ∀ p, ¬ r.Mem p → translate d'.mmu p = translate d.mmu p) (hf : Fronted d'.mmu r) :
    Carried d d' := by
  refine ⟨⟨hext.inv, hext.aperture ▸ h.aperture, ?_, ?_, fun p hp => ?_, ?_⟩, hext.dummyPage,
    fun r' hr' p hp => .inl (hout p fun hpr => hdis r' hr' p hpr hp)⟩
  · rw [hiovad]
    exact List.forall_mem_cons.mpr ⟨hb, h.bound⟩
  · rw [hiovad]
    exact List.pairwise_cons.mpr ⟨hdis, h.disjoint⟩
  · rw [hiovad] at hp
    obtain ⟨hr, hrest⟩ := List.forall_mem_cons.mp hp
    rw [hout p hr, hext.dummyPage]
    exact h.free p hrest
  · rw [hiovad]
    refine List.forall_mem_cons.mpr ⟨hf, fun r' hr' => (h.fronted r' hr').of_extends hext ?_⟩
    exact fun p hp => hout p fun hpr => hdis r' hr' p hpr hp

theorem Domain.same (h : Domain d) (hext : Extends env d.mmu d'.mmu) (hiovad : d'.iovad = d.iovad)
    (htr : translate d'.mmu = translate d.mmu) : Carried d d' := by
  refine ⟨⟨hext.inv, hext.aperture ▸ h.aperture, ?_, ?_, fun p hp => ?_, ?_⟩, hext.dummyPage,
    fun _ _ p _ => .inl (congrFun htr p)⟩
  · rw [hiovad]
    exact h.bound
  · rw [hiovad]
    exact h.disjoint
  · rw [hiovad] at hp
    rw [htr, hext.dummyPage]
    exact h.free p hp
  · rw [hiovad]
    exact fun r hr => (h.fronted r hr).of_extends hext fun p _ => congrFun htr p

-- ---------------------------------------------------------------------------
-- The four functions
-- ---------------------------------------------------------------------------

theorem Domain.unmapSg (h : Domain d) (hrun : ipu6DmaUnmapSg d sgl nents = some (d', sgl')) :
    Carried d d' := by
  rcases dmaUnmapSg_cases hrun with ⟨rfl, -⟩ | ⟨r, p, hfind, rfl, -⟩
  · exact .refl h
  · obtain ⟨hr, hq⟩ := findIova_some hfind
    exact h.drop hr hq rfl rfl

theorem Domain.dmaFree (h : Domain d) (hrun : ipu6DmaFree d size handle = some d') :
    Carried d d' := by
  rcases dmaFree_cases hrun with ⟨rfl, -⟩ | ⟨r, info, maps, hfind, -, -, rfl, -⟩
  · exact .refl h
  · obtain ⟨hr, hq⟩ := findIova_some hfind
    exact h.drop hr hq rfl rfl

theorem Domain.disjoint_of_free {lo n : Nat} (h : Domain d)
    (hbound : lo + n ≤ d.mmu.apertureEnd / 4096 + 1) (hpos : 1 ≤ lo)
    (hfree : ∀ p, lo ≤ p → p < lo + n → ∀ r ∈ d.iovad, ¬ r.Mem p) :
    lo + n ≤ 2 ^ 20 ∧ lo + n - 1 < 2 ^ 20 ∧ ∀ r ∈ d.iovad, Iova.Disjoint ⟨lo, lo + n - 1⟩ r := by
  have hap := h.aperture
  refine ⟨by omega, by omega, fun r hr p hp => ?_⟩
  rw [mem_iova hpos] at hp
  exact hfree p hp.1 hp.2 r hr

/-- The range that the allocator gave for a list, and how far the loop over the
entries has come in it. -/
structure Placing (d : Ipu6Mmu) (env : SgEnv) (sgl : List Sg) (lo : Nat) (m : MmuInfo) (done : List Sg)
    (ok : Bool) : Prop where
  loop : mapSgLoop env sgl lo d.mmu = (m, done, ok)
  pos : 1 ≤ lo
  bound : lo + npages sgl ≤ 2 ^ 20
  last : lo + npages sgl - 1 < 2 ^ 20
  apart : ∀ r ∈ d.iovad, Iova.Disjoint ⟨lo, lo + npages sgl - 1⟩ r
  free : ∀ p, lo ≤ p → p < lo + npages sgl → ∀ r ∈ d.iovad, ¬ r.Mem p
  ext : Extends env.tables d.mmu m
  placed : Placed m lo sgl done
  rest : ∀ p, ¬ (lo ≤ p ∧ p < lo + npages (sgl.take done.length)) → translate m p = translate d.mmu p
  all : ok = true → done.length = sgl.length

theorem Domain.placing (h : Domain d) (ha : SgEnvOk d env sgl) (hlo : env.allocIova = some lo) :
    ∃ m done ok, Placing d env sgl lo m done ok := by
  obtain ⟨hpos, hbound, hfree⟩ := ha.iova lo hlo
  obtain ⟨hb, hhi, hdis⟩ := h.disjoint_of_free hbound hpos hfree
  obtain ⟨m, done, ok, hloop, hext, hplaced, hout, hall, -⟩ := mapSgLoop_spec h.inv ha.tables
    ⟨hpos, hb, ha.phys⟩ fun k hk => h.free _ (hfree _ (by omega) (by omega))
  exact ⟨m, done, ok, hloop, hpos, hb, hhi, hdis, hfree, hext, hplaced, hout, hall⟩

theorem Placing.carried (hp : Placing d env sgl lo m done ok) (h : Domain d) :
    Carried d { d with mmu := m, iovad := ⟨lo, lo + npages sgl - 1⟩ :: d.iovad } := by
  have hle := npages_take_le done.length sgl
  refine h.add hp.ext rfl hp.last hp.apart (fun p hout => hp.rest p ?_)
    ⟨lo + npages (sgl.take done.length), fun p hin => ⟨fun hlt => ?_, fun hge => ?_⟩⟩
  · rw [mem_iova hp.pos] at hout
    omega
  · rw [mem_iova hp.pos] at hin
    have htab := hp.placed.tables (k := p - lo) (by omega)
    rwa [Nat.add_sub_cancel' hin.1] at htab
  · rw [mem_iova hp.pos] at hin
    show translate m p = m.dummyPagePteval
    rw [hp.rest p (by omega), hp.ext.dummyPage]
    exact h.free p (hp.free p hin.1 hin.2)

/-- A call turns the list down, finds no range for it, maps the whole list, or goes
back from the entry at which the loop has stopped. -/
theorem mapSg_cases (h : Domain d) (ha : SgEnvOk d env sgl)
    (hrun : ipu6DmaMapSg d env sgl = some (d', sgl', ret)) :
    ((∃ e ∈ sgl, e.offset ≠ 0) ∧ d' = d ∧ ret = -EFAULT) ∨
    (env.allocIova = none ∧ d' = d ∧ ret = 0) ∨ ∃ lo m done, env.allocIova = some lo ∧
      (Placing d env sgl lo m done true ∧ sgl' = done ∧ ret = sgl.length ∧
          d' = { d with mmu := m, iovad := ⟨lo, lo + npages sgl - 1⟩ :: d.iovad } ∨
        Placing d env sgl lo m done false ∧ ret = 0 ∧
          ipu6DmaUnmapSg { d with mmu := m, iovad := ⟨lo, lo + npages sgl - 1⟩ :: d.iovad }
            (done ++ sgl.drop done.length) done.length = some (d', sgl')) := by
  rcases dmaMapSg_cases hrun with ⟨hstop, rfl, -⟩ | ⟨lo, m, done, ok, acts, hlo, hloop, -, hway⟩
  · rcases hstop with ⟨hoffset, rfl⟩ | ⟨hnone, rfl⟩
    · exact .inl ⟨hoffset, rfl, rfl⟩
    · exact .inr (.inl ⟨hnone, rfl, rfl⟩)
  · obtain ⟨m', done', ok', hp⟩ := h.placing ha hlo
    obtain ⟨rfl, rfl, rfl⟩ : m' = m ∧ done' = done ∧ ok' = ok := by
      simpa only [Prod.mk.injEq] using hp.loop.symm.trans hloop
    refine .inr (.inr ⟨lo, m', done', hlo, ?_⟩)
    rcases hway with ⟨rfl, -, rfl, rfl, rfl⟩ | ⟨rfl, rfl, -, hun⟩
    · exact .inl ⟨hp, rfl, rfl, rfl⟩
    · exact .inr ⟨hp, rfl, hun⟩

theorem Domain.mapSg (h : Domain d) (ha : SgEnvOk d env sgl)
    (hrun : ipu6DmaMapSg d env sgl = some (d', sgl', ret)) : Carried d d' := by
  rcases mapSg_cases h ha hrun with ⟨-, rfl, -⟩ | ⟨-, rfl, -⟩ |
    ⟨lo, m, done, -, ⟨hp, -, -, rfl⟩ | ⟨hp, -, hun⟩⟩
  · exact .refl h
  · exact .refl h
  · exact hp.carried h
  · have hmid := hp.carried h
    exact hmid.trans (hmid.domain.unmapSg hun) fun r hr => List.mem_cons_of_mem _ hr

theorem Domain.allocLoop {d d₁ d₂ : Ipu6Mmu} {n : Nat} (h : Domain d) (htables : Fresh d.mmu env.tables)
    (hdma : DmaFresh d env) (hpos : 1 ≤ lo) (hb : lo + n ≤ 2 ^ 20)
    (hun : ∀ k < n, translate d.mmu (lo + k) = d.mmu.dummyPagePteval)
    (hbuf : allocBuffer { d with iovad := ⟨lo, lo + n - 1⟩ :: d.iovad } env size = (d₁, some pages))
    (hloop : allocMapLoop env ⟨lo, lo + n - 1⟩ pages (lo + n - 1 + 1 - lo) 0 d₁ = (d₂, i, mapped)) :
    Partial env lo pages (d.reserve ⟨lo, lo + n - 1⟩ pages) i d₂ ∧ i ≤ n ∧ (mapped = true → i = n) := by
  have hrounds : lo + n - 1 + 1 - lo = n := by omega
  rcases allocBuffer_cases { d with iovad := ⟨lo, lo + n - 1⟩ :: d.iovad } env size with
    heq | ⟨pages', -, heq⟩
  · rw [heq] at hbuf
    cases hbuf
  · rw [heq] at hbuf
    obtain ⟨rfl, hpages⟩ := Prod.mk.inj hbuf
    obtain rfl := Option.some.inj hpages
    have hzero : Partial env lo pages' (d.reserve ⟨lo, lo + n - 1⟩ pages') 0
        (d.reserve ⟨lo, lo + n - 1⟩ pages') := .zero h.inv htables
    obtain ⟨d₂', t, ok, hrun, hpart, ht, hall⟩ := allocMapLoop_spec (n := n) (lo + n - 1) hzero hdma
      (by omega) fun k hk => hun k (by omega)
    change allocMapLoop env _ pages' _ 0 (d.reserve ⟨lo, lo + n - 1⟩ pages') = _ at hloop
    rw [hrounds, hrun] at hloop
    obtain ⟨rfl, hrest⟩ := Prod.mk.inj hloop
    obtain ⟨rfl, rfl⟩ := Prod.mk.inj hrest
    rw [Nat.zero_add] at ht hall
    exact ⟨hpart, ht, hall⟩

theorem Domain.dmaAlloc (h : Domain d) (ha : EnvOk d env size)
    (hrun : ipu6DmaAlloc d env size = some (d', r)) : Carried d d' := by
  rcases dmaAlloc_cases hrun with ⟨rfl, -⟩ | ⟨lo, acts, hlo, -, hpath⟩
  · exact .refl h
  · obtain ⟨hpos, hbound, hfree⟩ := ha.iova lo hlo
    obtain ⟨hb, hhi, hdis⟩ := h.disjoint_of_free hbound hpos hfree
    generalize hn : pageAlign64 size / 4096 = n at *
    have hun : ∀ k < n, translate d.mmu (lo + k) = d.mmu.dummyPagePteval := fun k hk =>
      h.free _ (hfree _ (by omega) (by omega))
    cases hpath with
    | noPages hno hbuf =>
      rcases allocBuffer_cases { d with iovad := ⟨lo, lo + n - 1⟩ :: d.iovad } env (pageAlign64 size)
        with heq | ⟨pages, -, heq⟩ <;> rw [heq] at hbuf
      · obtain ⟨rfl, -⟩ := Prod.mk.inj hbuf
        exact h.same (.refl h.inv ha.tables) (List.erase_cons_head ..) rfl
      · simp at hbuf
    | @buffer d₁ pages d₂ i v _ hbuf hloop =>
      obtain ⟨hpart, -, hall⟩ := h.allocLoop ha.tables ha.dma hpos hb hun hbuf hloop
      obtain rfl : i = n := hall rfl
      refine h.add hpart.ext hpart.iovad hhi hdis (fun p hp => ?_) ⟨lo + i, fun p hp => ?_⟩
      · rw [mem_iova hpos] at hp
        show translate d₂.mmu p = _
        rw [hpart.tr, overlay_of_not_mem hp]
        rfl
      · rw [mem_iova hpos] at hp
        have htab := hpart.tables (p - lo) (by omega)
        rw [Nat.add_sub_cancel' hp.1] at htab
        exact ⟨fun _ => htab, fun hge => by omega⟩
    | @back d₁ pages d₂ i mapped d₃ _ hbuf hloop _ hout =>
      obtain ⟨hpart, hi, -⟩ := h.allocLoop ha.tables ha.dma hpos hb hun hbuf hloop
      obtain ⟨d₃', hrun₃, hback⟩ := outUnmap_spec (lo + n - 1) hpart ha.dma (by omega)
        fun k hk => hun k (by omega)
      obtain rfl := Option.some.inj (hrun₃.symm.trans hout)
      refine h.same hback.ext ?_ ?_
      · show d₃'.iovad.erase _ = d.iovad
        rw [hback.iovad]
        exact List.erase_cons_head ..
      · show translate d₃'.mmu = _
        rw [hback.tr, overlay_zero]
        rfl

theorem Domain.call (h : Domain d) (hc : Calls d op d') : Carried d d' := by
  obtain ⟨ha, hrun⟩ := hc
  cases op with
  | alloc env size =>
    obtain ⟨⟨_, r⟩, hcall, rfl⟩ := Option.map_eq_some_iff.mp hrun
    exact h.dmaAlloc ha hcall
  | free size handle => exact h.dmaFree hrun
  | mapSg env sgl =>
    obtain ⟨⟨_, sgl', ret⟩, hcall, rfl⟩ := Option.map_eq_some_iff.mp hrun
    exact h.mapSg ha hcall
  | unmapSg sgl nents =>
    obtain ⟨⟨_, sgl'⟩, hcall, rfl⟩ := Option.map_eq_some_iff.mp hrun
    exact h.unmapSg hcall

theorem Begun.domain (h : Begun d) : Domain d :=
  ⟨h.inv, h.aperture, h.bound, h.disjoint, h.free, h.fronted⟩

theorem domain_reachable (h : Reachable Begun Calls d) : Domain d :=
  h.invariant (fun _ => Begun.domain) fun _ _ _ hd hc => (hd.call hc).domain

-- ---------------------------------------------------------------------------
-- What the calls of the MMU keep
-- ---------------------------------------------------------------------------

/-- `ipu6_mmu_map` and `ipu6_mmu_unmap` keep `P`. -/
structure Keeps (P : MmuInfo → Prop) : Prop where
  map : ∀ m env iova paddr size, P m → P (ipu6MmuMap m env iova paddr size).1
  unmap : ∀ m iova size, P m → P (ipu6MmuUnmap m iova size)

variable {P : MmuInfo → Prop}

theorem Keeps.mapSgLoop (hk : Keeps P) (env : SgEnv) (sgl : List Sg) (a : Nat) (h : P m) :
    P (mapSgLoop env sgl a m).1 := by
  induction sgl generalizing a m with
  | nil => exact h
  | cons e es ih =>
    have hmap := hk.map m env.tables (4096 * a) e.dmaAddress (pageAlign32 e.dmaLen) h
    simp only [Dma.mapSgLoop]
    generalize ipu6MmuMap m env.tables (4096 * a) e.dmaAddress (pageAlign32 e.dmaLen) = r at hmap
    obtain ⟨m₁, _ | err⟩ := r
    · exact ih _ hmap
    · exact hmap

theorem Keeps.allocMapLoop (hk : Keeps P) (env : AllocEnv) (r : Iova) (pages : List Nat) (n i : Nat)
    (h : P d.mmu) : P (allocMapLoop env r pages n i d).1.mmu := by
  induction n generalizing i d with
  | zero => exact h
  | succ n ih =>
    simp only [Dma.allocMapLoop]
    cases env.dmaMapPage i with
    | none => exact h
    | some a =>
      have hmap := hk.map d.mmu env.tables (4096 * (r.pfnLo + i)) a 4096 h
      simp only [Ipu6Mmu.mapPage]
      generalize ipu6MmuMap d.mmu env.tables (4096 * (r.pfnLo + i)) a 4096 = x at hmap
      obtain ⟨m₁, _ | err⟩ := x
      · exact ih (d := { d.mapPage (pages.getD i 0) a with mmu := m₁ }) _ hmap
      · exact hmap

theorem Keeps.outUnmap (hk : Keeps P) (h : P d.mmu) (hrun : outUnmap r i d = some d') : P d'.mmu := by
  induction i generalizing d with
  | zero => exact Option.some.inj hrun ▸ h
  | succ i ih =>
    simp only [Dma.outUnmap, Option.bind_eq_bind, Option.bind_eq_some_iff] at hrun
    obtain ⟨x, -, hrun⟩ := hrun
    exact ih (hk.unmap _ _ _ h) hrun

theorem Keeps.unmapSg (hk : Keeps P) (h : P d.mmu)
    (hrun : ipu6DmaUnmapSg d sgl nents = some (d', sgl')) : P d'.mmu := by
  rcases dmaUnmapSg_cases hrun with ⟨rfl, -⟩ | ⟨r, p, -, rfl, -⟩
  · exact h
  · exact hk.unmap _ _ _ h

theorem Keeps.call (hk : Keeps P) (h : P d.mmu) (hc : Calls d op d') : P d'.mmu := by
  obtain ⟨-, hrun⟩ := hc
  cases op with
  | alloc env size =>
    obtain ⟨⟨_, x⟩, hcall, rfl⟩ := Option.map_eq_some_iff.mp hrun
    rcases dmaAlloc_cases hcall with ⟨rfl, -⟩ | ⟨lo, acts, -, -, hpath⟩
    · exact h
    · have hbuffer := allocBuffer_cases { d with
        iovad := ⟨lo, lo + pageAlign64 size / 4096 - 1⟩ :: d.iovad } env (pageAlign64 size)
      cases hpath with
      | noPages _ hbuf =>
        rcases hbuffer with heq | ⟨_, -, heq⟩ <;>
          obtain ⟨rfl, -⟩ := Prod.mk.inj (heq.symm.trans hbuf) <;> exact h
      | buffer _ hbuf hloop =>
        have hmmu := congrArg (·.1.mmu) hloop
        rcases hbuffer with heq | ⟨_, -, heq⟩ <;>
          obtain ⟨rfl, -⟩ := Prod.mk.inj (heq.symm.trans hbuf) <;>
          exact hmmu ▸ hk.allocMapLoop _ _ _ _ _ h
      | @back d₁ pages d₂ i mapped d₃ _ hbuf hloop _ hout =>
        have hmmu := congrArg (·.1.mmu) hloop
        show P d₃.mmu
        refine hk.outUnmap ?_ hout
        rcases hbuffer with heq | ⟨_, -, heq⟩ <;>
          obtain ⟨rfl, -⟩ := Prod.mk.inj (heq.symm.trans hbuf) <;>
          exact hmmu ▸ hk.allocMapLoop _ _ _ _ _ h
  | free size handle =>
    rcases dmaFree_cases hrun with ⟨rfl, -⟩ | ⟨r, info, maps, -, -, -, rfl, -⟩
    · exact h
    · exact hk.unmap _ _ _ h
  | mapSg env sgl =>
    obtain ⟨⟨_, sgl', ret⟩, hcall, rfl⟩ := Option.map_eq_some_iff.mp hrun
    rcases dmaMapSg_cases hcall with ⟨-, rfl, -⟩ | ⟨lo, m, done, ok, acts, -, hrounds, -, hway⟩
    · exact h
    · have hloop := hk.mapSgLoop env sgl lo h
      rw [hrounds] at hloop
      rcases hway with ⟨-, -, -, -, rfl⟩ | ⟨-, -, -, hun⟩
      · exact hloop
      · exact hk.unmapSg (d := { d with mmu := m, iovad := ⟨lo, lo + npages sgl - 1⟩ :: d.iovad })
          hloop hun
  | unmapSg sgl nents =>
    obtain ⟨⟨_, sgl'⟩, hcall, rfl⟩ := Option.map_eq_some_iff.mp hrun
    exact hk.unmapSg h hcall

theorem keeps_past (hk : 1024 ≤ k) : Keeps fun m => m.l2Pts k = none :=
  ⟨fun m env iova paddr size => mmuMap_past m env iova paddr size hk,
    fun m iova size => ((written_mmuUnmap m iova size).kept.none_iff k).mpr⟩

theorem slots_reachable (h : Reachable Begun Calls d) (hk : 1024 ≤ k) : d.mmu.l2Pts k = none :=
  h.invariant (fun _ hb => hb.slots k hk) fun _ _ _ hs hc => (keeps_past hk).call hs hc

end

end Ipu4.Dma
