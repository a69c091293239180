import Mathlib.Data.List.Pairwise
import Ipu4.Lib.Runs
import Ipu4.Dma.Loops

/-!
# The store of DMA buffers

The buffers of one MMU over whole runs of `ipu6_dma_alloc` and
`ipu6_dma_free`. The invariant `Store d₀ d` ties the buffer list, the IOVA
domain, the page table and both ledgers of a state to those of the state the
run started from: they differ by the live buffers and nothing else.
-/

namespace Ipu4.Dma

open Mmu Ledger Overlay
open Runs (Reachable)

-- ---------------------------------------------------------------------------
-- Ranges
-- ---------------------------------------------------------------------------

def Iova.Disjoint (r r' : Iova) : Prop := ∀ p, r.Mem p → ¬ r'.Mem p

theorem Iova.Disjoint.symm {r r' : Iova} (h : r.Disjoint r') : r'.Disjoint r :=
  fun p hp hp' => h p hp' hp

instance : Std.Symm Iova.Disjoint := ⟨fun _ _ h => h.symm⟩

namespace VmInfo

def page (v : VmInfo) : Nat := v.ipu6Iova / 4096
def count (v : VmInfo) : Nat := v.size / 4096

/-- The range of the buffer in the IOVA domain. -/
def iova (v : VmInfo) : Iova := ⟨v.page, v.page + v.count - 1⟩

/-- The DMA addresses the pages of the buffer translate to. -/
def addrs (m : MmuInfo) (v : VmInfo) : List Nat :=
  (List.range v.count).map fun k => 4096 * translate m (v.page + k)

/-- A buffer of whole pages, at least one, inside the 32-bit space. -/
structure Ok (v : VmInfo) : Prop where
  aligned : v.ipu6Iova = 4096 * v.page
  size : v.size = 4096 * v.count
  nonempty : 0 < v.count
  bound : v.page + v.count ≤ 2 ^ 20
  pages : v.pages.length = v.count
  vaddr : v.vaddr ≠ 0

theorem Ok.mem_iova {v : VmInfo} (h : v.Ok) (p : Nat) :
    v.iova.Mem p ↔ v.page ≤ p ∧ p < v.page + v.count := by
  have hpos := h.nonempty
  simp only [Iova.Mem, iova]
  omega

end VmInfo

-- ---------------------------------------------------------------------------
-- The invariant
-- ---------------------------------------------------------------------------

structure Store (d₀ d : Ipu6Mmu) : Prop where
  inv : Mmu.Inv d.mmu
  dummy : d.mmu.dummyPagePteval = d₀.mmu.dummyPagePteval
  aperture : d.mmu.apertureEnd = d₀.mmu.apertureEnd
  ok : ∀ v ∈ d.vmaList, v.Ok
  iovad : d.iovad.Perm (d.vmaList.map VmInfo.iova ++ d₀.iovad)
  disjoint : d.iovad.Pairwise Iova.Disjoint
  tables : ∀ v ∈ d.vmaList, ∀ k < v.count, (d.mmu.l2Pts ((v.page + k) / 1024)).isSome
  home : ∀ v ∈ d.vmaList, ∀ k < v.count,
    d.pageAt (4096 * translate d.mmu (v.page + k)) = v.pages.getD k 0
  rest : ∀ p, (∀ v ∈ d.vmaList, ¬ v.iova.Mem p) → translate d.mmu p = translate d₀.mmu p
  pages : d.pages = acquire d₀.pages (d.vmaList.flatMap VmInfo.pages)
  maps : d.maps = acquire d₀.maps (d.vmaList.flatMap (VmInfo.addrs d.mmu))

/-- Where a run may start: no buffers yet, an address space of at most 32
bits, and nothing mapped outside the ranges of the IOVA domain. -/
structure Start (d : Ipu6Mmu) : Prop where
  inv : Mmu.Inv d.mmu
  aperture : d.mmu.apertureEnd < 2 ^ 32
  vmaList : d.vmaList = []
  disjoint : d.iovad.Pairwise Iova.Disjoint
  free : ∀ p, (∀ r ∈ d.iovad, ¬ r.Mem p) → translate d.mmu p = d.mmu.dummyPagePteval
  maps : ∀ a, 0 ≤ d.maps a

theorem Start.store (h : Start d) : Store d d where
  inv := h.inv
  dummy := rfl
  aperture := rfl
  ok := by simp [h.vmaList]
  iovad := by simp [h.vmaList]
  disjoint := h.disjoint
  tables := by simp [h.vmaList]
  home := by simp [h.vmaList]
  rest := fun _ _ => rfl
  pages := by simp [h.vmaList]
  maps := by simp [h.vmaList]

section
variable {d₀ d d' : Ipu6Mmu}

theorem Store.iova_mem (h : Store d₀ d) (hv : v ∈ d.vmaList) : v.iova ∈ d.iovad :=
  h.iovad.mem_iff.mpr (List.mem_append_left _ (List.mem_map_of_mem hv))

theorem Store.translate_free (h : Store d₀ d) (h₀ : Start d₀) (hp : ∀ r ∈ d.iovad, ¬ r.Mem p) :
    translate d.mmu p = d.mmu.dummyPagePteval := by
  rw [h.rest p fun v hv => hp _ (h.iova_mem hv), h.dummy]
  refine h₀.free p fun r hr => hp r (h.iovad.mem_iff.mpr ?_)
  exact List.mem_append_right _ hr

theorem Store.maps_pos (h : Store d₀ d) (h₀ : Start d₀) (hv : v ∈ d.vmaList) (hk : k < v.count) :
    0 < d.maps (4096 * translate d.mmu (v.page + k)) := by
  rw [h.maps]
  refine acquire_pos (h₀.maps _) (List.mem_flatMap.mpr ⟨v, hv, ?_⟩)
  exact List.mem_map.mpr ⟨k, List.mem_range.mpr hk, rfl⟩

/-- What a failed allocation may change: page tables, and where addresses that
are not mapped were mapped last. -/
structure Unchanged (d d' : Ipu6Mmu) : Prop where
  vmaList : d'.vmaList = d.vmaList
  iovad : d'.iovad = d.iovad
  translate : translate d'.mmu = translate d.mmu
  pages : d'.pages = d.pages
  maps : d'.maps = d.maps

theorem Unchanged.refl (d : Ipu6Mmu) : Unchanged d d := ⟨rfl, rfl, rfl, rfl, rfl⟩

theorem Store.of_unchanged (h : Store d₀ d) (h₀ : Start d₀) (hu : Unchanged d d')
    (hext : Extends env d.mmu d'.mmu) (hlive : ∀ a, 0 < d.maps a → d'.pageAt a = d.pageAt a) :
    Store d₀ d' where
  inv := hext.inv
  dummy := hext.dummyPage.trans h.dummy
  aperture := hext.aperture.trans h.aperture
  ok := by rw [hu.vmaList]; exact h.ok
  iovad := by rw [hu.vmaList, hu.iovad]; exact h.iovad
  disjoint := by rw [hu.iovad]; exact h.disjoint
  tables := fun v hv k hk => by
    rw [hu.vmaList] at hv
    exact hext.tables _ (h.tables v hv k hk)
  home := fun v hv k hk => by
    rw [hu.vmaList] at hv
    rw [hu.translate, hlive _ (h.maps_pos h₀ hv hk)]
    exact h.home v hv k hk
  rest := by rw [hu.vmaList, hu.translate]; exact h.rest
  pages := by rw [hu.pages, hu.vmaList]; exact h.pages
  maps := by
    have haddrs : VmInfo.addrs d'.mmu = VmInfo.addrs d.mmu := by
      funext v
      simp only [VmInfo.addrs, hu.translate]
    rw [hu.maps, hu.vmaList, haddrs]
    exact h.maps

-- ---------------------------------------------------------------------------
-- Allocation
-- ---------------------------------------------------------------------------

theorem Store.not_mem_of_disjoint {r' : Iova} (h : Store d₀ d) (hw : w ∈ d.vmaList) (hk : k < w.count)
    (hdis : ∀ r ∈ d.iovad, r'.Disjoint r) : ¬ r'.Mem (w.page + k) := by
  intro hmem
  refine hdis _ (h.iova_mem hw) _ hmem ?_
  rw [(h.ok w hw).mem_iova]
  omega

/-- The state in which the loop of `ipu6_dma_alloc` starts. -/
def Ipu6Mmu.reserve (d : Ipu6Mmu) (r : Iova) (pages : List Nat) : Ipu6Mmu :=
  { d with iovad := r :: d.iovad, pages := acquire d.pages pages }

theorem Store.add (h : Store d₀ d) (h₀ : Start d₀) (hv : v.Ok)
    (hdis : ∀ r ∈ d.iovad, v.iova.Disjoint r) (hfresh : DmaFresh d env)
    (hp : Partial env v.page v.pages (d.reserve v.iova v.pages) v.count d') :
    Store d₀ { d' with vmaList := v :: d'.vmaList } := by
  have hlist : d'.vmaList = d.vmaList := hp.vmaList
  have hnew : ∀ k < v.count, 4096 * translate d'.mmu (v.page + k) = addr env k := by
    intro k hk
    have hal := (hfresh k _ (hp.got k hk)).1
    rw [hp.tr, overlay_apply hk]
    omega
  have hold : ∀ p, ¬ v.iova.Mem p → translate d'.mmu p = translate d.mmu p := by
    intro p hmem
    rw [hv.mem_iova] at hmem
    rw [hp.tr, overlay_of_not_mem hmem]
    rfl
  have haddrs : ∀ w ∈ d.vmaList, VmInfo.addrs d'.mmu w = VmInfo.addrs d.mmu w := by
    intro w hw
    refine List.map_congr_left fun k hk => ?_
    rw [hold _ (h.not_mem_of_disjoint hw (List.mem_range.mp hk) hdis)]
  refine ⟨hp.ext.inv, hp.ext.dummyPage.trans h.dummy, hp.ext.aperture.trans h.aperture, ?_, ?_, ?_,
    ?_, ?_, fun p hout => ?_, ?_, ?_⟩
  · rw [hlist]
    exact List.forall_mem_cons.mpr ⟨hv, h.ok⟩
  · show d'.iovad.Perm _
    rw [hp.iovad, hlist]
    exact h.iovad.cons _
  · show d'.iovad.Pairwise _
    rw [hp.iovad]
    exact List.pairwise_cons.mpr ⟨hdis, h.disjoint⟩
  · rw [hlist]
    exact List.forall_mem_cons.mpr ⟨hp.tables, fun w hw k hk => hp.ext.tables _ (h.tables w hw k hk)⟩
  · rw [hlist]
    refine List.forall_mem_cons.mpr ⟨fun k hk => ?_, fun w hw k hk => ?_⟩
    · show d'.pageAt (4096 * translate d'.mmu (v.page + k)) = _
      rw [hnew k hk]
      exact hp.home k hk
    · show d'.pageAt (4096 * translate d'.mmu (w.page + k)) = _
      rw [hold _ (h.not_mem_of_disjoint hw hk hdis), hp.live _ (h.maps_pos h₀ hw hk)]
      exact h.home w hw k hk
  · rw [hlist] at hout
    obtain ⟨hv', hrest⟩ := List.forall_mem_cons.mp hout
    show translate d'.mmu p = _
    rw [hold p hv']
    exact h.rest p hrest
  · show d'.pages = _
    rw [hp.held, hlist]
    show acquire d.pages v.pages = _
    rw [h.pages, acquire_acquire]
    exact acquire_perm List.perm_append_comm
  · show d'.maps = acquire d₀.maps ((v :: d'.vmaList).flatMap (VmInfo.addrs d'.mmu))
    have hself : VmInfo.addrs d'.mmu v = (List.range v.count).map (addr env) :=
      List.map_congr_left fun k hk => hnew k (List.mem_range.mp hk)
    have hflat : d.vmaList.flatMap (VmInfo.addrs d'.mmu) = d.vmaList.flatMap (VmInfo.addrs d.mmu) :=
      List.flatMap_congr haddrs
    rw [hp.maps, hlist, List.flatMap_cons, hself, hflat]
    show acquire d.maps _ = _
    rw [h.maps, acquire_acquire]
    exact acquire_perm List.perm_append_comm

theorem Store.addBuffer {pages : List Nat} (h : Store d₀ d) (h₀ : Start d₀) (hb : lo + n ≤ 2 ^ 20)
    (hvaddr : vaddr ≠ 0) (hn0 : 0 < n) (hn : pageAlign64 size / 4096 = n)
    (hlen : pages.length = n) (hdis : ∀ r ∈ d.iovad, Iova.Disjoint ⟨lo, lo + n - 1⟩ r)
    (hfresh : DmaFresh d env)
    (hp : Partial env lo pages (d.reserve ⟨lo, lo + n - 1⟩ pages) n d') :
    Store d₀ { d' with
      vmaList := ⟨pages, 4096 * lo, vaddr, pageAlign64 size⟩ :: d'.vmaList } := by
  have hpage : VmInfo.page ⟨pages, 4096 * lo, vaddr, pageAlign64 size⟩ = lo := by
    simp [VmInfo.page]
  have hcount : VmInfo.count ⟨pages, 4096 * lo, vaddr, pageAlign64 size⟩ = n := hn
  have hiova : VmInfo.iova ⟨pages, 4096 * lo, vaddr, pageAlign64 size⟩ = ⟨lo, lo + n - 1⟩ := by
    simp [VmInfo.iova, hpage, hcount]
  have hsize : pageAlign64 size = 4096 * (pageAlign64 size / 4096) := by
    unfold pageAlign64
    omega
  refine h.add h₀ ⟨?_, ?_, ?_, ?_, ?_, hvaddr⟩ ?_ hfresh ?_
  · rw [hpage]
  · exact hsize
  · rw [hcount]
    exact hn0
  · rw [hpage, hcount]
    exact hb
  · rw [hcount]
    exact hlen
  · rw [hiova]
    exact hdis
  · rw [hpage, hcount, hiova]
    exact hp

theorem vmap_some (h : (if ok = true then vmap env n else none) = some vaddr) :
    ok = true ∧ n ≠ 0 ∧ env.vmap = some vaddr := by
  split at h
  · rename_i hok
    unfold vmap at h
    split at h
    · cases h
    · rename_i hn
      exact ⟨hok, hn, h⟩
  · cases h

/-- What the kernel may answer: free ranges of the address space, fresh DMA
addresses, no NULL mapping. -/
structure EnvOk (d : Ipu6Mmu) (env : AllocEnv) (size : Nat) : Prop where
  iova : ∀ lo, env.allocIova = some lo → 1 ≤ lo ∧
    lo + pageAlign64 size / 4096 ≤ d.mmu.apertureEnd / 4096 + 1 ∧
    ∀ p, lo ≤ p → p < lo + pageAlign64 size / 4096 → ∀ r ∈ d.iovad, ¬ r.Mem p
  dma : DmaFresh d env
  tables : Fresh d.mmu env.tables
  vmap : ∀ vaddr, env.vmap = some vaddr → vaddr ≠ 0

/-- A buffer is added, or nothing has changed. -/
structure Alloced (d₀ d : Ipu6Mmu) (size : Nat) (d' : Ipu6Mmu) (r : Option (Nat × Nat)) : Prop where
  store : Store d₀ d'
  failed : r = none → Unchanged d d'
  added : ∀ vaddr handle, r = some (vaddr, handle) →
    ∃ v, d'.vmaList = v :: d.vmaList ∧ v.ipu6Iova = handle ∧ v.size = pageAlign64 size ∧
      v.vaddr = vaddr

theorem Alloced.unchanged (h : Store d₀ d) : Alloced d₀ d size d none :=
  ⟨h, fun _ => .refl d, by simp⟩

theorem dmaAlloc_spec (h : Store d₀ d) (h₀ : Start d₀) (he : EnvOk d env size) :
    ∃ d' r, ipu6DmaAlloc d env size = some (d', r) ∧ Alloced d₀ d size d' r := by
  unfold ipu6DmaAlloc
  split
  · exact ⟨d, none, rfl, .unchanged h⟩
  · cases hlo : env.allocIova with
    | none => exact ⟨d, none, rfl, .unchanged h⟩
    | some lo =>
      obtain ⟨hpos, hbound, hfree⟩ := he.iova lo hlo
      have hap : lo + pageAlign64 size / 4096 ≤ 2 ^ 20 := by
        have := h.aperture
        have := h₀.aperture
        omega
      simp only
      generalize hn : pageAlign64 size / 4096 = n at *
      rcases allocBuffer_cases { d with iovad := ⟨lo, lo + n - 1⟩ :: d.iovad } env
          (pageAlign64 size) with hbuf | ⟨pages, hlen, hbuf⟩
      · rw [hbuf]
        refine ⟨d, none, ?_, .unchanged h⟩
        simp
      · rw [hbuf]
        rw [hn] at hlen
        have hun : ∀ k < 0 + n, translate (d.reserve ⟨lo, lo + n - 1⟩ pages).mmu (lo + k) =
            d.mmu.dummyPagePteval := by
          intro k hk
          exact h.translate_free h₀ (hfree _ (by omega) (by omega))
        have hrounds : lo + n - 1 + 1 - lo = n := by omega
        have hzero : Partial env lo pages (d.reserve ⟨lo, lo + n - 1⟩ pages) 0
            (d.reserve ⟨lo, lo + n - 1⟩ pages) := .zero h.inv he.tables
        obtain ⟨d₂, t, ok, hrun, hpart, ht, hall⟩ :=
          allocMapLoop_spec (lo + n - 1) hzero he.dma (by omega) hun
        have hrun' : allocMapLoop env ⟨lo, lo + n - 1⟩ pages n 0
          { d with iovad := ⟨lo, lo + n - 1⟩ :: d.iovad, pages := acquire d.pages pages } =
            (d₂, t, ok) := hrun
        simp only [hrounds, hrun']
        cases hvm : (if ok = true then vmap env n else none) with
        | some vaddr =>
          obtain ⟨hok, hn0, hvaddr⟩ := vmap_some hvm
          obtain rfl : t = n := by simpa using hall hok
          refine ⟨_, _, rfl, ?_, by simp, fun _ _ hr => ?_⟩
          · refine h.addBuffer h₀ hap (he.vmap _ hvaddr) (Nat.pos_of_ne_zero hn0) hn hlen ?_
              he.dma hpart
            exact fun r hr p hmem => hfree p hmem.1 (by have := hmem.2; simp only at this; omega) r hr
          · obtain ⟨rfl, rfl⟩ : vaddr = _ ∧ 4096 * lo = _ := by simpa using hr
            exact ⟨_, by rw [hpart.vmaList]; rfl, rfl, rfl, rfl⟩
        | none =>
          obtain ⟨d₃, hrun₃, hzero⟩ := outUnmap_spec (lo + n - 1) hpart he.dma (by omega)
            (fun k hk => hun k (by omega))
          refine ⟨_, none, by simp only [hrun₃, Option.bind_eq_bind, Option.bind_some]; rfl, ?_⟩
          have hback : Unchanged d { (freeBuffer d₃ pages (pageAlign64 size)) with
              iovad := (freeBuffer d₃ pages (pageAlign64 size)).iovad.erase ⟨lo, lo + n - 1⟩ } := by
            refine ⟨hzero.vmaList, ?_, ?_, ?_, ?_⟩
            · show d₃.iovad.erase _ = d.iovad
              rw [hzero.iovad]
              exact List.erase_cons_head ..
            · show translate d₃.mmu = _
              rw [hzero.tr, overlay_zero]
              rfl
            · show release d₃.pages (pages.take (pageAlign64 size / 4096)) = d.pages
              rw [hzero.held, hn, ← hlen, List.take_length]
              exact release_acquire d.pages pages
            · show d₃.maps = d.maps
              rw [hzero.maps, List.range_zero, List.map_nil, acquire_nil]
              rfl
          exact ⟨h.of_unchanged h₀ hback hzero.ext hzero.live, fun _ => hback, by simp⟩

-- ---------------------------------------------------------------------------
-- Lookup
-- ---------------------------------------------------------------------------

theorem Store.pairwise (h : Store d₀ d) :
    (d.vmaList.map VmInfo.iova).Pairwise Iova.Disjoint :=
  (List.pairwise_append.mp (h.disjoint.perm h.iovad Iova.Disjoint.symm)).1

theorem Store.eq_of_mem (h : Store d₀ d) (hv : v ∈ d.vmaList) (hw : w ∈ d.vmaList)
    (hpv : v.iova.Mem p) (hpw : w.iova.Mem p) : v = w := by
  by_contra hne
  have hsymm : Std.Symm fun a b : VmInfo => a.iova.Disjoint b.iova := ⟨fun _ _ hd => hd.symm⟩
  exact (List.pairwise_map.mp h.pairwise).forall hv hw hne p hpv hpw

theorem findIova_eq (hdis : iovad.Pairwise Iova.Disjoint) (hr : r ∈ iovad) (hp : r.Mem p) :
    findIova iovad p = some r := by
  have hsome : (findIova iovad p).isSome := by
    simp only [findIova, List.find?_isSome]
    exact ⟨r, hr, by simpa [Iova.Mem] using hp⟩
  obtain ⟨r', hr'⟩ := Option.isSome_iff_exists.mp hsome
  have hmem : r' ∈ iovad := List.mem_of_find?_eq_some hr'
  have hp' : r'.Mem p := by simpa [Iova.Mem] using List.find?_some hr'
  rw [hr']
  by_contra hne
  have hne : r' ≠ r := fun heq => hne (congrArg some heq)
  exact hdis.forall hmem hr hne p hp' hp

theorem Store.getVmInfo_iff (h : Store d₀ d) (x : Nat) (v : VmInfo) :
    getVmInfo d.vmaList x = some v ↔
      v ∈ d.vmaList ∧ v.ipu6Iova ≤ x ∧ x < v.ipu6Iova + v.size := by
  have hpage : ∀ w ∈ d.vmaList, w.ipu6Iova ≤ x → x < w.ipu6Iova + w.size → w.iova.Mem (x / 4096) := by
    intro w hw hlo hhi
    have hok := h.ok w hw
    have := hok.aligned
    have := hok.size
    rw [hok.mem_iova]
    omega
  constructor
  · intro hfind
    have hmem := List.mem_of_find?_eq_some hfind
    have hx := List.find?_some hfind
    simp only [ge_iff_le, Bool.and_eq_true, decide_eq_true_eq] at hx
    exact ⟨hmem, hx⟩
  · rintro ⟨hmem, hlo, hhi⟩
    have hsome : (getVmInfo d.vmaList x).isSome := by
      simp only [getVmInfo, List.find?_isSome]
      exact ⟨v, hmem, by simp [hlo, hhi]⟩
    obtain ⟨w, hw⟩ := Option.isSome_iff_exists.mp hsome
    have hwmem := List.mem_of_find?_eq_some hw
    have hx := List.find?_some hw
    simp only [ge_iff_le, Bool.and_eq_true, decide_eq_true_eq] at hx
    rw [hw, h.eq_of_mem hwmem hmem (hpage w hwmem hx.1 hx.2) (hpage v hmem hlo hhi)]

-- ---------------------------------------------------------------------------
-- Freeing
-- ---------------------------------------------------------------------------

/-- The state `ipu6_dma_free` leaves when `v` is the buffer it was given. -/
def Ipu6Mmu.freed (d : Ipu6Mmu) (v : VmInfo) : Ipu6Mmu :=
  { d with
    mmu := ipu6MmuUnmap d.mmu (4096 * v.page) (4096 * v.count)
    iovad := d.iovad.erase v.iova
    vmaList := d.vmaList.erase v
    pages := release d.pages v.pages
    maps := release d.maps (v.addrs d.mmu) }

theorem dmaFree_eq (h : Store d₀ d) (hv : v ∈ d.vmaList) (hsize : pageAlign64 size = v.size) :
    ipu6DmaFree d size v.ipu6Iova = some (d.freed v) := by
  have hok := h.ok v hv
  have hpos := hok.nonempty
  have hpfn : v.ipu6Iova / 4096 = v.page := rfl
  have hiova : findIova d.iovad v.page = some v.iova :=
    findIova_eq h.disjoint (h.iova_mem hv) (by rw [hok.mem_iova]; omega)
  have hinfo : getVmInfo d.vmaList v.ipu6Iova = some v := by
    have := hok.size
    exact (h.getVmInfo_iff _ _).mpr ⟨hv, Nat.le_refl _, by omega⟩
  have hcount : v.size / 4096 = v.count := rfl
  have hloop := freeUnmapLoop_spec (d := { d with vmaList := d.vmaList.erase v }) (i := 0)
    (n := v.count) (v.page + v.count - 1) (by have := hok.bound; omega)
    (fun k hk => h.tables v hv k (by omega))
  have hlen : v.page + v.count - 1 + 1 - v.page = v.count := by omega
  have htake : v.pages.take v.count = v.pages := by rw [← hok.pages, List.take_length]
  simp only [ipu6DmaFree, hpfn, hiova, hinfo, if_neg hok.vaddr, hsize, hcount]
  simp only [VmInfo.iova, hloop, hlen, Option.bind_eq_bind, Option.bind_some, freeBuffer, hcount,
    htake, Option.pure_def, Ipu6Mmu.freed, VmInfo.addrs, List.range_eq_range']

theorem Store.freed (h : Store d₀ d) (h₀ : Start d₀) (hv : v ∈ d.vmaList) :
    Store d₀ (d.freed v) := by
  have hok := h.ok v hv
  have hperm := List.perm_cons_erase hv
  obtain ⟨htr, hk⟩ := mmuUnmap_spec h.inv hok.bound fun k hk => h.tables v hv k hk
  -- the buffers that stay, and the ranges the run started with, are elsewhere
  have hpair : ((v :: d.vmaList.erase v).map VmInfo.iova ++ d₀.iovad).Pairwise Iova.Disjoint :=
    h.disjoint.perm (h.iovad.trans ((hperm.map _).append_right _)) Iova.Disjoint.symm
  obtain ⟨hpairs, -, hold⟩ := List.pairwise_append.mp hpair
  have hstay : ∀ w ∈ d.vmaList.erase v, v.iova.Disjoint w.iova := fun w hw =>
    (List.pairwise_cons.mp hpairs).1 _ (List.mem_map_of_mem hw)
  have hmem : ∀ w ∈ d.vmaList.erase v, w ∈ d.vmaList := fun w hw => List.mem_of_mem_erase hw
  have hsame : ∀ w ∈ d.vmaList.erase v, ∀ k < w.count,
      translate (d.freed v).mmu (w.page + k) = translate d.mmu (w.page + k) := by
    intro w hw k hkw
    have hout : ¬ v.iova.Mem (w.page + k) := fun hin =>
      hstay w hw _ hin (by rw [(h.ok w (hmem w hw)).mem_iova]; omega)
    rw [hok.mem_iova] at hout
    exact (congrFun htr _).trans (overlay_of_not_mem hout)
  refine ⟨hk.inv h.inv, hk.dummyPage.trans h.dummy, hk.aperture.trans h.aperture,
    fun w hw => h.ok w (hmem w hw), ?_, h.disjoint.erase _, fun w hw k hkw => ?_,
    fun w hw k hkw => ?_, fun p hout => ?_, ?_, ?_⟩
  · have hfull : d.iovad.Perm (v.iova :: ((d.vmaList.erase v).map VmInfo.iova ++ d₀.iovad)) :=
      h.iovad.trans ((hperm.map _).append_right _)
    have herase := hfull.erase v.iova
    rwa [List.erase_cons_head] at herase
  · show ((ipu6MmuUnmap d.mmu (4096 * v.page) (4096 * v.count)).l2Pts _).isSome
    rw [hk.isSome]
    exact h.tables w (hmem w hw) k hkw
  · rw [hsame w hw k hkw]
    exact h.home w (hmem w hw) k hkw
  · show translate (ipu6MmuUnmap d.mmu (4096 * v.page) (4096 * v.count)) p = _
    rw [htr]
    by_cases hin : v.iova.Mem p
    · have hfree : ∀ r ∈ d₀.iovad, ¬ r.Mem p := fun r hr =>
        hold _ List.mem_cons_self r hr p hin
      rw [hok.mem_iova] at hin
      rw [overlay_of_mem hin.1 hin.2, h₀.free p hfree, h.dummy]
    · have hrest := h.rest p fun w hw => by
        rcases List.mem_cons.mp (hperm.mem_iff.mp hw) with rfl | hw
        · exact hin
        · exact hout w hw
      rw [hok.mem_iova] at hin
      rw [overlay_of_not_mem hin, hrest]
  · show release d.pages v.pages = acquire d₀.pages ((d.vmaList.erase v).flatMap VmInfo.pages)
    have hflat : (d.vmaList.flatMap VmInfo.pages).Perm
        ((d.vmaList.erase v).flatMap VmInfo.pages ++ v.pages) :=
      (hperm.flatMap_right _).trans List.perm_append_comm
    rw [h.pages, acquire_perm hflat, release_acquire_append]
  · show release d.maps (v.addrs d.mmu) =
      acquire d₀.maps ((d.vmaList.erase v).flatMap (VmInfo.addrs (d.freed v).mmu))
    have hflat : (d.vmaList.flatMap (VmInfo.addrs d.mmu)).Perm
        ((d.vmaList.erase v).flatMap (VmInfo.addrs d.mmu) ++ v.addrs d.mmu) :=
      (hperm.flatMap_right _).trans List.perm_append_comm
    have hnew : (d.vmaList.erase v).flatMap (VmInfo.addrs (d.freed v).mmu) =
        (d.vmaList.erase v).flatMap (VmInfo.addrs d.mmu) := by
      refine List.flatMap_congr fun w hw => List.map_congr_left fun k hkw => ?_
      rw [hsame w hw k (List.mem_range.mp hkw)]
    rw [h.maps, acquire_perm hflat, release_acquire_append, hnew]

end

-- ---------------------------------------------------------------------------
-- Runs
-- ---------------------------------------------------------------------------

/-- What a caller of `ipu6_dma_alloc` keeps: the handle, and the size it asked
for. -/
structure Buffer where
  handle : Nat
  size : Nat
  deriving DecidableEq, Repr

structure Sys where
  d : Ipu6Mmu
  live : List Buffer

inductive Event
  | alloc (env : AllocEnv) (size : Nat)
  | free (b : Buffer)

def Legal (s : Sys) : Event → Prop
  | .alloc env size => 0 < size ∧ size < 2 ^ 64 ∧ EnvOk s.d env size
  | .free b => b ∈ s.live

inductive Step (s : Sys) : Event → Sys → Prop
  | alloc (r : Option (Nat × Nat)) : Legal s (.alloc env size) →
      ipu6DmaAlloc s.d env size = some (d', r) →
      Step s (.alloc env size) ⟨d', match r with
        | none => s.live
        | some (_, handle) => ⟨handle, size⟩ :: s.live⟩
  | free : Legal s (.free b) → ipu6DmaFree s.d b.size b.handle = some d' →
      Step s (.free b) ⟨d', s.live.erase b⟩

def Buffer.span (b : Buffer) : Nat × Nat := (b.handle, pageAlign64 b.size)
def VmInfo.span (v : VmInfo) : Nat × Nat := (v.ipu6Iova, v.size)

def Apart (x y : Nat × Nat) : Prop := x.1 + x.2 ≤ y.1 ∨ y.1 + y.2 ≤ x.1

/-- `v` is the entry of the live buffer `b`, and its pages are where the page
table says. -/
structure Holds (d : Ipu6Mmu) (b : Buffer) (v : VmInfo) : Prop where
  span : v.span = b.span
  length : 4096 * v.pages.length = v.size
  pages : ∀ j page, v.pages[j]? = some page → ∃ a,
    ipu6MmuIovaToPhys d.mmu (b.handle + 4096 * j) = some a ∧ 0 < d.maps a ∧ d.pageAt a = page

structure StoreOk (d₀ : Ipu6Mmu) (s : Sys) : Prop where
  apart : s.live.Pairwise fun b b' => Apart b.span b'.span
  found : ∀ b ∈ s.live, ∀ x, b.handle ≤ x → x < b.handle + pageAlign64 b.size →
    ∃ v, getVmInfo s.d.vmaList x = some v ∧ Holds s.d b v
  missing : ∀ x, (∀ b ∈ s.live, ¬ (b.handle ≤ x ∧ x < b.handle + pageAlign64 b.size)) →
    getVmInfo s.d.vmaList x = none
  empty : s.live = [] → s.d.vmaList = [] ∧ s.d.iovad.Perm d₀.iovad ∧
    translate s.d.mmu = translate d₀.mmu ∧ s.d.pages = d₀.pages ∧ s.d.maps = d₀.maps

/-- Every call comes back; an allocation that fails has changed nothing. -/
def StepOk (s : Sys) : Event → Prop
  | .alloc env size => ∃ d' r, ipu6DmaAlloc s.d env size = some (d', r) ∧
    (r = none → Unchanged s.d d')
  | .free b => ∃ d', ipu6DmaFree s.d b.size b.handle = some d'

structure SysInv (d₀ : Ipu6Mmu) (s : Sys) : Prop where
  store : Store d₀ s.d
  live : (s.d.vmaList.map VmInfo.span).Perm (s.live.map Buffer.span)

theorem SysInv.entry (h : SysInv d₀ s) (hb : b ∈ s.live) :
    ∃ v ∈ s.d.vmaList, v.span = b.span :=
  List.mem_map.mp (h.live.mem_iff.mpr (List.mem_map_of_mem hb))

theorem Store.apart (h : Store d₀ d) : (d.vmaList.map VmInfo.span).Pairwise Apart := by
  rw [List.pairwise_map]
  refine (List.pairwise_map.mp h.pairwise).imp_of_mem fun {v w} hv hw hdis => ?_
  have hv := h.ok v hv
  have hw := h.ok w hw
  have hvpos := hv.nonempty
  have hwpos := hw.nonempty
  -- the later of the two first pages would lie in both
  by_contra hover
  simp only [Apart, VmInfo.span, not_or, hv.aligned, hv.size, hw.aligned, hw.size] at hover
  refine hdis (max v.page w.page) ((hv.mem_iova _).mpr ?_) ((hw.mem_iova _).mpr ?_) <;> omega

theorem Store.holds (h : Store d₀ d) (h₀ : Start d₀) (hv : v ∈ d.vmaList)
    (hspan : v.span = b.span) : Holds d b v := by
  have hok := h.ok v hv
  have hhandle : v.ipu6Iova = b.handle := congrArg Prod.fst hspan
  refine ⟨hspan, by rw [hok.pages, hok.size], fun j page hj => ?_⟩
  obtain ⟨hlt, hget⟩ := List.getElem?_eq_some_iff.mp hj
  rw [hok.pages] at hlt
  have hbound := hok.bound
  have hread : ipu6MmuIovaToPhys d.mmu (b.handle + 4096 * j) =
      some (4096 * translate d.mmu (v.page + j)) := by
    rw [← hhandle, hok.aligned, ← Nat.mul_add]
    exact iovaToPhys_page (by omega) (h.tables v hv j hlt)
  refine ⟨_, hread, h.maps_pos h₀ hv hlt, ?_⟩
  rw [h.home v hv j hlt, List.getD_eq_getElem?_getD, hj]
  rfl

theorem SysInv.storeOk (h : SysInv d₀ s) (h₀ : Start d₀) : StoreOk d₀ s where
  apart := by
    have hpair := h.store.apart.perm h.live (fun hab => Or.symm hab)
    exact List.pairwise_map.mp hpair
  found := fun b hb x hlo hhi => by
    obtain ⟨v, hv, hspan⟩ := h.entry hb
    have hhandle : v.ipu6Iova = b.handle := congrArg Prod.fst hspan
    have hsize : v.size = pageAlign64 b.size := congrArg Prod.snd hspan
    refine ⟨v, (h.store.getVmInfo_iff x v).mpr ⟨hv, ?_, ?_⟩, h.store.holds h₀ hv hspan⟩
    · rw [hhandle]
      exact hlo
    · rw [hhandle, hsize]
      exact hhi
  missing := fun x hout => by
    cases hfind : getVmInfo s.d.vmaList x with
    | none => rfl
    | some v =>
      obtain ⟨hv, hlo, hhi⟩ := (h.store.getVmInfo_iff x v).mp hfind
      obtain ⟨b, hb, hspan⟩ := List.mem_map.mp (h.live.mem_iff.mp (List.mem_map_of_mem hv))
      have hhandle : b.handle = v.ipu6Iova := congrArg Prod.fst hspan
      have hsize : pageAlign64 b.size = v.size := congrArg Prod.snd hspan
      exact absurd ⟨by omega, by omega⟩ (hout b hb)
  empty := fun hlive => by
    have hnil : s.d.vmaList = [] := by simpa [hlive] using h.live
    have hstore := h.store
    refine ⟨hnil, by simpa [hnil] using hstore.iovad, ?_, by simpa [hnil] using hstore.pages,
      by simpa [hnil] using hstore.maps⟩
    funext p
    exact hstore.rest p (by simp [hnil])

theorem SysInv.stepOk (h : SysInv d₀ s) (h₀ : Start d₀) (hl : Legal s ev) : StepOk s ev := by
  cases ev with
  | alloc env size =>
    obtain ⟨d', r, hrun, halloc⟩ := dmaAlloc_spec h.store h₀ hl.2.2
    exact ⟨d', r, hrun, halloc.failed⟩
  | free b =>
    obtain ⟨v, hv, hspan⟩ := h.entry hl
    have hhandle : v.ipu6Iova = b.handle := congrArg Prod.fst hspan
    exact ⟨_, by rw [← hhandle]; exact dmaFree_eq h.store hv (congrArg Prod.snd hspan).symm⟩

theorem SysInv.step (h : SysInv d₀ s) (h₀ : Start d₀) (hs : Step s ev s') : SysInv d₀ s' := by
  cases hs with
  | alloc r hl hrun =>
    obtain ⟨d₁, r₁, hrun₁, halloc⟩ := dmaAlloc_spec h.store h₀ hl.2.2
    obtain ⟨rfl, rfl⟩ : d₁ = _ ∧ r₁ = r := by simpa [hrun₁] using hrun
    refine ⟨halloc.store, ?_⟩
    cases r₁ with
    | none =>
      rw [(halloc.failed rfl).vmaList]
      exact h.live
    | some r =>
      obtain ⟨v, hlist, hhandle, hsize, -⟩ := halloc.added r.1 r.2 rfl
      rw [hlist]
      have hspan : v.span = Buffer.span ⟨r.2, _⟩ := Prod.ext hhandle hsize
      simp only [List.map_cons, hspan]
      exact h.live.cons _
  | free hl hrun =>
    rename_i b d'
    obtain ⟨v, hv, hspan⟩ := h.entry hl
    have hhandle : v.ipu6Iova = b.handle := congrArg Prod.fst hspan
    rw [← hhandle, dmaFree_eq h.store hv (congrArg Prod.snd hspan).symm] at hrun
    obtain rfl := Option.some.inj hrun
    refine ⟨h.store.freed h₀ hv, ?_⟩
    have hv' := (List.perm_cons_erase hv).map VmInfo.span
    have hb' := (List.perm_cons_erase hl).map Buffer.span
    have hcons := (hv'.symm.trans h.live).trans hb'
    rw [List.map_cons, List.map_cons, hspan] at hcons
    exact hcons.cons_inv

/-- Over every run of allocations and frees, with any of the kernel's answers
failing, the buffers are disjoint, found, backed by their own pages, and
leave nothing behind. -/
theorem dmaStore_invariant (h₀ : Start d₀) (h : Reachable (· = ⟨d₀, []⟩) Step s) :
    StoreOk d₀ s ∧ ∀ ev, Legal s ev → StepOk s ev := by
  have hinv : SysInv d₀ s := by
    refine h.invariant (fun s hs => ?_) fun s ev s' hi hs => hi.step h₀ hs
    subst hs
    exact ⟨h₀.store, by simp [h₀.vmaList]⟩
  exact ⟨hinv.storeOk h₀, fun ev hl => hinv.stepOk h₀ hl⟩

def emptyStore : Ipu6Mmu := ⟨emptyMmu, [], [], fun _ => 0, fun _ => 0, fun _ => 0⟩

theorem start_emptyStore : Start emptyStore where
  inv := inv_emptyMmu.1
  aperture := by decide
  vmaList := rfl
  disjoint := .nil
  free := fun p _ => by simp [Mmu.translate, emptyStore, inv_emptyMmu.2]
  maps := fun _ => Int.le_refl _

/-- A buffer of 5000 bytes, two pages on either side of the first 4 MiB
boundary, put together from single pages. -/
theorem dmaStore_invariant_one_buffer :
    ∃ s : Sys, s.live = [⟨4096 * 1023, 5000⟩] ∧ StoreOk emptyStore s := by
  let env : AllocEnv := {
    kzalloc := true
    allocIova := some 1023
    kvzalloc := true
    allocPages := fun i order => if order = 0 then some (100 + i) else none
    dmaMapPage := fun i => if i < 2 then some (4096 * (50 + i)) else none
    tables := plainTables 2
    vmap := some 7 }
  have hrun : (ipu6DmaAlloc emptyStore env 5000).map Prod.snd = some (some (7, 4096 * 1023)) := by
    decide +kernel
  obtain ⟨⟨d', r⟩, hrun, rfl⟩ := Option.map_eq_some_iff.mp hrun
  have hdma : DmaFresh emptyStore env := by
    intro k a ha
    have hplain : ∀ i b, env.dmaMapPage i = some b → i < 2 ∧ b = 4096 * (50 + i) := by
      intro i b hb
      by_cases hi : i < 2
      · simp only [env, if_pos hi, Option.some.injEq] at hb
        exact ⟨hi, hb.symm⟩
      · simp [env, hi] at hb
    obtain ⟨hk, rfl⟩ := hplain k a ha
    refine ⟨by omega, by omega, rfl, fun j hj => ?_⟩
    have := (hplain j _ hj).2
    omega
  have henv : EnvOk emptyStore env 5000 := by
    refine ⟨fun lo hlo => ?_, hdma, fresh_plainTables (by omega), fun vaddr hv => ?_⟩
    · obtain rfl : 1023 = lo := by simpa [env] using hlo
      exact ⟨by decide, by decide, by simp [emptyStore]⟩
    · obtain rfl : 7 = vaddr := by simpa [env] using hv
      decide
  exact ⟨_, rfl, (dmaStore_invariant start_emptyStore
    (.step (.init rfl) (.alloc _ ⟨by decide, by decide, henv⟩ hrun))).1⟩

end Ipu4.Dma
