import Ipu4.Lib.Runs
import Ipu4.Mmu.Map

/-!
# The page table refines a page map

What the page table is for: a partial map from pages to frames, to which
whole ranges are added and from which they are taken again. A run starts
from `ipu6_mmu_alloc` and makes map and unmap calls the way the driver's
callers do, with any page allocation or DMA mapping failing. The abstract
map follows along, and the walk of the device agrees with it throughout.
-/

namespace Ipu4.Mmu

open Overlay
open Runs (Reachable)

-- ---------------------------------------------------------------------------
-- The abstract map
-- ---------------------------------------------------------------------------

/-- A range of addresses and where it is mapped to. -/
structure Mapping where
  iova : Nat
  paddr : Nat
  size : Nat
  deriving DecidableEq, Repr

namespace Mapping

def page (l : Mapping) : Nat := l.iova / 4096
def frame (l : Mapping) : Nat := l.paddr / 4096
def count (l : Mapping) : Nat := l.size / 4096

/-- Whole pages, inside 2^32, with the physical end within 39 bits. -/
structure Ok (l : Mapping) : Prop where
  iova : l.iova % 4096 = 0
  paddr : l.paddr % 4096 = 0
  size : l.size % 4096 = 0
  range : l.iova + l.size ≤ 2 ^ 32
  phys : l.paddr + l.size ≤ 2 ^ 39

theorem Ok.iova_eq {l : Mapping} (h : l.Ok) : l.iova = 4096 * l.page := by
  have := h.iova
  unfold page
  omega

theorem Ok.paddr_eq {l : Mapping} (h : l.Ok) : l.paddr = 4096 * l.frame := by
  have := h.paddr
  unfold frame
  omega

theorem Ok.size_eq {l : Mapping} (h : l.Ok) : l.size = 4096 * l.count := by
  have := h.size
  unfold count
  omega

theorem Ok.page_bound {l : Mapping} (h : l.Ok) : l.page + l.count ≤ 2 ^ 20 := by
  have := h.iova_eq
  have := h.size_eq
  have := h.range
  omega

theorem Ok.frame_bound {l : Mapping} (h : l.Ok) : l.frame + l.count ≤ 2 ^ 32 := by
  have := h.paddr_eq
  have := h.size_eq
  have := h.phys
  omega

end Mapping

abbrev PageMap := Nat → Option Nat

def PageMap.map (g : PageMap) (l : Mapping) : PageMap :=
  overlay g l.page l.count fun k => some (l.frame + k)

def PageMap.unmap (g : PageMap) (l : Mapping) : PageMap :=
  overlay g l.page l.count fun _ => none

theorem PageMap.map_apply (g : PageMap) (hk : k < l.count) :
    g.map l (l.page + k) = some (l.frame + k) :=
  overlay_apply hk

theorem PageMap.map_of_not_mem (g : PageMap) (h : ¬ (l.page ≤ p ∧ p < l.page + l.count)) :
    g.map l p = g p :=
  overlay_of_not_mem h

theorem PageMap.unmap_of_not_mem (g : PageMap) (h : ¬ (l.page ≤ p ∧ p < l.page + l.count)) :
    g.unmap l p = g p :=
  overlay_of_not_mem h

theorem PageMap.map_getD (g : PageMap) (l : Mapping) (d : Nat) :
    (fun p => (g.map l p).getD d) = overlay (fun p => (g p).getD d) l.page l.count (l.frame + ·) := by
  unfold PageMap.map
  exact comp_overlay (fun x : Option Nat => x.getD d)

theorem PageMap.unmap_getD (g : PageMap) (l : Mapping) (d : Nat) :
    (fun p => (g.unmap l p).getD d) =
      overlay (fun p => (g p).getD d) l.page l.count (fun _ => d) := by
  unfold PageMap.unmap
  exact comp_overlay (fun x : Option Nat => x.getD d)

-- ---------------------------------------------------------------------------
-- Runs
-- ---------------------------------------------------------------------------

/-- The page table, the abstract map, and the mappings not taken down yet. -/
structure Sys where
  mmu : MmuInfo
  pages : PageMap
  live : List Mapping

inductive Event
  | map (l : Mapping) (env : Nat → PageEnv)
  | unmap (l : Mapping)

/-- Maps are of unmapped ranges, and get fresh addresses for new tables; unmaps
are of earlier maps. -/
def Legal (s : Sys) : Event → Prop
  | .map l env => l.Ok ∧ (∀ k < l.count, s.pages (l.page + k) = none) ∧ Fresh s.mmu env
  | .unmap l => l ∈ s.live

def next (s : Sys) : Event → Sys
  | .map l env =>
    match ipu6MmuMap s.mmu env l.iova l.paddr l.size with
    | (mmu, none) => ⟨mmu, s.pages.map l, l :: s.live⟩
    | (mmu, some _) => { s with mmu := mmu }
  | .unmap l => ⟨ipu6MmuUnmap s.mmu l.iova l.size, s.pages.unmap l, s.live.erase l⟩

def Step (s : Sys) (ev : Event) (s' : Sys) : Prop := Legal s ev ∧ s' = next s ev

/-- The three pages of `ipu6_mmu_alloc` have addresses of their own. -/
def Init (s : Sys) : Prop :=
  ∃ env : AllocEnv, ipu6MmuAlloc env = some s.mmu ∧ (∀ a ∈ s.mmu.maps, DmaAddr a) ∧
    s.mmu.maps.Nodup ∧ s.pages = (fun _ => none) ∧ s.live = []

-- ---------------------------------------------------------------------------
-- What holds
-- ---------------------------------------------------------------------------

/-- Page `p` translates as before, for the device and for the driver. -/
def SameAt (m m' : MmuInfo) (p : Nat) : Prop :=
  deviceWalk m' p = deviceWalk m p ∧
    ∀ x, ipu6MmuIovaToPhys m (4096 * p) = some x → ipu6MmuIovaToPhys m' (4096 * p) = some x

/-- The pages of a mapping are found where they were mapped to. -/
def Found (m : MmuInfo) (l : Mapping) : Prop :=
  ∀ k < l.count, ipu6MmuIovaToPhys m (l.iova + 4096 * k) = some (l.paddr + 4096 * k)

structure TableOk (s : Sys) : Prop where
  walk : ∀ p < 2 ^ 20, deviceWalk s.mmu p = some ((s.pages p).getD s.mmu.dummyPagePteval)
  found : ∀ l ∈ s.live, Found s.mmu l
  dummy : ∀ i < 1024, s.mmu.l1Pt i = s.mmu.dummyL2Pteval ↔ s.mmu.l2Pts i = none
  entry : ∀ i < 1024, ∀ pt, s.mmu.l2Pts i = some pt → s.mmu.l1Pt i = pt.dma / 4096

def StepOk (s : Sys) : Event → Prop
  | .map l env =>
    let r := ipu6MmuMap s.mmu env l.iova l.paddr l.size
    (r.2 = none → Found r.1 l) ∧
    (r.2 ≠ none → ∀ p < 2 ^ 20, SameAt s.mmu r.1 p) ∧
    ∀ p < 2 ^ 20, ¬ (l.page ≤ p ∧ p < l.page + l.count) → SameAt s.mmu r.1 p
  | .unmap l => ∀ p < 2 ^ 20, ¬ (l.page ≤ p ∧ p < l.page + l.count) →
    SameAt s.mmu (ipu6MmuUnmap s.mmu l.iova l.size) p

-- ---------------------------------------------------------------------------
-- The refinement
-- ---------------------------------------------------------------------------

def Mapping.Disjoint (l l' : Mapping) : Prop :=
  l.page + l.count ≤ l'.page ∨ l'.page + l'.count ≤ l.page ∨ l.count = 0 ∨ l'.count = 0

structure Refines (s : Sys) : Prop where
  inv : Inv s.mmu
  abs : translate s.mmu = fun p => (s.pages p).getD s.mmu.dummyPagePteval
  present : ∀ p, s.pages p ≠ none → (s.mmu.l2Pts (p / 1024)).isSome
  ok : ∀ l ∈ s.live, l.Ok
  mapped : ∀ l ∈ s.live, ∀ k < l.count, s.pages (l.page + k) = some (l.frame + k)
  disjoint : s.live.Pairwise Mapping.Disjoint

theorem sameAt_of_translate (hi : Inv m) (hi' : Inv m') (hp : p < 2 ^ 20)
    (htab : (m.l2Pts (p / 1024)).isSome → (m'.l2Pts (p / 1024)).isSome)
    (h : translate m' p = translate m p) : SameAt m m' p := by
  refine ⟨by rw [deviceWalk_eq hi hp, deviceWalk_eq hi' hp, h], fun x hx => ?_⟩
  have hsome : (m.l2Pts (p / 1024)).isSome := by
    have hidx : 4096 * p / 2 ^ 22 = p / 1024 := by omega
    simp only [ipu6MmuIovaToPhys, hidx, Option.map_eq_some_iff] at hx
    obtain ⟨pt, hpt, -⟩ := hx
    rw [hpt]
    rfl
  rw [iovaToPhys_page hp hsome] at hx
  rw [iovaToPhys_page hp (htab hsome), h]
  exact hx

theorem found_of_translate {l : Mapping} (hl : l.Ok)
    (h : ∀ k < l.count, translate m (l.page + k) = l.frame + k)
    (htab : ∀ k < l.count, (m.l2Pts ((l.page + k) / 1024)).isSome) : Found m l := by
  intro k hk
  have hbound := hl.page_bound
  have hiova : l.iova + 4096 * k = 4096 * (l.page + k) := by
    rw [hl.iova_eq]
    omega
  rw [hiova, iovaToPhys_page (by omega) (htab k hk), h k hk, hl.paddr_eq]
  congr 1
  omega

theorem Refines.tableOk (h : Refines s) : TableOk s where
  walk := fun p hp => by rw [deviceWalk_eq h.inv hp, h.abs]
  found := fun l hl => by
    refine found_of_translate (h.ok l hl) (fun k hk => ?_) (fun k hk => h.present _ ?_)
    · rw [h.abs]
      simp only [h.mapped l hl k hk, Option.getD_some]
    · simp [h.mapped l hl k hk]
  dummy := fun i _ => h.inv.l1Pt_eq_dummy_iff i
  entry := fun i _ pt hpt => h.inv.entry i pt hpt

theorem Refines.mapped_of_legal (h : Refines s) (hl : Legal s (.map l env)) :
    Mapped s.mmu env l.page l.frame l.count (ipu6MmuMap s.mmu env l.iova l.paddr l.size).1
      (ipu6MmuMap s.mmu env l.iova l.paddr l.size).2 := by
  obtain ⟨hok, hun, hfr⟩ := hl
  have hdummy : ∀ k < l.count, translate s.mmu (l.page + k) = s.mmu.dummyPagePteval := by
    intro k hk
    rw [h.abs]
    simp [hun k hk]
  rw [hok.iova_eq, hok.paddr_eq, hok.size_eq]
  exact mmuMap_spec h.inv hfr hok.page_bound hok.frame_bound hdummy

theorem Refines.unmapped_of_legal (h : Refines s) (hl : Legal s (.unmap l)) :
    translate (ipu6MmuUnmap s.mmu l.iova l.size) =
        overlay (translate s.mmu) l.page l.count (fun _ => s.mmu.dummyPagePteval) ∧
      Kept s.mmu (ipu6MmuUnmap s.mmu l.iova l.size) := by
  have hok := h.ok l hl
  rw [hok.iova_eq, hok.size_eq]
  refine mmuUnmap_spec h.inv hok.page_bound fun k hk => h.present _ ?_
  simp [h.mapped l hl k hk]

theorem Refines.stepOk (h : Refines s) (hl : Legal s ev) : StepOk s ev := by
  cases ev with
  | map l env =>
    have hm := h.mapped_of_legal hl
    refine ⟨fun he => ?_, fun he p hp => ?_, fun p hp hout => ?_⟩
    · obtain ⟨htr, htab⟩ := hm.ok he
      refine found_of_translate hl.1 (fun k hk => ?_) htab
      rw [htr, overlay_apply hk]
    · exact sameAt_of_translate h.inv hm.ext.inv hp (hm.ext.tables _) (by rw [hm.err he])
    · refine sameAt_of_translate h.inv hm.ext.inv hp (hm.ext.tables _) ?_
      by_cases he : (ipu6MmuMap s.mmu env l.iova l.paddr l.size).2 = none
      · rw [(hm.ok he).1, overlay_of_not_mem hout]
      · rw [hm.err he]
  | unmap l =>
    intro p hp hout
    obtain ⟨htr, hk⟩ := h.unmapped_of_legal hl
    refine sameAt_of_translate h.inv (hk.inv h.inv) hp (fun hs => by rw [hk.isSome]; exact hs) ?_
    rw [htr, overlay_of_not_mem hout]

theorem refines_init (h : Init s) : Refines s := by
  obtain ⟨env, halloc, haddr, -, hpages, hlive⟩ := h
  obtain ⟨hinv, htables⟩ := inv_mmuAlloc halloc haddr
  refine ⟨hinv, ?_, ?_, ?_, ?_, ?_⟩
  · funext p
    simp [translate, htables, hpages]
  · simp [hpages]
  · simp [hlive]
  · simp [hlive]
  · simp [hlive]

theorem Mapping.Disjoint.symm (h : Mapping.Disjoint l l') : Mapping.Disjoint l' l := by
  unfold Mapping.Disjoint at *
  omega

theorem Mapping.Disjoint.not_mem (h : Mapping.Disjoint l l') (hk : k < l'.count) :
    ¬ (l.page ≤ l'.page + k ∧ l'.page + k < l.page + l.count) := by
  unfold Mapping.Disjoint at h
  omega

theorem Refines.disjoint_of_free (h : Refines s) (hl : l' ∈ s.live)
    (hun : ∀ k < l.count, s.pages (l.page + k) = none) : Mapping.Disjoint l l' := by
  by_contra hover
  simp only [Mapping.Disjoint, not_or, Nat.not_le] at hover
  -- the later of the two starts lies in both ranges
  have hfree := hun (max l.page l'.page - l.page) (by omega)
  have hused := h.mapped l' hl (max l.page l'.page - l'.page) (by omega)
  rw [show l.page + (max l.page l'.page - l.page) = max l.page l'.page by omega] at hfree
  rw [show l'.page + (max l.page l'.page - l'.page) = max l.page l'.page by omega, hfree] at hused
  cases hused

theorem Refines.next_map (h : Refines s) (hl : Legal s (.map l env)) :
    Refines (next s (.map l env)) := by
  have hm := h.mapped_of_legal hl
  obtain ⟨hok, hun, -⟩ := hl
  simp only [next]
  generalize ipu6MmuMap s.mmu env l.iova l.paddr l.size = r at hm
  obtain ⟨mmu, e⟩ := r
  cases e with
  | some e =>
    show Refines { s with mmu := mmu }
    have htr := hm.err (by simp)
    exact ⟨hm.ext.inv, by rw [htr, h.abs, hm.ext.dummyPage],
      fun p hp => hm.ext.tables _ (h.present p hp), h.ok, h.mapped, h.disjoint⟩
  | none =>
    show Refines ⟨mmu, s.pages.map l, l :: s.live⟩
    obtain ⟨htr, htab⟩ := hm.ok rfl
    have hdis : ∀ l' ∈ s.live, Mapping.Disjoint l l' := fun l' hl' => h.disjoint_of_free hl' hun
    refine ⟨hm.ext.inv, ?_, fun p hp => ?_, ?_, ?_, List.pairwise_cons.mpr ⟨hdis, h.disjoint⟩⟩
    · show translate mmu = fun p => (s.pages.map l p).getD mmu.dummyPagePteval
      rw [htr, hm.ext.dummyPage, h.abs, PageMap.map_getD]
    · by_cases hin : l.page ≤ p ∧ p < l.page + l.count
      · rw [show p = l.page + (p - l.page) by omega]
        exact htab _ (by omega)
      · refine hm.ext.tables _ (h.present p ?_)
        have hp : s.pages.map l p ≠ none := hp
        rwa [s.pages.map_of_not_mem hin] at hp
    · exact List.forall_mem_cons.mpr ⟨hok, h.ok⟩
    · refine List.forall_mem_cons.mpr ⟨fun k hk => s.pages.map_apply hk, fun l' hl' k hk => ?_⟩
      show s.pages.map l (l'.page + k) = some (l'.frame + k)
      rw [s.pages.map_of_not_mem ((hdis l' hl').not_mem hk)]
      exact h.mapped l' hl' k hk

theorem Refines.next_unmap (h : Refines s) (hl : Legal s (.unmap l)) :
    Refines (next s (.unmap l)) := by
  obtain ⟨htr, hk⟩ := h.unmapped_of_legal hl
  have hpair : (l :: s.live.erase l).Pairwise Mapping.Disjoint :=
    h.disjoint.perm (List.perm_cons_erase hl) Mapping.Disjoint.symm
  obtain ⟨hdis, hrest⟩ := List.pairwise_cons.mp hpair
  refine ⟨hk.inv h.inv, ?_, fun p hp => ?_, fun l' hl' => h.ok l' (List.mem_of_mem_erase hl'),
    fun l' hl' k hkl => ?_, hrest⟩
  · show translate (ipu6MmuUnmap s.mmu l.iova l.size) = fun p =>
      (s.pages.unmap l p).getD (ipu6MmuUnmap s.mmu l.iova l.size).dummyPagePteval
    rw [htr, hk.dummyPage, h.abs, PageMap.unmap_getD]
  · show ((ipu6MmuUnmap s.mmu l.iova l.size).l2Pts (p / 1024)).isSome
    rw [hk.isSome]
    refine h.present p fun hnone => hp ?_
    show overlay s.pages l.page l.count (fun _ => none) p = none
    by_cases hin : l.page ≤ p ∧ p < l.page + l.count
    · rw [overlay_of_mem hin.1 hin.2]
    · rw [overlay_of_not_mem hin, hnone]
  · show s.pages.unmap l (l'.page + k) = some (l'.frame + k)
    rw [s.pages.unmap_of_not_mem ((hdis l' hl').not_mem hkl)]
    exact h.mapped l' (List.mem_of_mem_erase hl') k hkl

theorem refines_reachable (h : Reachable Init Step s) : Refines s := by
  refine h.invariant (fun _ => refines_init) fun s ev s' hr hs => ?_
  obtain ⟨hl, rfl⟩ := hs
  cases ev with
  | map l env => exact hr.next_map hl
  | unmap l => exact hr.next_unmap hl

/-- In every run of maps and unmaps the table is the abstract map, and every
call does to the translation what it should and nothing else. -/
theorem pageTable_refines (h : Reachable Init Step s) :
    TableOk s ∧ ∀ ev, Legal s ev → StepOk s ev :=
  ⟨(refines_reachable h).tableOk, fun _ hl => (refines_reachable h).stepOk hl⟩

/-- Two pages on either side of the first 4 MiB boundary, on a table that has
neither L2 table yet. -/
theorem pageTable_refines_two_tables :
    ∃ m : MmuInfo, Found m ⟨4096 * 1023, 4096 * 7, 4096 * 2⟩ ∧
      deviceWalk m 1024 = some 8 ∧ deviceWalk m 1025 = some m.dummyPagePteval := by
  let l : Mapping := ⟨4096 * 1023, 4096 * 7, 4096 * 2⟩
  have hinit : Init ⟨emptyMmu, fun _ => none, []⟩ :=
    ⟨plainAlloc, mmuAlloc_plainAlloc, emptyMmu_addr, by decide, rfl, rfl⟩
  have hlegal : Legal ⟨emptyMmu, fun _ => none, []⟩ (.map l (plainTables 2)) :=
    ⟨⟨by decide, by decide, by decide, by decide, by decide⟩, fun _ _ => rfl,
      fresh_plainTables (by omega)⟩
  have hok : (ipu6MmuMap emptyMmu (plainTables 2) l.iova l.paddr l.size).2 = none := by
    refine ((refines_init hinit).mapped_of_legal hlegal).can.mpr fun k hk =>
      canTable_plainTables ?_
    have hpage : l.page = 1023 := by decide
    have hcount : l.count = 2 := by decide
    omega
  have hnext : next ⟨emptyMmu, fun _ => none, []⟩ (.map l (plainTables 2)) =
      ⟨(ipu6MmuMap emptyMmu (plainTables 2) l.iova l.paddr l.size).1,
        PageMap.map (fun _ => none) l, [l]⟩ := by
    simp only [next]
    split
    · rename_i h
      rw [h]
    · rename_i h
      rw [h] at hok
      cases hok
  obtain ⟨htable, -⟩ := pageTable_refines (.step (.init hinit) ⟨hlegal, rfl⟩)
  rw [hnext] at htable
  refine ⟨_, htable.found l List.mem_cons_self, ?_, ?_⟩
  · have hpage : PageMap.map (fun _ => none) l 1024 = some 8 := by decide
    simpa only [hpage, Option.getD_some] using htable.walk 1024 (by decide)
  · have hpage : PageMap.map (fun _ => none) l 1025 = none := by decide
    simpa only [hpage, Option.getD_none] using htable.walk 1025 (by decide)

end Ipu4.Mmu
