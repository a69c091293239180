import Ipu4.Mmu.Unmap
import Ipu4.Qemu.Iova

/-!
# The QEMU walker on the driver's page table

`ipu4_iova_to_phys` walks the tables that the driver keeps in guest memory. It takes
an entry of zero for one that maps nothing. The driver never writes such an entry:
what it has not mapped goes to a dummy table and a dummy page, which have frames of
their own.
-/

namespace Ipu4.Qemu

open Mmu
open Runs (Reachable)

-- ---------------------------------------------------------------------------
-- Tables in guest memory
-- ---------------------------------------------------------------------------

/-- Frame `pfn` of guest memory holds a table. -/
def TableIn (mem : Memory) (pfn : Nat) (pte : Nat → Nat) : Prop :=
  ∀ j < 1024, ∃ b, pciDmaRead mem (pfn * 4096 + j * 4) 4 = some b ∧ dword b = pte j

/-- Guest memory holds the driver's tables, each at the address it was mapped at. -/
structure Holds (mem : Memory) (m : MmuInfo) : Prop where
  l1 : TableIn mem m.l1PtDma m.l1Pt
  dummy : TableIn mem m.dummyL2Pteval m.dummyL2Pt
  tables : ∀ i pt, m.l2Pts i = some pt → TableIn mem (pt.dma / 4096) pt.pte

theorem TableIn.readPte (h : TableIn mem pfn pte) (hj : j < 1024) :
    readPte mem pfn j = if pte j = 0 then none else some (pte j) := by
  obtain ⟨b, hread, hval⟩ := h j hj
  simp only [Qemu.readPte, hread, hval]

-- ---------------------------------------------------------------------------
-- What the driver has mapped
-- ---------------------------------------------------------------------------

/-- The physical page of an address; neither entry on the way is the dummy one. -/
def mappedTo (m : MmuInfo) (iova : Nat) : Option Nat :=
  if m.l1Pt (l1Index iova) = m.dummyL2Pteval then none
  else
    match m.l2Pts (l1Index iova) with
    | none => none
    | some pt =>
      if pt.pte (l2Index iova) = m.dummyPagePteval then none
      else some (pt.pte (l2Index iova) * 4096)

/-- The walker finds what the driver has mapped, and nothing else. -/
def WalkerAgrees (mem : Memory) (m : MmuInfo) (iova : Nat) : Prop :=
  ipu4IovaToPhys mem m.l1PtDma iova = (mappedTo m iova).map (· + iova % 4096)

instance (mem : Memory) (m : MmuInfo) (iova : Nat) : Decidable (WalkerAgrees mem m iova) :=
  inferInstanceAs (Decidable (_ = _))

/-- The entries that stand for nothing are not zero. -/
structure BaseAddrs (m : MmuInfo) : Prop where
  l1 : m.l1PtDma ≠ 0
  dummyL2 : m.dummyL2Pteval ≠ 0
  dummyPage : m.dummyPagePteval ≠ 0

theorem l1Index_eq (h : iova < 2 ^ 32) : l1Index iova = iova / 4096 / 1024 := by
  unfold l1Index
  omega

theorem l2Index_eq (h : iova < 2 ^ 32) : l2Index iova = iova / 4096 % 1024 := by
  have hoff : l2Index iova = l2Index (4096 * (iova / 4096)) := by
    have hshift : ∀ x, (x &&& 0xffffffff003ff000) / 2 ^ 12 = x / 2 ^ 12 &&& 0xffffffff003ff := by
      intro x
      rw [← Nat.shiftRight_eq_div_pow, Nat.shiftRight_and_distrib, Nat.shiftRight_eq_div_pow]
      rfl
    have hpage : 4096 * (iova / 4096) / 2 ^ 12 = iova / 2 ^ 12 := by omega
    unfold l2Index
    rw [hshift, hshift, hpage]
  rw [hoff, l2Index_page (by omega)]

theorem mappedTo_eq (hi : Mmu.Inv m) (h : iova < 2 ^ 32) :
    mappedTo m iova = if Mmu.translate m (iova / 4096) = m.dummyPagePteval then none
      else some (Mmu.translate m (iova / 4096) * 4096) := by
  unfold mappedTo Mmu.translate
  rw [l1Index_eq h, l2Index_eq h]
  cases htab : m.l2Pts (iova / 4096 / 1024) with
  | none => simp [hi.empty _ htab]
  | some pt => rw [if_neg (hi.frame_ne htab)]

theorem frame_eq (hi : Mmu.Inv m) (hb : BaseAddrs m) (hm : Holds mem m) (hp : p < 2 ^ 20) :
    frame mem m.l1PtDma p = if Mmu.translate m p = 0 then none else some (Mmu.translate m p) := by
  unfold frame
  rw [if_neg hb.l1, Nat.mod_eq_of_lt (by omega), hm.l1.readPte (by omega)]
  unfold Mmu.translate
  cases htab : m.l2Pts (p / 1024) with
  | none =>
    rw [hi.empty _ htab, if_neg hb.dummyL2, Option.bind_some,
      hm.dummy.readPte (Nat.mod_lt _ (by decide)), hi.dummyTable]
  | some pt =>
    have hdma := (hi.addr _ pt htab).1
    have hpos := hdma.pos
    have hal := hdma.aligned
    rw [hi.entry _ pt htab, if_neg (by omega), Option.bind_some,
      (hm.tables _ pt htab).readPte (Nat.mod_lt _ (by decide))]

theorem walkerAgrees_iff (hi : Mmu.Inv m) (hb : BaseAddrs m) (hm : Holds mem m) (h : iova < 2 ^ 32) :
    WalkerAgrees mem m iova ↔ ∃ page, mappedTo m iova = some page ∧ page ≠ 0 := by
  unfold WalkerAgrees
  rw [ipu4IovaToPhys_eq, frame_eq hi hb hm (by omega), mappedTo_eq hi h]
  generalize Mmu.translate m (iova / 4096) = f
  by_cases hd : f = m.dummyPagePteval
  · have hne : f ≠ 0 := hd ▸ hb.dummyPage
    simp [hd, hd ▸ hne]
  · by_cases hz : f = 0
    · subst hz
      simp [hd]
    · have hpos : f * 4096 ≠ 0 := by omega
      simp [hd, hz, hpos]

-- ---------------------------------------------------------------------------
-- Every table the driver can build
-- ---------------------------------------------------------------------------

/-- The addresses of the three pages of `ipu6_mmu_alloc` stay. -/
structure SameBase (m m' : MmuInfo) : Prop where
  l1 : m'.l1PtDma = m.l1PtDma
  dummyL2 : m'.dummyL2Pteval = m.dummyL2Pteval
  dummyPage : m'.dummyPagePteval = m.dummyPagePteval

theorem SameBase.addrs (h : SameBase m m') (hb : BaseAddrs m) : BaseAddrs m' :=
  ⟨h.l1 ▸ hb.l1, h.dummyL2 ▸ hb.dummyL2, h.dummyPage ▸ hb.dummyPage⟩

theorem sameBase_of_grown (h : Grown env m m' moves) : SameBase m m' :=
  ⟨h.l1PtDma, h.dummyL2, h.ext.dummyPage⟩

theorem hwInit_sameBase {s : Ipu6Mmu} (hi : Mmu.Inv s.info)
    (hslots : ∀ i ≥ l1ptPtes, s.info.l2Pts i = none) (hf : Fresh s.info env.tables)
    (mmuHw : List MmuHw) : SameBase s.info (ipu6MmuHwInit s mmuHw env).1.info := by
  have hsame : SameBase s.info s.info := ⟨rfl, rfl, rfl⟩
  unfold ipu6MmuHwInit
  split
  · exact hsame
  split
  · exact hsame
  split
  · exact hsame
  next page _ =>
    have hcase := allocateTrashBuffer_cases (s := { s with trashPage := some page }) hi hslots hf
    generalize allocateTrashBuffer { s with trashPage := some page } env = r at hcase ⊢
    generalize allocateTrashBufferMoves { s with trashPage := some page } env = moves at hcase
    cases hcase with
    | early err => exact hsame
    | buffer dma iovad _ hgrown => exact sameBase_of_grown hgrown
    | back err dma iovad hgrown => exact sameBase_of_grown hgrown

theorem call_sameBase {s : Ipu6Mmu} (c : Call) (hi : Mmu.Inv s.info)
    (hslots : ∀ i ≥ l1ptPtes, s.info.l2Pts i = none) (ha : c.Answers s) :
    SameBase s.info (c.run s).info := by
  cases c with
  | hwInit mmuHw env => exact hwInit_sameBase hi hslots ha.1 mmuHw
  | map env iova paddr size => exact sameBase_of_grown (grown_mmuMap iova paddr size hi ha hslots)
  | unmap iova size =>
    have hk := (written_mmuUnmap s.info iova size).kept
    exact ⟨hk.l1PtDma, hk.dummyL2, hk.dummyPage⟩

theorem baseAddrs_begins (h : Life.Begins l) : BaseAddrs l.mmu.info := by
  obtain ⟨env, hinit, haddr, -⟩ := h
  simp only [ipu6MmuInit, Option.bind_eq_bind, Option.bind_eq_some_iff, Option.pure_def,
    Option.some.injEq] at hinit
  obtain ⟨info, halloc, _, -, _, -, _, -, hmmu⟩ := hinit
  have hinfo : l.mmu.info = info := by rw [← hmmu]
  rw [hinfo] at haddr ⊢
  simp only [ipu6MmuAlloc, Option.bind_eq_bind, Option.bind_eq_some_iff, Prod.exists,
    Option.pure_def] at halloc
  obtain ⟨-, -, page, dma, -, l2Page, l2Dma, -, -, -, l1Page, l1Dma, -, hm⟩ := halloc
  have hm := Option.some.inj hm
  have hmaps : info.maps = [l1Dma, l2Dma, dma] := by rw [← hm]
  have hne : ∀ a ∈ info.maps, a / 4096 % 2 ^ 32 ≠ 0 := by
    intro a ha
    have hpos := (haddr a ha).pos
    have hal := (haddr a ha).aligned
    have hbound := (haddr a ha).bound
    omega
  rw [← hm]
  exact ⟨hne l1Dma (by simp [hmaps]), hne l2Dma (by simp [hmaps]), hne dma (by simp [hmaps])⟩

theorem baseAddrs_reachable (h : Reachable Life.Begins Life.Step l) : BaseAddrs l.mmu.info := by
  have hboth : Alive l ∧ BaseAddrs l.mmu.info := by
    refine h.invariant (I := fun l => Alive l ∧ BaseAddrs l.mmu.info)
      (fun _ hb => ⟨.begins hb, baseAddrs_begins hb⟩) ?_
    rintro l c l' ⟨halive, hbase⟩ hs
    refine ⟨halive.step hs, ?_⟩
    obtain ⟨ha, rfl⟩ := hs
    exact (call_sameBase c halive.inv halive.slots ha).addrs hbase
  exact hboth.2

/-- On every table the driver can have built, the walker agrees with the driver at
an address if and only if its page is mapped, and not to the physical page 0. -/
theorem walker_agrees_iff_mapped (h : Reachable Life.Begins Life.Step l)
    (hm : Holds mem l.mmu.info) (hiova : iova < 2 ^ 32) :
    WalkerAgrees mem l.mmu.info iova ↔
      ∃ page, mappedTo l.mmu.info iova = some page ∧ page ≠ 0 :=
  walkerAgrees_iff (alive_reachable h).inv (baseAddrs_reachable h) hm hiova

-- ---------------------------------------------------------------------------
-- A table in memory
-- ---------------------------------------------------------------------------

/-- Guest memory with a table in some of its frames. -/
def tableMemory (table : Nat → Option (Nat → Nat)) : Memory where
  byte := fun a =>
    match table (a / 4096) with
    | none => 0
    | some pte => UInt8.ofNat (pte (a % 4096 / 4) / 256 ^ (a % 4))
  backed := fun _ => true

theorem tableIn_tableMemory (h : table pfn = some pte) (hpte : ∀ j < 1024, pte j < 2 ^ 32) :
    TableIn (tableMemory table) pfn pte := by
  intro j hj
  have hbyte : ∀ k < 4, (tableMemory table).byte (pfn * 4096 + j * 4 + k) =
      UInt8.ofNat (pte j / 256 ^ k) := by
    intro k hk
    have hframe : (pfn * 4096 + j * 4 + k) / 4096 = pfn := by omega
    have hidx : (pfn * 4096 + j * 4 + k) % 4096 / 4 = j := by omega
    have hmod : (pfn * 4096 + j * 4 + k) % 4 = k := by omega
    simp only [tableMemory, hframe, hidx, hmod, h]
  refine ⟨(List.range 4).map fun k => UInt8.ofNat (pte j / 256 ^ k), ?_, ?_⟩
  · have hall : (tableMemory table).allBacked (pfn * 4096 + j * 4) 4 = true := by
      simp [Memory.allBacked, tableMemory]
    unfold pciDmaRead
    rw [if_pos hall, Option.some.injEq]
    exact List.map_congr_left fun k hk => hbyte k (List.mem_range.mp hk)
  · have hlt := hpte j hj
    simp [dword, List.range_succ]
    omega

/-- The tables of `onePage` by frame. -/
def onePageTable (pfn : Nat) : Option (Nat → Nat) :=
  let m := onePage.mmu.info
  if pfn = 12 then some m.l1Pt
  else if pfn = 11 then some m.dummyL2Pt
  else if pfn = 21 then (m.l2Pts 1).map L2Pt.pte
  else none

theorem translate_onePage_lt (p : Nat) : Mmu.translate onePage.mmu.info p < 2 ^ 32 := by
  have hdummy : emptyMmu.dummyPagePteval = 10 := by decide +kernel
  rw [translate_onePage]
  by_cases hp : 1024 ≤ p ∧ p < 1024 + 1
  · rw [Overlay.overlay_of_mem hp.1 hp.2]
    omega
  · rw [Overlay.overlay_of_not_mem hp]
    simp only [Mmu.translate, inv_emptyMmu.2, hdummy]
    decide

theorem l2Pts_onePage (h : onePage.mmu.info.l2Pts i = some pt) : i = 1 ∧ pt.dma / 4096 = 21 := by
  have honly : ∀ i < 1024, i ≠ 1 → (onePage.mmu.info.l2Pts i).isNone := by decide +kernel
  have hdma : (onePage.mmu.info.l2Pts 1).map (fun pt => pt.dma / 4096) = some 21 := by
    decide +kernel
  have hlt : i < 1024 := by
    by_contra hge
    rw [(alive_reachable reachable_onePage).slots i (Nat.not_lt.mp hge)] at h
    cases h
  obtain rfl : i = 1 := by
    by_contra hne
    have hnone := honly i hlt hne
    rw [h] at hnone
    cases hnone
  rw [h] at hdma
  exact ⟨rfl, Option.some.inj hdma⟩

theorem holds_onePage : Holds (tableMemory onePageTable) onePage.mmu.info where
  l1 := by
    refine tableIn_tableMemory rfl fun j _ => ?_
    have hi := (alive_reachable reachable_onePage).inv
    cases htab : onePage.mmu.info.l2Pts j with
    | none =>
      rw [hi.empty j htab]
      decide +kernel
    | some pt =>
      rw [hi.entry j pt htab, (l2Pts_onePage htab).2]
      decide
  dummy := by
    refine tableIn_tableMemory rfl fun j _ => ?_
    rw [(alive_reachable reachable_onePage).inv.dummyTable]
    decide +kernel
  tables := fun i pt hpt => by
    obtain ⟨rfl, hdma⟩ := l2Pts_onePage hpt
    rw [hdma]
    refine tableIn_tableMemory ?_ fun j hj => ?_
    · show (onePage.mmu.info.l2Pts 1).map L2Pt.pte = some pt.pte
      rw [hpt]
      rfl
    · have hlt := translate_onePage_lt (1024 * 1 + j)
      have hdiv : (1024 * 1 + j) / 1024 = 1 := by omega
      have hmod : (1024 * 1 + j) % 1024 = j := by omega
      simpa only [Mmu.translate, hdiv, hmod, hpt] using hlt

/-- Byte 5 of the page that is mapped. -/
theorem walker_agrees_on_mapped_page :
    WalkerAgrees (tableMemory onePageTable) onePage.mmu.info (4096 * 1024 + 5) :=
  (walker_agrees_iff_mapped reachable_onePage holds_onePage (by decide)).mpr
    ⟨4096 * 50, by decide +kernel, by decide⟩

/-- Address 0, which is not mapped: the walker gives the dummy page. -/
theorem walker_finds_dummy_page :
    ∃ l mem, Reachable Life.Begins Life.Step l ∧ Holds mem l.mmu.info ∧
      mappedTo l.mmu.info 0 = none ∧ ¬ WalkerAgrees mem l.mmu.info 0 :=
  ⟨onePage, tableMemory onePageTable, reachable_onePage, holds_onePage, by decide +kernel, by decide +kernel⟩

end Ipu4.Qemu
