import Mathlib.Data.Option.Basic
import Ipu4.Lib.Overlay
import Ipu4.Mmu.Table

/-!
# Walking the page table

`translate` is the frame a page goes to, `deviceWalk` the walk of the device
through the entries of `l1_pt`. The invariant `Inv` keeps `l1_pt` and
`l2_pts` in step, and under it both walks agree (`deviceWalk_eq`). Writing
one entry changes the translation of one page (`translate_setPte`).
-/

namespace Ipu4.Mmu

/-- The frame of page `p`; a page without a table goes to the dummy page. -/
def translate (m : MmuInfo) (p : Nat) : Nat :=
  match m.l2Pts (p / 1024) with
  | none => m.dummyPagePteval
  | some pt => pt.pte (p % 1024)

/-- The L2 table the device finds at a page frame. -/
def tableAt (m : MmuInfo) (frame : Nat) : Option (Nat → Nat) :=
  if frame = m.dummyL2Pteval then some m.dummyL2Pt
  else (List.range l1ptPtes).findSome? fun i =>
    (m.l2Pts i).bind fun pt => if pt.dma / 4096 = frame then some pt.pte else none

def deviceWalk (m : MmuInfo) (p : Nat) : Option Nat :=
  (tableAt m (m.l1Pt (p / 1024))).map fun pte => pte (p % 1024)

-- ---------------------------------------------------------------------------
-- The invariant
-- ---------------------------------------------------------------------------

/-- Addresses of page tables: nonzero, of a whole page, within the 39 bits
the driver sets as the DMA mask. -/
structure DmaAddr (a : Nat) : Prop where
  pos : 0 < a
  aligned : a % 4096 = 0
  bound : a < 2 ^ 39

structure Inv (m : MmuInfo) : Prop where
  pgsize : m.pgsizeBitmap = 4096
  dummyTable : ∀ j, m.dummyL2Pt j = m.dummyPagePteval
  dummyMapped : m.dummyL2Pteval * 4096 ∈ m.maps
  empty : ∀ i, m.l2Pts i = none → m.l1Pt i = m.dummyL2Pteval
  entry : ∀ i pt, m.l2Pts i = some pt → m.l1Pt i = pt.dma / 4096
  addr : ∀ i pt, m.l2Pts i = some pt →
    DmaAddr pt.dma ∧ pt.dma ∈ m.maps ∧ pt.dma ≠ m.dummyL2Pteval * 4096
  distinct : ∀ i j pt pt', m.l2Pts i = some pt → m.l2Pts j = some pt' → pt.dma = pt'.dma → i = j

theorem DmaAddr.eq_of_frame (ha : DmaAddr a) (hb : b % 4096 = 0) (h : a / 4096 = b / 4096) :
    a = b := by
  have := ha.aligned
  omega

theorem Inv.frame_ne (hi : Inv m) (h : m.l2Pts i = some pt) : m.l1Pt i ≠ m.dummyL2Pteval := by
  obtain ⟨haddr, -, hne⟩ := hi.addr i pt h
  have hal := haddr.aligned
  rw [hi.entry i pt h]
  omega

theorem Inv.l1Pt_eq_dummy_iff (hi : Inv m) (i : Nat) :
    m.l1Pt i = m.dummyL2Pteval ↔ m.l2Pts i = none := by
  constructor
  · intro heq
    cases h : m.l2Pts i with
    | none => rfl
    | some pt => exact absurd heq (hi.frame_ne h)
  · exact hi.empty i

theorem tableAt_of_some (hi : Inv m) (hlt : i < 1024) (h : m.l2Pts i = some pt) :
    tableAt m (pt.dma / 4096) = some pt.pte := by
  have hne : pt.dma / 4096 ≠ m.dummyL2Pteval := hi.entry i pt h ▸ hi.frame_ne h
  have hfound : ((List.range l1ptPtes).findSome? fun j => (m.l2Pts j).bind fun q =>
      if q.dma / 4096 = pt.dma / 4096 then some q.pte else none).isSome := by
    rw [List.findSome?_isSome_iff]
    exact ⟨i, List.mem_range.mpr hlt, by simp [h]⟩
  obtain ⟨pte, hpte⟩ := Option.isSome_iff_exists.mp hfound
  unfold tableAt
  rw [if_neg hne, hpte]
  -- the index found is `i`: no other table has this address
  obtain ⟨j, -, hj⟩ := List.exists_of_findSome?_eq_some hpte
  obtain ⟨q, hq, hqpte⟩ := Option.bind_eq_some_iff.mp hj
  split at hqpte
  · rename_i hframe
    have hal := (hi.addr i pt h).1.aligned
    have hdma : q.dma = pt.dma := (hi.addr j q hq).1.eq_of_frame hal hframe
    obtain rfl := hi.distinct j i q pt hq h hdma
    obtain rfl : q = pt := Option.some.inj (hq.symm.trans h)
    exact hqpte.symm
  · cases hqpte

theorem deviceWalk_eq (hi : Inv m) (hp : p < 2 ^ 20) : deviceWalk m p = some (translate m p) := by
  unfold deviceWalk translate
  cases h : m.l2Pts (p / 1024) with
  | none =>
    simp [hi.empty _ h, tableAt, hi.dummyTable]
  | some pt =>
    rw [hi.entry _ pt h, tableAt_of_some hi (by omega) h]
    rfl

theorem inv_mmuAlloc (h : ipu6MmuAlloc env = some m) (haddr : ∀ a ∈ m.maps, DmaAddr a) :
    Inv m ∧ ∀ i, m.l2Pts i = none := by
  simp only [ipu6MmuAlloc, Option.bind_eq_bind, Option.bind_eq_some_iff, Prod.exists,
    Option.pure_def] at h
  obtain ⟨-, -, page, dma, -, l2Page, l2Dma, -, -, -, l1Page, l1Dma, -, hm⟩ := h
  have hm := Option.some.inj hm
  have hmaps : m.maps = [l1Dma, l2Dma, dma] := by rw [← hm]
  have hdummy : m.dummyL2Pteval * 4096 = l2Dma := by
    have hl2 : DmaAddr l2Dma := haddr _ (by simp [hmaps])
    have := hl2.aligned
    have := hl2.bound
    rw [← hm]
    show l2Dma / 4096 % 2 ^ 32 * 4096 = l2Dma
    omega
  have htables : ∀ i, m.l2Pts i = none := fun i => by rw [← hm]
  refine ⟨⟨by rw [← hm], fun j => by rw [← hm], ?_, fun i _ => by rw [← hm], ?_, ?_, ?_⟩, htables⟩
  · rw [hdummy, hmaps]
    simp
  · simp [htables]
  · simp [htables]
  · simp [htables]

-- ---------------------------------------------------------------------------
-- Indices
-- ---------------------------------------------------------------------------

theorem l1Index_page (hp : p ≤ 2 ^ 20) : l1Index (4096 * p) = p / 1024 := by
  unfold l1Index
  omega

theorem l2Index_page (hp : p < 2 ^ 20) : l2Index (4096 * p) = p % 1024 := by
  have hshift : (4096 * p &&& 0xffffffff003ff000) / 2 ^ 12 = p &&& 0xffffffff003ff := by
    rw [← Nat.shiftRight_eq_div_pow, Nat.shiftRight_and_distrib, Nat.shiftRight_eq_div_pow]
    congr 1
    omega
  have hmask : p &&& 0xffffffff003ff = p % 1024 := by
    calc p &&& 0xffffffff003ff = p % 2 ^ 20 &&& 0xffffffff003ff := by rw [Nat.mod_eq_of_lt hp]
      _ = p &&& (2 ^ 20 - 1) &&& 0xffffffff003ff := by rw [Nat.and_two_pow_sub_one_eq_mod]
      _ = p &&& (2 ^ 10 - 1) := by rw [Nat.and_assoc]; rfl
      _ = p % 1024 := Nat.and_two_pow_sub_one_eq_mod p 10
  unfold l2Index
  rw [hshift, hmask]
  omega

theorem minPagesz_eq (hi : Inv m) : minPagesz m = 4096 := by
  unfold minPagesz
  rw [hi.pgsize]
  rfl

theorem isAligned_page (x : Nat) : isAligned x 4096 = true ↔ x % 4096 = 0 := by
  have hand : x &&& (4096 - 1) = x % 2 ^ 12 := Nat.and_two_pow_sub_one_eq_mod x 12
  simp [isAligned, hand]

theorem or_mod_page (x y : Nat) : (x ||| y) % 4096 = 0 ↔ x % 4096 = 0 ∧ y % 4096 = 0 := by
  have hor : (x ||| y) % 2 ^ 12 = x % 2 ^ 12 ||| y % 2 ^ 12 := Nat.or_mod_two_pow
  rw [show 4096 = 2 ^ 12 from rfl, hor, Nat.or_eq_zero_iff]

theorem iovaToPhys_page (hp : p < 2 ^ 20) (h : (m.l2Pts (p / 1024)).isSome) :
    ipu6MmuIovaToPhys m (4096 * p) = some (4096 * translate m p) := by
  obtain ⟨pt, hpt⟩ := Option.isSome_iff_exists.mp h
  have hidx : 4096 * p / 2 ^ 22 = p / 1024 := by omega
  simp only [ipu6MmuIovaToPhys, hidx, hpt, l2Index_page hp, translate, Option.map_some]
  rw [Nat.mul_comm]

-- ---------------------------------------------------------------------------
-- Writing entries
-- ---------------------------------------------------------------------------

/-- Writing entries keeps everything but the contents of the tables. -/
structure Kept (m m' : MmuInfo) : Prop where
  l1Pt : m'.l1Pt = m.l1Pt
  dummyL2Pt : m'.dummyL2Pt = m.dummyL2Pt
  dummyL2 : m'.dummyL2Pteval = m.dummyL2Pteval
  dummyPage : m'.dummyPagePteval = m.dummyPagePteval
  aperture : m'.apertureEnd = m.apertureEnd
  pgsize : m'.pgsizeBitmap = m.pgsizeBitmap
  maps : m'.maps = m.maps
  pages : m'.pages = m.pages
  l1PtDma : m'.l1PtDma = m.l1PtDma
  tables : ∀ i, (m'.l2Pts i).map L2Pt.dma = (m.l2Pts i).map L2Pt.dma

theorem Kept.refl (m : MmuInfo) : Kept m m := ⟨rfl, rfl, rfl, rfl, rfl, rfl, rfl, rfl, rfl, fun _ => rfl⟩

theorem Kept.trans (h₁ : Kept m m₁) (h₂ : Kept m₁ m₂) : Kept m m₂ where
  l1Pt := h₂.l1Pt.trans h₁.l1Pt
  dummyL2Pt := h₂.dummyL2Pt.trans h₁.dummyL2Pt
  dummyL2 := h₂.dummyL2.trans h₁.dummyL2
  dummyPage := h₂.dummyPage.trans h₁.dummyPage
  aperture := h₂.aperture.trans h₁.aperture
  pgsize := h₂.pgsize.trans h₁.pgsize
  maps := h₂.maps.trans h₁.maps
  pages := h₂.pages.trans h₁.pages
  l1PtDma := h₂.l1PtDma.trans h₁.l1PtDma
  tables := fun i => (h₂.tables i).trans (h₁.tables i)

theorem Kept.isSome (h : Kept m m') (i : Nat) : (m'.l2Pts i).isSome = (m.l2Pts i).isSome := by
  have := congrArg Option.isSome (h.tables i)
  simpa using this

theorem Kept.none_iff (h : Kept m m') (i : Nat) : m'.l2Pts i = none ↔ m.l2Pts i = none := by
  have := h.isSome i
  cases h₁ : m'.l2Pts i <;> cases h₂ : m.l2Pts i <;> simp_all

theorem Kept.some (h : Kept m m') (hs : m'.l2Pts i = some pt) :
    ∃ q, m.l2Pts i = some q ∧ q.dma = pt.dma := by
  have ht := h.tables i
  rw [hs] at ht
  simpa using ht.symm

theorem Kept.inv (h : Kept m m') (hi : Inv m) : Inv m' where
  pgsize := h.pgsize ▸ hi.pgsize
  dummyTable := fun j => by rw [h.dummyL2Pt, h.dummyPage]; exact hi.dummyTable j
  dummyMapped := by rw [h.dummyL2, h.maps]; exact hi.dummyMapped
  empty := fun i hn => by rw [h.l1Pt, h.dummyL2]; exact hi.empty i ((h.none_iff i).mp hn)
  entry := fun i pt hs => by
    obtain ⟨q, hq, hdma⟩ := h.some hs
    rw [h.l1Pt, hi.entry i q hq, hdma]
  addr := fun i pt hs => by
    obtain ⟨q, hq, hdma⟩ := h.some hs
    rw [h.maps, h.dummyL2, ← hdma]
    exact hi.addr i q hq
  distinct := fun i j pt pt' hs hs' heq => by
    obtain ⟨q, hq, hdma⟩ := h.some hs
    obtain ⟨q', hq', hdma'⟩ := h.some hs'
    exact hi.distinct i j q q' hq hq' (by rw [hdma, hdma', heq])

theorem kept_setPte (m : MmuInfo) (i j v : Nat) : Kept m (m.setPte i j v) := by
  refine ⟨rfl, rfl, rfl, rfl, rfl, rfl, rfl, rfl, rfl, fun k => ?_⟩
  simp only [MmuInfo.setPte]
  by_cases hk : k = i
  · subst hk
    simp only [Function.update_self, Option.map_map]
    rfl
  · rw [Function.update_of_ne hk]

theorem translate_setPte (h : (m.l2Pts i).isSome) (hj : j < 1024) :
    translate (m.setPte i j v) = Function.update (translate m) (1024 * i + j) v := by
  obtain ⟨pt, hpt⟩ := Option.isSome_iff_exists.mp h
  funext p
  by_cases hp : p = 1024 * i + j
  · subst hp
    have hdiv : (1024 * i + j) / 1024 = i := by omega
    have hmod : (1024 * i + j) % 1024 = j := by omega
    simp [translate, MmuInfo.setPte, hdiv, hmod, hpt]
  · rw [Function.update_of_ne hp]
    by_cases hi : p / 1024 = i
    · have hmod : p % 1024 ≠ j := by omega
      simp [translate, MmuInfo.setPte, hi, hpt, Function.update_of_ne hmod]
    · simp [translate, MmuInfo.setPte, Function.update_of_ne hi]

end Ipu4.Mmu
