import Ipu4.Dma.Tlb
import Ipu4.Mmu.Tables
import Ipu4.Qemu.Walker

/-!
# The driver's tables in guest memory

The page tables of the driver are pages of guest memory. What a call of the driver writes
to them is there after the call, and a table that it adds is in a page that the kernel
has given it for that.
-/

namespace Ipu4.Qemu

open Mmu

/-- The table at a frame, the L1 table included. -/
def tableOf (m : MmuInfo) (pfn : Nat) : Option (Nat → Nat) :=
  if pfn = m.l1PtDma then some m.l1Pt else tableAt m pfn

/-- Guest memory with the tables written to it. -/
def Memory.withTables (mem : Memory) (m : MmuInfo) : Memory :=
  { mem with byte := fun a =>
      match tableOf m (a / 4096) with
      | some pte => UInt8.ofNat (pte (a % 4096 / 4) / 256 ^ (a % 4))
      | none => mem.byte a }

/-- Tables in frames of their own, with entries of 32 bits. -/
structure OwnFrames (mem : Memory) (m : MmuInfo) : Prop where
  slots : ∀ i ≥ 1024, m.l2Pts i = none
  mapped : m.l1PtDma * 4096 ∈ m.maps
  dummy : m.l1PtDma ≠ m.dummyL2Pteval
  tables : ∀ i pt, m.l2Pts i = some pt → pt.dma / 4096 ≠ m.l1PtDma
  backed : ∀ f, (tableOf m f).isSome → ∀ o < 4096, mem.backed (f * 4096 + o) = true
  l1 : ∀ j < 1024, m.l1Pt j < 2 ^ 32
  frames : ∀ p < 2 ^ 20, translate m p < 2 ^ 32
  dummyPage : m.dummyPagePteval < 2 ^ 32

section
variable {mem mem' : Memory} {m m' : MmuInfo}

theorem TableIn.congr (h : TableIn mem pfn pte) (hb : ∀ o < 4096, mem'.backed (pfn * 4096 + o) = true)
    (hsame : ∀ a, a / 4096 = pfn → mem'.byte a = mem.byte a) : TableIn mem' pfn pte := by
  intro j hj
  obtain ⟨b, hread, hval⟩ := h j hj
  refine ⟨b, ?_, hval⟩
  have hall : mem'.allBacked (pfn * 4096 + j * 4) 4 = true := by
    simp only [Memory.allBacked, List.all_eq_true, List.mem_range]
    intro k hk
    rw [Nat.add_assoc]
    exact hb _ (by omega)
  rw [← hread, pciDmaRead, pciDmaRead, if_pos hall]
  split
  · exact congrArg some (List.map_congr_left fun k hk => hsame _ (by have := List.mem_range.mp hk; omega))
  · next hno =>
    rw [pciDmaRead, if_neg hno] at hread
    cases hread

theorem tableOf_l1 (m : MmuInfo) : tableOf m m.l1PtDma = some m.l1Pt := if_pos rfl

theorem OwnFrames.tableOf_dummy (h : OwnFrames mem m) : tableOf m m.dummyL2Pteval = some m.dummyL2Pt := by
  rw [tableOf, if_neg h.dummy.symm, tableAt, if_pos rfl]

theorem OwnFrames.lt (h : OwnFrames mem m) (ht : m.l2Pts i = some pt) : i < 1024 := by
  by_contra hge
  rw [h.slots i (Nat.not_lt.mp hge)] at ht
  cases ht

theorem OwnFrames.tableOf_some (h : OwnFrames mem m) (hi : Mmu.Inv m) (ht : m.l2Pts i = some pt) :
    tableOf m (pt.dma / 4096) = some pt.pte := by
  rw [tableOf, if_neg (h.tables i pt ht), tableAt_of_some hi (h.lt ht) ht]

theorem tableOf_cases (h : (tableOf m f).isSome) :
    f = m.l1PtDma ∨ f = m.dummyL2Pteval ∨ ∃ i pt, m.l2Pts i = some pt ∧ pt.dma / 4096 = f := by
  unfold tableOf tableAt at h
  split at h
  · next hl1 => exact .inl hl1
  split at h
  · next hdummy => exact .inr (.inl hdummy)
  obtain ⟨i, -, hi⟩ := List.findSome?_isSome_iff.mp h
  obtain ⟨pte, hpte⟩ := Option.isSome_iff_exists.mp hi
  obtain ⟨pt, hpt, hval⟩ := Option.bind_eq_some_iff.mp hpte
  split at hval
  · next heq => exact .inr (.inr ⟨i, pt, hpt, heq⟩)
  · cases hval

theorem byte_withTables (h : tableOf m (a / 4096) = none) : (mem.withTables m).byte a = mem.byte a := by
  simp only [Memory.withTables, h]

theorem tableIn_withTables (h : OwnFrames mem m) (ht : tableOf m pfn = some pte)
    (hpte : ∀ j < 1024, pte j < 2 ^ 32) :
    TableIn (mem.withTables m) pfn pte := by
  have hplain : TableIn (tableMemory (tableOf m)) pfn pte := tableIn_tableMemory ht hpte
  refine hplain.congr (h.backed pfn (by rw [ht]; rfl)) fun a ha => ?_
  simp only [Memory.withTables, tableMemory, ha, ht]

theorem holds_withTables (hi : Mmu.Inv m) (h : OwnFrames mem m) : Holds (mem.withTables m) m where
  l1 := tableIn_withTables h (tableOf_l1 m) h.l1
  dummy := tableIn_withTables h h.tableOf_dummy fun j _ => by
    rw [hi.dummyTable]
    exact h.dummyPage
  tables i pt hpt := by
    refine tableIn_withTables h (h.tableOf_some hi hpt) fun j hj => ?_
    have hlt := h.lt hpt
    have hdiv : (1024 * i + j) / 1024 = i := by omega
    have hmod : (1024 * i + j) % 1024 = j := by omega
    simpa only [Mmu.translate, hdiv, hmod, hpt] using h.frames (1024 * i + j) (by omega)

theorem Holds.congr (h : Holds mem m) (hi : Mmu.Inv m) (ho : OwnFrames mem m) (hb : mem'.backed = mem.backed)
    (hsame : ∀ a, (tableOf m (a / 4096)).isSome → mem'.byte a = mem.byte a) : Holds mem' m := by
  have htable : ∀ pfn pte, (tableOf m pfn).isSome → TableIn mem pfn pte → TableIn mem' pfn pte := by
    intro pfn pte hsome ht
    refine ht.congr (fun o hlt => ?_) fun a ha => hsame a (ha ▸ hsome)
    rw [hb]
    exact ho.backed pfn hsome o hlt
  exact ⟨htable _ _ (by rw [tableOf_l1]; rfl) h.l1, htable _ _ (by rw [ho.tableOf_dummy]; rfl) h.dummy,
    fun i pt hpt => htable _ _ (by rw [ho.tableOf_some hi hpt]; rfl) (h.tables i pt hpt)⟩

end

-- ---------------------------------------------------------------------------
-- Tables that a call adds
-- ---------------------------------------------------------------------------

/-- From `m` to `m'` tables may have been added, where `env` says. -/
structure TablesFrom (env : Nat → PageEnv) (m m' : MmuInfo) : Prop where
  ext : Extends env m m'
  l1PtDma : m'.l1PtDma = m.l1PtDma
  dummyL2 : m'.dummyL2Pteval = m.dummyL2Pteval
  slots : ∀ i ≥ 1024, m'.l2Pts i = none
  maps : m.maps ⊆ m'.maps
  tables : ∀ i pt, m'.l2Pts i = some pt → (∃ q, m.l2Pts i = some q ∧ q.dma = pt.dma) ∨
    m.l2Pts i = none ∧ (env i).dmaMapSingle = some pt.dma

section
variable {m m₁ m' : MmuInfo} {env : Nat → PageEnv}

theorem TablesFrom.refl (hi : Mmu.Inv m) (hf : Fresh m env) (hslots : ∀ i ≥ 1024, m.l2Pts i = none) :
    TablesFrom env m m :=
  ⟨.refl hi hf, rfl, rfl, hslots, fun _ => id, fun _ pt hpt => .inl ⟨pt, hpt, rfl⟩⟩

theorem TablesFrom.kept (h : TablesFrom env m m₁) (hk : Mmu.Kept m₁ m') : TablesFrom env m m' where
  ext := h.ext.trans (hk.extends h.ext.inv h.ext.fresh)
  l1PtDma := hk.l1PtDma.trans h.l1PtDma
  dummyL2 := hk.dummyL2.trans h.dummyL2
  slots i hi := (hk.none_iff i).mpr (h.slots i hi)
  maps := by
    rw [hk.maps]
    exact h.maps
  tables i pt hpt := by
    obtain ⟨q, hq, hdma⟩ := hk.some hpt
    rw [← hdma]
    exact h.tables i q hq

theorem TablesFrom.table (h : TablesFrom env m m₁) (hlt : i < 1024) :
    TablesFrom env m (l2MapTable m₁ env i).1 := by
  have hcase := l2MapTable_cases h.ext.inv env i
  generalize (l2MapTable m₁ env i).1 = m', (l2MapTable m₁ env i).2 = e at hcase
  cases hcase with
  | found => exact h
  | noPage => exact h
  | noMapping => exact h
  | added page a hn hpage ha hne =>
    have hcan : CanTable m₁ env i := .inr ⟨by simp [hpage], by simpa [mapSingle, ha] using hne⟩
    have hold : m.l2Pts i = none := by
      by_contra hsome
      have hkept := h.ext.tables i (Option.isSome_iff_ne_none.mpr hsome)
      rw [hn] at hkept
      cases hkept
    refine ⟨h.ext.trans (extends_addTable h.ext.inv h.ext.fresh hn hcan ha), h.l1PtDma, h.dummyL2,
      fun j hj => ?_, fun b hb => List.mem_cons_of_mem _ (h.maps hb), fun j pt hpt => ?_⟩
    · rw [l2Pts_addTable_of_ne (by omega)]
      exact h.slots j hj
    · by_cases hji : j = i
      · subst hji
        rw [l2Pts_addTable] at hpt
        obtain rfl := Option.some.inj hpt
        exact .inr ⟨hold, ha⟩
      · rw [l2Pts_addTable_of_ne hji] at hpt
        exact h.tables j pt hpt

end

section
variable {d d' : Dma.Ipu6Mmu} {env : Dma.AllocEnv} {P : MmuInfo → Prop}

theorem keeps_allocMapLoop (htable : ∀ m i, i < 1024 → P m → P (l2MapTable m env.tables i).1)
    (hkept : ∀ m m', Mmu.Kept m m' → P m → P m') (r : Dma.Iova) (pages : List Nat) (n i : Nat) (h : P d.mmu) :
    P (Dma.allocMapLoop env r pages n i d).1.mmu := by
  induction n generalizing i d with
  | zero => exact h
  | succ n ih =>
    simp only [Dma.allocMapLoop]
    cases env.dmaMapPage i with
    | none => exact h
    | some a =>
      have hmap := mmuMap_keeps htable hkept h (4096 * (r.pfnLo + i)) a 4096
      simp only [Dma.Ipu6Mmu.mapPage]
      generalize ipu6MmuMap d.mmu env.tables (4096 * (r.pfnLo + i)) a 4096 = x at hmap
      obtain ⟨m₁, _ | err⟩ := x
      · exact ih (d := { d.mapPage (pages.getD i 0) a with mmu := m₁ }) _ hmap
      · exact hmap

theorem keeps_outUnmap (hkept : ∀ m m', Mmu.Kept m m' → P m → P m') (h : P d.mmu)
    (hrun : Dma.outUnmap r i d = some d') : P d'.mmu := by
  induction i generalizing d with
  | zero => exact Option.some.inj hrun ▸ h
  | succ i ih =>
    simp only [Dma.outUnmap, Option.bind_eq_bind, Option.bind_eq_some_iff] at hrun
    obtain ⟨x, -, hrun⟩ := hrun
    exact ih (hkept _ _ (written_mmuUnmap _ _ _).kept h) hrun

theorem keeps_dmaAlloc (htable : ∀ m i, i < 1024 → P m → P (l2MapTable m env.tables i).1)
    (hkept : ∀ m m', Mmu.Kept m m' → P m → P m') (h : P d.mmu)
    (hrun : Dma.ipu6DmaAlloc d env size = some (d', r)) : P d'.mmu := by
  rcases Dma.dmaAlloc_cases hrun with ⟨rfl, -⟩ | ⟨lo, acts, -, -, hpath⟩
  · exact h
  · generalize hiova : (⟨lo, lo + Dma.pageAlign64 size / 4096 - 1⟩ : Dma.Iova) = iova at hpath
    have hbuffer := Dma.allocBuffer_cases { d with iovad := iova :: d.iovad } env (Dma.pageAlign64 size)
    have hmmu : ∀ d₁ x, Dma.allocBuffer { d with iovad := iova :: d.iovad } env (Dma.pageAlign64 size) = (d₁, x) →
        d₁.mmu = d.mmu := by
      intro d₁ x heq
      rcases hbuffer with hnone | ⟨pages, -, hsome⟩
      · rw [hnone] at heq
        rw [← (Prod.mk.inj heq).1]
      · rw [hsome] at heq
        rw [← (Prod.mk.inj heq).1]
    cases hpath with
    | noPages _ hbuf =>
      show P _
      rw [hmmu _ _ hbuf]
      exact h
    | buffer _ hbuf hloop =>
      rw [← hmmu _ _ hbuf] at h
      have hend := congrArg (·.1.mmu) hloop
      exact hend ▸ keeps_allocMapLoop htable hkept _ _ _ _ h
    | @back _ pages d₂ i mapped d₃ _ hbuf hloop _ hout =>
      rw [← hmmu _ _ hbuf] at h
      have hend := congrArg (·.1.mmu) hloop
      have hmid : P d₂.mmu := hend ▸ keeps_allocMapLoop htable hkept _ _ _ _ h
      have hback := keeps_outUnmap hkept hmid hout
      exact hback

theorem tablesFrom_dmaAlloc (hi : Mmu.Inv d.mmu) (hf : Fresh d.mmu env.tables)
    (hslots : ∀ i ≥ 1024, d.mmu.l2Pts i = none) (hrun : Dma.ipu6DmaAlloc d env size = some (d', r)) :
    TablesFrom env.tables d.mmu d'.mmu :=
  keeps_dmaAlloc (fun _ _ hlt h => h.table hlt) (fun _ _ hk h => h.kept hk) (.refl hi hf hslots) hrun

end

end Ipu4.Qemu
