import Ipu4.Lib.Holding
import Ipu4.Lib.Runs
import Ipu4.Dma.Buffers

/-!
# The lifetime of an MMU

What `ipu6-mmu.c` takes from the page allocator and the DMA layer between
`ipu6_mmu_alloc` and `ipu6_mmu_cleanup`: the dummy page, the dummy L2 table
and the L1 table at once, L2 tables as ranges are mapped, the trash page with
the first `ipu6_mmu_hw_init` that gets through. Each function has the list of
its moves next to the state it computes. The addresses `ipu6_mmu_destroy`
unmaps are read back out of table entries.
-/

namespace Ipu4.Mmu

open Holding Trace
open Dma (Iova findIova)
open Runs (Reachable)

inductive Res
  | page (n : Nat)
  | dma (a : Nat)
  deriving DecidableEq, Repr

def tblPhysAddr (pteval : Nat) : Nat := pteval * 4096

-- ---------------------------------------------------------------------------
-- Allocation
-- ---------------------------------------------------------------------------

/-- `get_dummy_page`, `alloc_dummy_l2_pt` and `alloc_l1_pt`: a page that
cannot be mapped is freed again. -/
def getMappedPageMoves (env : PageEnv) : List (Move Res) :=
  match env.getZeroedPage with
  | none => []
  | some page =>
    let dma := mapSingle env.dmaMapSingle
    .get (.page page) :: (if dma = 0 then [.put (.page page)] else [.get (.dma dma)])

/-- `free_dummy_page` and `free_dummy_l2_pt`. -/
def freeMappedPageMoves (pteval page : Nat) : List (Move Res) :=
  [.put (.dma (tblPhysAddr pteval)), .put (.page page)]

def mmuAllocMoves (env : AllocEnv) : List (Move Res) :=
  if !env.kzalloc then []
  else
    getMappedPageMoves env.dummyPage ++
      match getMappedPage env.dummyPage with
      | none => []
      | some (page, dma) =>
        getMappedPageMoves env.dummyL2 ++
          match getMappedPage env.dummyL2 with
          | none => freeMappedPageMoves (dma / 4096 % 2 ^ 32) page
          | some (l2Page, l2Dma) =>
            if !env.vzalloc then
              freeMappedPageMoves (l2Dma / 4096 % 2 ^ 32) l2Page ++
                freeMappedPageMoves (dma / 4096 % 2 ^ 32) page
            else
              getMappedPageMoves env.l1 ++
                match getMappedPage env.l1 with
                | none =>
                  freeMappedPageMoves (l2Dma / 4096 % 2 ^ 32) l2Page ++
                    freeMappedPageMoves (dma / 4096 % 2 ^ 32) page
                | some _ => []

/-- The parts of `struct ipu6_mmu` and its `dmap` a lifetime uses; the first
three pages are the pointers of `mmu_info`. -/
structure Ipu6Mmu where
  info : MmuInfo
  dummyPage : Nat
  dummyL2Pt : Nat
  l1Pt : Nat
  iovad : List Iova
  trashPage : Option Nat
  pciTrashPage : Nat
  iovaTrashPage : Nat
  ready : Bool

/-- The MMU that `ipu6_mmu_init` puts around its `mmu_info`. -/
def ipu6MmuInit (env : AllocEnv) : Option Ipu6Mmu := do
  let info ← ipu6MmuAlloc env
  let dummyPage ← env.dummyPage.getZeroedPage
  let dummyL2Pt ← env.dummyL2.getZeroedPage
  let l1Pt ← env.l1.getZeroedPage
  return {
    info, dummyPage, dummyL2Pt, l1Pt
    iovad := []
    trashPage := none
    pciTrashPage := 0
    iovaTrashPage := 0
    ready := false }

-- ---------------------------------------------------------------------------
-- Mapping
-- ---------------------------------------------------------------------------

def l2MapTableMoves (m : MmuInfo) (env : Nat → PageEnv) (l1Idx : Nat) : List (Move Res) :=
  if m.l1Pt l1Idx = m.dummyL2Pteval then
    match l2Virt m env l1Idx with
    | none => []
    | some (_, pt) =>
      let dma := mapSingle (env l1Idx).dmaMapSingle
      (if (m.l2Pts l1Idx).isSome then [] else [.get (.page pt.page)]) ++
        if dma = 0 then [.put (.page pt.page)] else [.get (.dma dma)]
  else []

def l2MapTablesMoves (env : Nat → PageEnv) : Nat → Nat → MmuInfo → Cursor → List (Move Res)
  | 0, _, _, _ => []
  | n + 1, l1Idx, m, c =>
    if c.size > 0 then
      l2MapTableMoves m env l1Idx ++
        match l2MapTable m env l1Idx with
        | (_, some _) => []
        | (m, none) =>
          match l2MapEntries l1Idx (l2ptPtes - l2Index c.iova) (l2Index c.iova) m c with
          | (m, c) => l2MapTablesMoves env n (l1Idx + 1) m c
    else []

def mmuMapMoves (m : MmuInfo) (env : Nat → PageEnv) (iova paddr size : Nat) : List (Move Res) :=
  if m.pgsizeBitmap = 0 then []
  else if !isAligned (iova ||| paddr ||| size) (minPagesz m) then []
  else
    let iova := iova / 4096 * 4096 % 2 ^ 32
    l2MapTablesMoves env (l1ptPtes - l1Index iova) (l1Index iova) m ⟨iova, pageAlign paddr, 0, size⟩

-- ---------------------------------------------------------------------------
-- The trash buffer
-- ---------------------------------------------------------------------------

/-- `PFN_UP(IPU6_MMUV2_TRASH_RANGE)`. -/
@[irreducible]
def trashPages : Nat := 2048

structure TrashEnv where
  allocPage : Option Nat
  allocIova : Option Nat
  dmaMapPage : Option Nat
  tables : Nat → PageEnv

/-- The loop of `allocate_trash_buffer`, which maps every page of the range to
the trash page. -/
def trashLoop (tables : Nat → PageEnv) (pfnLo dma : Nat) : Nat → Nat → MmuInfo → MmuInfo × Option Errno
  | 0, _, m => (m, none)
  | n + 1, i, m =>
    match ipu6MmuMap m tables (4096 * (pfnLo + i)) dma 4096 with
    | (m, some err) => (m, some err)
    | (m, none) => trashLoop tables pfnLo dma n (i + 1) m

def trashLoopMoves (tables : Nat → PageEnv) (pfnLo dma : Nat) : Nat → Nat → MmuInfo → List (Move Res)
  | 0, _, _ => []
  | n + 1, i, m =>
    mmuMapMoves m tables (4096 * (pfnLo + i)) dma 4096 ++
      match ipu6MmuMap m tables (4096 * (pfnLo + i)) dma 4096 with
      | (_, some _) => []
      | (m, none) => trashLoopMoves tables pfnLo dma n (i + 1) m

/-- `out_unmap` of `allocate_trash_buffer`, or its success. -/
def trashMapped (s : Ipu6Mmu) (iova : Iova) : MmuInfo × Option Errno → Ipu6Mmu × Option Errno
  | (info, none) => ({ s with info := info, iovaTrashPage := 4096 * iova.pfnLo }, none)
  | (info, some err) =>
    ({ s with
        info := ipu6MmuUnmap info (4096 * iova.pfnLo) (4096 * (iova.pfnHi + 1 - iova.pfnLo))
        iovad := s.iovad.erase iova }, some err)

def allocateTrashBuffer (s : Ipu6Mmu) (env : TrashEnv) : Ipu6Mmu × Option Errno :=
  match env.allocIova with
  | none => (s, some .ENOMEM)
  | some pfnLo =>
    let iova := ⟨pfnLo, pfnLo + trashPages - 1⟩
    match env.dmaMapPage with
    | none => ({ s with iovad := (iova :: s.iovad).erase iova }, some .ENOMEM)
    | some dma =>
      trashMapped { s with iovad := iova :: s.iovad, pciTrashPage := dma } iova
        (trashLoop env.tables pfnLo dma trashPages 0 s.info)

def allocateTrashBufferMoves (s : Ipu6Mmu) (env : TrashEnv) : List (Move Res) :=
  match env.allocIova with
  | none => []
  | some pfnLo =>
    match env.dmaMapPage with
    | none => []
    | some dma =>
      .get (.dma dma) :: trashLoopMoves env.tables pfnLo dma trashPages 0 s.info ++
        if (trashLoop env.tables pfnLo dma trashPages 0 s.info).2.isSome then [.put (.dma dma)] else []

-- ---------------------------------------------------------------------------
-- Bringing the hardware up
-- ---------------------------------------------------------------------------

/-- Block sizes of the L1 and L2 streams of a `struct ipu6_mmu_hw`. -/
structure MmuHw where
  l1BlockSz : List Nat
  l2BlockSz : List Nat
  deriving DecidableEq, Repr

/-- No stream starts above `max`; `block_addr` has 16 bits. -/
def blocksFit (max : Nat) : Nat → List Nat → Bool
  | _, [] => true
  | blockAddr, sz :: szs => blockAddr ≤ max && blocksFit max ((blockAddr + sz) % 2 ^ 16) szs

/-- `IPU6_MAX_LI_BLOCK_ADDR` and `IPU6_MAX_L2_BLOCK_ADDR`. -/
def MmuHw.fits (hw : MmuHw) : Bool := blocksFit 128 0 hw.l1BlockSz && blocksFit 64 0 hw.l2BlockSz

/-- The end of `ipu6_mmu_hw_init`: a page without a buffer is freed. -/
def trashBuffered : Ipu6Mmu × Option Errno → Ipu6Mmu × Option Errno
  | (s, some err) => ({ s with trashPage := none }, some err)
  | (s, none) => ({ s with ready := true }, none)

def ipu6MmuHwInit (s : Ipu6Mmu) (mmuHw : List MmuHw) (env : TrashEnv) : Ipu6Mmu × Option Errno :=
  if !mmuHw.all MmuHw.fits then (s, some .EINVAL)
  else
    match s.trashPage with
    | some _ => ({ s with ready := true }, none)
    | none =>
      match env.allocPage with
      | none => (s, some .ENOMEM)
      | some page => trashBuffered (allocateTrashBuffer { s with trashPage := some page } env)

def hwInitMoves (s : Ipu6Mmu) (mmuHw : List MmuHw) (env : TrashEnv) : List (Move Res) :=
  if !mmuHw.all MmuHw.fits then []
  else
    match s.trashPage with
    | some _ => []
    | none =>
      match env.allocPage with
      | none => []
      | some page =>
        .get (.page page) :: allocateTrashBufferMoves { s with trashPage := some page } env ++
          if (allocateTrashBuffer { s with trashPage := some page } env).2.isSome then
            [.put (.page page)]
          else []

-- ---------------------------------------------------------------------------
-- Teardown
-- ---------------------------------------------------------------------------

/-- `ipu6_mmu_destroy`, from its trash buffer to its L1 table. -/
def mmuDestroyMoves (s : Ipu6Mmu) : List (Move Res) :=
  let info :=
    if s.iovaTrashPage ≠ 0 then
      match findIova s.iovad (s.iovaTrashPage / 4096) with
      | some iova => ipu6MmuUnmap s.info (4096 * iova.pfnLo) (4096 * (iova.pfnHi + 1 - iova.pfnLo))
      | none => s.info
    else s.info
  (if s.iovaTrashPage ≠ 0 then
    .put (.dma s.pciTrashPage) :: (s.trashPage.map fun page => .put (.page page)).toList else []) ++
  ((List.range l1ptPtes).flatMap fun l1Idx =>
    if info.l1Pt l1Idx ≠ info.dummyL2Pteval then
      .put (.dma (tblPhysAddr (info.l1Pt l1Idx))) ::
        ((info.l2Pts l1Idx).map fun pt => .put (.page pt.page)).toList
    else []) ++
  freeMappedPageMoves info.dummyPagePteval s.dummyPage ++
  [.put (.dma (tblPhysAddr info.l1PtDma)), .put (.page s.dummyL2Pt), .put (.page s.l1Pt)]

-- ---------------------------------------------------------------------------
-- Runs
-- ---------------------------------------------------------------------------

inductive Call
  | hwInit (mmuHw : List MmuHw) (env : TrashEnv)
  | map (env : Nat → PageEnv) (iova paddr size : Nat)
  | unmap (iova size : Nat)

def Call.run (s : Ipu6Mmu) : Call → Ipu6Mmu
  | .hwInit mmuHw env => (ipu6MmuHwInit s mmuHw env).1
  | .map env iova paddr size => { s with info := (ipu6MmuMap s.info env iova paddr size).1 }
  | .unmap iova size => { s with info := ipu6MmuUnmap s.info iova size }

def Call.moves (s : Ipu6Mmu) : Call → List (Move Res)
  | .hwInit mmuHw env => hwInitMoves s mmuHw env
  | .map env iova paddr size => mmuMapMoves s.info env iova paddr size
  | .unmap .. => []

/-- What the kernel may answer: new DMA addresses for tables, and ranges from
page 1 on, where the IOVA domain starts. -/
def Call.Answers (s : Ipu6Mmu) : Call → Prop
  | .hwInit _ env => Fresh s.info env.tables ∧ ∀ lo, env.allocIova = some lo → 1 ≤ lo
  | .map env .. => Fresh s.info env
  | .unmap .. => True

/-- A lifetime so far. -/
structure Life where
  mmu : Ipu6Mmu
  moves : List (Move Res)

def Life.Begins (s : Life) : Prop :=
  ∃ env, ipu6MmuInit env = some s.mmu ∧ (∀ a ∈ s.mmu.info.maps, DmaAddr a) ∧ s.moves = mmuAllocMoves env

def Life.Step (s : Life) (c : Call) (s' : Life) : Prop :=
  c.Answers s.mmu ∧ s' = ⟨c.run s.mmu, s.moves ++ c.moves s.mmu⟩

/-- The moves of the lifetime that `ipu6_mmu_cleanup` ends here. -/
def Life.cleanup (s : Life) : List (Move Res) := s.moves ++ mmuDestroyMoves s.mmu

-- ---------------------------------------------------------------------------
-- Tables
-- ---------------------------------------------------------------------------

def tableRes (m : MmuInfo) (i : Nat) : List Res :=
  match m.l2Pts i with
  | none => []
  | some pt => [.dma pt.dma, .page pt.page]

@[irreducible]
def tablesRes (m : MmuInfo) : List Res := (List.range l1ptPtes).flatMap (tableRes m)

/-- From `m` to `m'` by moves that account for the tables. -/
structure Grown (env : Nat → PageEnv) (m m' : MmuInfo) (moves : List (Move Res)) : Prop where
  ext : Extends env m m'
  slots : ∀ i ≥ l1ptPtes, m'.l2Pts i = none
  dummyL2 : m'.dummyL2Pteval = m.dummyL2Pteval
  l1PtDma : m'.l1PtDma = m.l1PtDma
  moves : ∀ rest, Moves (tablesRes m ++ rest) moves (tablesRes m' ++ rest)

theorem Grown.trans (h₁ : Grown env m m₁ moves₁) (h₂ : Grown env m₁ m₂ moves₂) :
    Grown env m m₂ (moves₁ ++ moves₂) where
  ext := h₁.ext.trans h₂.ext
  slots := h₂.slots
  dummyL2 := h₂.dummyL2.trans h₁.dummyL2
  l1PtDma := h₂.l1PtDma.trans h₁.l1PtDma
  moves := fun rest => (h₁.moves rest).trans (h₂.moves rest)

theorem Written.tableRes (h : Written m m') : tableRes m' = tableRes m := by
  funext i
  have hdma := h.kept.tables i
  have hpage := h.page i
  unfold Mmu.tableRes
  cases h₁ : m'.l2Pts i <;> cases h₂ : m.l2Pts i <;> simp_all

theorem Written.grown (h : Written m m') (hi : Inv m) (hf : Fresh m env)
    (hslots : ∀ i ≥ l1ptPtes, m.l2Pts i = none) : Grown env m m' [] where
  ext := h.kept.extends hi hf
  slots := fun i hge => (h.kept.none_iff i).mpr (hslots i hge)
  dummyL2 := h.kept.dummyL2
  l1PtDma := h.kept.l1PtDma
  moves := fun rest => by
    unfold tablesRes
    rw [h.tableRes]
    exact .nil (.refl _)

theorem tablesRes_addTable (page a : Nat) (hi : i < l1ptPtes) (hn : m.l2Pts i = none) :
    (tablesRes (m.addTable i page a)).Perm (.dma a :: .page page :: tablesRes m) := by
  have hnew : tableRes (m.addTable i page a) =
      Function.update (tableRes m) i [.dma a, .page page] := by
    funext j
    by_cases hj : j = i
    · subst hj
      rw [Function.update_self, tableRes, l2Pts_addTable]
    · rw [Function.update_of_ne hj, tableRes, tableRes, l2Pts_addTable_of_ne hj]
  have hperm := flatMap_update_perm (f := tableRes m) hi (by rw [tableRes, hn]) [.dma a, .page page]
  rw [List.cons_append, List.cons_append, List.nil_append] at hperm
  unfold tablesRes
  rw [hnew]
  exact hperm

theorem grown_l2MapTable (hi : Inv m) (hf : Fresh m env) (hslots : ∀ i ≥ l1ptPtes, m.l2Pts i = none)
    (hlt : i < l1ptPtes) : Grown env m (l2MapTable m env i).1 (l2MapTableMoves m env i) := by
  have hsame : Grown env m m [] := Written.refl.grown hi hf hslots
  have hcase := l2MapTable_cases hi env i
  unfold l2MapTableMoves
  generalize l2MapTable m env i = r at hcase ⊢
  obtain ⟨m', e⟩ := r
  simp only at hcase ⊢
  cases hcase with
  | found hsome =>
    obtain ⟨pt, hpt⟩ := Option.isSome_iff_exists.mp hsome
    rw [if_neg (hi.frame_ne hpt)]
    exact hsame
  | noPage hn hpage =>
    rw [if_pos (hi.empty i hn)]
    simp only [l2Virt, hn, hpage]
    exact hsame
  | noMapping page hn hpage hdma =>
    rw [if_pos (hi.empty i hn)]
    simp only [l2Virt, hn, hpage, hdma, Option.isSome_none, Bool.false_eq_true, if_false, if_true]
    -- the page is freed again
    refine ⟨hsame.ext, hslots, rfl, rfl, fun rest => .get _ (.put (.refl _) fun l hl => .nil hl)⟩
  | added page a hn hpage ha hne =>
    rw [if_pos (hi.empty i hn)]
    have hval : mapSingle (env i).dmaMapSingle = a := by simp [mapSingle, ha]
    simp only [l2Virt, hn, hpage, hval, hne, Option.isSome_none, Bool.false_eq_true, if_false]
    have hcan : CanTable m env i := .inr ⟨by simp [hpage], by rw [hval]; exact hne⟩
    refine ⟨extends_addTable hi hf hn hcan ha, fun j hj => ?_, rfl, rfl, fun rest => ?_⟩
    · have hji : j ≠ i := by omega
      show (m.addTable i page a).l2Pts j = none
      rw [l2Pts_addTable_of_ne hji]
      exact hslots j hj
    · have hperm := (tablesRes_addTable page a hlt hn).append_right rest
      rw [List.cons_append, List.cons_append] at hperm
      exact .get _ (.get _ (.nil hperm.symm))

theorem grown_l2MapTables (hi : Inv m) (hf : Fresh m env)
    (hslots : ∀ i ≥ l1ptPtes, m.l2Pts i = none) (hn : n ≤ l1ptPtes - i) :
    Grown env m (l2MapTables env n i m c).1 (l2MapTablesMoves env n i m c) := by
  induction n generalizing i m c with
  | zero => exact Written.refl.grown hi hf hslots
  | succ n ih =>
    simp only [l2MapTables, l2MapTablesMoves]
    split
    · have htable := grown_l2MapTable hi hf hslots (show i < l1ptPtes by omega)
      generalize l2MapTable m env i = r at htable ⊢
      obtain ⟨m₁, _ | err⟩ := r
      · have hwritten := written_l2MapEntries i (l2ptPtes - l2Index c.iova) (l2Index c.iova) m₁ c
        simp only at htable ⊢
        generalize l2MapEntries i (l2ptPtes - l2Index c.iova) (l2Index c.iova) m₁ c = r at hwritten ⊢
        obtain ⟨m₂, c₂⟩ := r
        have hgrown := hwritten.grown htable.ext.inv htable.ext.fresh htable.slots
        have hrest := ih (m := m₂) (i := i + 1) (c := c₂) hgrown.ext.inv hgrown.ext.fresh hgrown.slots
          (by omega)
        exact htable.trans (hgrown.trans hrest)
      · rw [List.append_nil]
        exact htable
    · exact Written.refl.grown hi hf hslots

theorem grown_mmuMap (iova paddr size : Nat) (hi : Inv m) (hf : Fresh m env)
    (hslots : ∀ i ≥ l1ptPtes, m.l2Pts i = none) :
    Grown env m (ipu6MmuMap m env iova paddr size).1 (mmuMapMoves m env iova paddr size) := by
  unfold ipu6MmuMap mmuMapMoves
  split
  · exact Written.refl.grown hi hf hslots
  · split
    · exact Written.refl.grown hi hf hslots
    · simp only [l2Map, l2Unmap]
      generalize iova / 4096 * 4096 % 2 ^ 32 = start
      have hgrown := grown_l2MapTables (c := ⟨start, pageAlign paddr, 0, size⟩) hi hf hslots
        (Nat.le_refl (l1ptPtes - l1Index start))
      generalize l2MapTables env (l1ptPtes - l1Index start) (l1Index start) m
        ⟨start, pageAlign paddr, 0, size⟩ = r at hgrown ⊢
      obtain ⟨m', c, _ | err⟩ := r
      · exact hgrown
      · simp only
        split
        · have hback : Grown env m' _ [] := (written_l2UnmapTables (l1ptPtes - l1Index (c.iova - c.mapped))
            (l1Index (c.iova - c.mapped)) m' (c.iova - c.mapped) c.mapped).grown hgrown.ext.inv
              hgrown.ext.fresh hgrown.slots
          simpa only [List.append_nil] using hgrown.trans hback
        · exact hgrown

theorem grown_trashLoop (pfnLo dma n i : Nat) (hi : Inv m) (hf : Fresh m tables)
    (hslots : ∀ i ≥ l1ptPtes, m.l2Pts i = none) :
    Grown tables m (trashLoop tables pfnLo dma n i m).1 (trashLoopMoves tables pfnLo dma n i m) := by
  induction n generalizing i m with
  | zero => exact Written.refl.grown hi hf hslots
  | succ n ih =>
    simp only [trashLoop, trashLoopMoves]
    have hmap := grown_mmuMap (4096 * (pfnLo + i)) dma 4096 hi hf hslots
    generalize ipu6MmuMap m tables (4096 * (pfnLo + i)) dma 4096 = r at hmap ⊢
    obtain ⟨m₁, _ | err⟩ := r
    · exact hmap.trans (ih _ hmap.ext.inv hmap.ext.fresh hmap.slots)
    · rw [List.append_nil]
      exact hmap

-- ---------------------------------------------------------------------------
-- What is held
-- ---------------------------------------------------------------------------

def trashRes (s : Ipu6Mmu) : List Res :=
  match s.trashPage with
  | none => []
  | some page => [.dma s.pciTrashPage, .page page]

/-- The mapping of the dummy L2 table. -/
def dummyL2Res (s : Ipu6Mmu) : Res := .dma (tblPhysAddr s.info.dummyL2Pteval)

/-- What `ipu6_mmu_alloc` took and `ipu6_mmu_destroy` gives back. -/
def baseRes (s : Ipu6Mmu) : List Res :=
  [.dma (tblPhysAddr s.info.dummyPagePteval), .page s.dummyPage,
    .dma (tblPhysAddr s.info.l1PtDma), .page s.dummyL2Pt, .page s.l1Pt]

def otherRes (s : Ipu6Mmu) : List Res := trashRes s ++ (baseRes s ++ [dummyL2Res s])

structure Alive (s : Life) : Prop where
  inv : Inv s.mmu.info
  slots : ∀ i ≥ l1ptPtes, s.mmu.info.l2Pts i = none
  trash : s.mmu.trashPage.isSome ↔ s.mmu.iovaTrashPage ≠ 0
  held : Moves [] s.moves (tablesRes s.mmu.info ++ otherRes s.mmu)

/-- What a call leaves, from a state in which nothing else is known. -/
structure CallKeeps (s : Ipu6Mmu) (moves : List (Move Res)) (s' : Ipu6Mmu) : Prop where
  inv : Inv s'.info
  slots : ∀ i ≥ l1ptPtes, s'.info.l2Pts i = none
  trash : s'.trashPage.isSome ↔ s'.iovaTrashPage ≠ 0
  moves : Moves (tablesRes s.info ++ otherRes s) moves (tablesRes s'.info ++ otherRes s')

section
variable {s : Ipu6Mmu}

theorem Grown.baseRes {s : Ipu6Mmu} {moves : List (Move Res)} (h : Grown env s.info m' moves) :
    baseRes { s with info := m' } ++ [dummyL2Res { s with info := m' }] = baseRes s ++ [dummyL2Res s] := by
  simp only [Mmu.baseRes, dummyL2Res, h.ext.dummyPage, h.dummyL2, h.l1PtDma]

theorem Grown.keeps {s : Ipu6Mmu} {moves : List (Move Res)} (h : Grown env s.info m' moves)
    (ht : s.trashPage.isSome ↔ s.iovaTrashPage ≠ 0) :
    CallKeeps s moves { s with info := m' } := by
  refine ⟨h.ext.inv, h.slots, ht, ?_⟩
  have hother : otherRes { s with info := m' } = otherRes s := by
    unfold otherRes
    rw [h.baseRes]
    rfl
  rw [hother]
  exact h.moves _

/-- The ways through `allocate_trash_buffer`: nothing to map or no range for
it, the buffer, or a way back out of the loop. -/
inductive TrashCase (s : Ipu6Mmu) (env : TrashEnv) : Ipu6Mmu × Option Errno → List (Move Res) → Prop
  | early (err : Errno) : TrashCase s env (s, some err) []
  | buffer (dma : Nat) (iovad : List Iova) : env.allocIova = some lo →
      Grown env.tables s.info info moves →
      TrashCase s env ({ s with
        info := info, iovad := iovad, pciTrashPage := dma, iovaTrashPage := 4096 * lo }, none)
        (.get (.dma dma) :: moves)
  | back (err : Errno) (dma : Nat) (iovad : List Iova) : Grown env.tables s.info info moves →
      TrashCase s env ({ s with info := info, iovad := iovad, pciTrashPage := dma }, some err)
        (.get (.dma dma) :: moves ++ [.put (.dma dma)])

theorem allocateTrashBuffer_cases (hi : Inv s.info) (hslots : ∀ i ≥ l1ptPtes, s.info.l2Pts i = none)
    (hf : Fresh s.info env.tables) :
    TrashCase s env (allocateTrashBuffer s env) (allocateTrashBufferMoves s env) := by
  cases hiova : env.allocIova with
  | none =>
    simp only [allocateTrashBuffer, allocateTrashBufferMoves, hiova]
    exact .early .ENOMEM
  | some lo =>
    cases hdma : env.dmaMapPage with
    | none =>
      simp only [allocateTrashBuffer, allocateTrashBufferMoves, hiova, hdma, List.erase_cons_head]
      exact .early .ENOMEM
    | some dma =>
      have hloop := grown_trashLoop lo dma trashPages 0 hi hf hslots
      simp only [allocateTrashBuffer, allocateTrashBufferMoves, hiova, hdma]
      generalize trashLoop env.tables lo dma trashPages 0 s.info = r at hloop ⊢
      generalize trashLoopMoves env.tables lo dma trashPages 0 s.info = moves at hloop ⊢
      obtain ⟨info, _ | err⟩ := r
      · have hall := TrashCase.buffer (s := s) dma (⟨lo, lo + trashPages - 1⟩ :: s.iovad) hiova hloop
        simpa [trashMapped] using hall
      · have hback : Grown env.tables info _ [] := (written_mmuUnmap info (4096 * lo)
          (4096 * (lo + trashPages - 1 + 1 - lo))).grown hloop.ext.inv hloop.ext.fresh hloop.slots
        have hall := hloop.trans hback
        rw [List.append_nil] at hall
        exact .back err dma _ hall

theorem perm_tables (x y : Res) (tables rest : List Res) :
    (tables ++ x :: y :: rest).Perm (x :: y :: (tables ++ rest)) :=
  List.perm_middle.trans (List.perm_middle.cons x)

theorem TrashCase.keeps (h : TrashCase { s with trashPage := some page } env r moves)
    (hi : Inv s.info) (hslots : ∀ i ≥ l1ptPtes, s.info.l2Pts i = none) (hnone : s.trashPage = none)
    (hzero : s.iovaTrashPage = 0) (hlo : ∀ lo, env.allocIova = some lo → 1 ≤ lo) :
    CallKeeps s (.get (.page page) :: moves ++ if r.2.isSome then [.put (.page page)] else [])
      (trashBuffered r).1 := by
  have hother : otherRes s = baseRes s ++ [dummyL2Res s] := by
    simp only [otherRes, trashRes, hnone, List.nil_append]
  cases h with
  | early err =>
    refine ⟨hi, hslots, by simp [trashBuffered, hzero], ?_⟩
    rw [hother]
    exact .get _ (.put (.refl _) fun l hl => .nil hl)
  | @buffer lo info moves dma iovad hiova hgrown =>
    refine ⟨hgrown.ext.inv, hgrown.slots, ?_, ?_⟩
    · have hpos := hlo lo hiova
      simp only [trashBuffered, Option.isSome_some, true_iff]
      omega
    · have hnew : otherRes (trashBuffered ({ s with
          info := info, iovad := iovad, trashPage := some page, pciTrashPage := dma,
          iovaTrashPage := 4096 * lo }, none)).1 =
          .dma dma :: .page page :: (baseRes s ++ [dummyL2Res s]) := by
        rw [← hgrown.baseRes (s := s)]
        rfl
      rw [hother, hnew]
      rw [show (none : Option Errno).isSome = false from rfl, if_neg Bool.false_ne_true, List.append_nil]
      exact .get _ (.get _ ((hgrown.moves _).perm (perm_tables ..).symm))
  | @back info moves err dma iovad hgrown =>
    refine ⟨hgrown.ext.inv, hgrown.slots, by simp [trashBuffered, hzero], ?_⟩
    have hnew : otherRes (trashBuffered ({ s with
        info := info, iovad := iovad, trashPage := some page, pciTrashPage := dma }, some err)).1 =
        baseRes s ++ [dummyL2Res s] := by
      rw [← hgrown.baseRes (s := s)]
      rfl
    rw [hother, hnew]
    have hloop := (hgrown.moves (.dma dma :: .page page :: (baseRes s ++ [dummyL2Res s]))).perm
      (perm_tables ..).symm
    have hputs := Moves.puts [Res.dma dma, .page page]
      (perm_tables (.dma dma) (.page page) (tablesRes info) (baseRes s ++ [dummyL2Res s]))
    have hall := hloop.trans hputs
    simp only [Option.isSome_some, if_true, List.cons_append, List.append_assoc, List.nil_append]
    exact .get _ (.get _ hall)

theorem hwInit_keeps (hi : Inv s.info) (hslots : ∀ i ≥ l1ptPtes, s.info.l2Pts i = none)
    (ht : s.trashPage.isSome ↔ s.iovaTrashPage ≠ 0) (hf : Fresh s.info env.tables)
    (hlo : ∀ lo, env.allocIova = some lo → 1 ≤ lo) (mmuHw : List MmuHw) :
    CallKeeps s (hwInitMoves s mmuHw env) (ipu6MmuHwInit s mmuHw env).1 := by
  have hsame : CallKeeps s [] s := ⟨hi, hslots, ht, .nil (.refl _)⟩
  unfold hwInitMoves ipu6MmuHwInit
  split
  · exact hsame
  · rcases htrash : s.trashPage with _ | page
    · rcases hpage : env.allocPage with _ | page
      · exact hsame
      · have hcase := allocateTrashBuffer_cases (s := { s with trashPage := some page }) hi hslots hf
        have hzero : s.iovaTrashPage = 0 := by
          rw [htrash] at ht
          simpa using ht
        exact hcase.keeps hi hslots htrash hzero hlo
    · have hready : CallKeeps s [] { s with ready := true } := ⟨hi, hslots, ht, .nil (.refl _)⟩
      rw [htrash] at hready
      exact hready

end

-- ---------------------------------------------------------------------------
-- Every lifetime
-- ---------------------------------------------------------------------------

theorem Call.keeps {s : Ipu6Mmu} (c : Call) (hi : Inv s.info)
    (hslots : ∀ i ≥ l1ptPtes, s.info.l2Pts i = none)
    (ht : s.trashPage.isSome ↔ s.iovaTrashPage ≠ 0) (ha : c.Answers s) :
    CallKeeps s (c.moves s) (c.run s) := by
  cases c with
  | hwInit mmuHw env => exact hwInit_keeps hi hslots ht ha.1 ha.2 mmuHw
  | map env iova paddr size => exact (grown_mmuMap iova paddr size hi ha hslots).keeps ht
  | unmap iova size =>
    have hfresh : Fresh s.info fun _ => ⟨none, none⟩ := by
      intro i a _ h
      cases h
    exact ((written_mmuUnmap s.info iova size).grown hi hfresh hslots).keeps ht

theorem Alive.step (h : Alive s) (hs : Life.Step s c s') : Alive s' := by
  obtain ⟨ha, rfl⟩ := hs
  have hcall := c.keeps h.inv h.slots h.trash ha
  exact ⟨hcall.inv, hcall.slots, hcall.trash, h.held.trans hcall.moves⟩

theorem tblPhysAddr_frame (h : DmaAddr a) : tblPhysAddr (a / 4096 % 2 ^ 32) = a := by
  have hal := h.aligned
  have hb := h.bound
  unfold tblPhysAddr
  omega

theorem getMappedPage_some (h : getMappedPage env = some (page, dma)) :
    env.getZeroedPage = some page ∧ getMappedPageMoves env = [.get (.page page), .get (.dma dma)] := by
  simp only [getMappedPage, Option.bind_eq_bind, Option.bind_eq_some_iff] at h
  obtain ⟨p, hp, h⟩ := h
  split at h
  · cases h
  · rename_i hne
    obtain ⟨rfl, rfl⟩ := Prod.mk.inj (Option.some.inj h)
    exact ⟨hp, by simp only [getMappedPageMoves, hp, if_neg hne]⟩

theorem getMappedPage_none (h : getMappedPage env = none) (held : List Res) :
    Moves held (getMappedPageMoves env) held := by
  unfold getMappedPage at h
  unfold getMappedPageMoves
  cases hp : env.getZeroedPage with
  | none => exact .nil (.refl _)
  | some page =>
    by_cases hdma : mapSingle env.dmaMapSingle = 0
    · simp only [hdma, if_true]
      exact .get _ (.put (.refl _) fun l hl => .nil hl)
    · simp [hp, hdma] at h

theorem freeMappedPage_moves (h : tblPhysAddr pteval = dma) (page : Nat) (held : List Res) :
    Moves (.dma dma :: .page page :: held) (freeMappedPageMoves pteval page) held := by
  subst h
  exact Moves.puts [Res.dma (tblPhysAddr pteval), .page page] (.refl _)

theorem getMappedPage_addr (h : getMappedPage env = some (page, dma))
    (ha : ∀ a, env.dmaMapSingle = some a → DmaAddr a) : tblPhysAddr (dma / 4096 % 2 ^ 32) = dma := by
  simp only [getMappedPage, Option.bind_eq_bind, Option.bind_eq_some_iff] at h
  obtain ⟨p, -, h⟩ := h
  split at h
  · cases h
  · rename_i hne
    obtain ⟨-, rfl⟩ := Prod.mk.inj (Option.some.inj h)
    cases hd : env.dmaMapSingle with
    | none => simp [mapSingle, hd] at hne
    | some a => exact tblPhysAddr_frame (ha a hd)

theorem mmuAlloc_failed_balanced (h : ipu6MmuAlloc env = none)
    (hd : ∀ a, env.dummyPage.dmaMapSingle = some a → DmaAddr a)
    (h2 : ∀ a, env.dummyL2.dmaMapSingle = some a → DmaAddr a) : Balanced (mmuAllocMoves env) := by
  have hmoves : Moves [] (mmuAllocMoves env) [] := by
    unfold ipu6MmuAlloc at h
    unfold mmuAllocMoves
    cases hk : env.kzalloc with
    | false => exact .nil (.refl _)
    | true =>
      simp only [Bool.not_true, Bool.false_eq_true, if_false]
      rcases hp : getMappedPage env.dummyPage with _ | ⟨page, dma⟩
      · simpa using getMappedPage_none hp []
      · rw [(getMappedPage_some hp).2]
        refine .get _ (.get _ ?_)
        have hback := freeMappedPage_moves (getMappedPage_addr hp hd) page []
        rcases hp2 : getMappedPage env.dummyL2 with _ | ⟨l2Page, l2Dma⟩
        · exact (getMappedPage_none hp2 _).trans hback
        · rw [(getMappedPage_some hp2).2]
          refine .get _ (.get _ ?_)
          have hback2 := freeMappedPage_moves (getMappedPage_addr hp2 h2) l2Page
            [.dma dma, .page page]
          cases hv : env.vzalloc with
          | false => exact hback2.trans hback
          | true =>
            simp only [Bool.not_true, Bool.false_eq_true, if_false]
            rcases hp1 : getMappedPage env.l1 with _ | r
            · exact (getMappedPage_none hp1 _).trans (hback2.trans hback)
            · simp [hk, hp, hp2, hv, hp1] at h
  exact ⟨hmoves.1, List.perm_nil.mp hmoves.2⟩

theorem tablesRes_empty (h : ∀ i, m.l2Pts i = none) : tablesRes m = [] := by
  unfold tablesRes
  rw [List.flatMap_eq_nil_iff]
  intro i _
  rw [tableRes, h]

theorem Alive.begins (h : Life.Begins s) : Alive s := by
  obtain ⟨env, hinit, haddr, hmoves⟩ := h
  simp only [ipu6MmuInit, Option.bind_eq_bind, Option.bind_eq_some_iff, Option.pure_def,
    Option.some.injEq] at hinit
  obtain ⟨info, halloc, dummyPage, hdummy, dummyL2, hl2, l1, hl1, hmmu⟩ := hinit
  rw [← hmmu] at haddr
  obtain ⟨hinv, htables⟩ := inv_mmuAlloc halloc haddr
  simp only [ipu6MmuAlloc, Option.bind_eq_bind, Option.bind_eq_some_iff, Prod.exists,
    Option.pure_def, Option.some.injEq] at halloc
  obtain ⟨_, hk, page, dma, hp, l2Page, l2Dma, hp2, _, hv, l1Page, l1Dma, hp1, hinfo⟩ := halloc
  obtain ⟨hpage, hm⟩ := getMappedPage_some hp
  obtain ⟨hpage2, hm2⟩ := getMappedPage_some hp2
  obtain ⟨hpage1, hm1⟩ := getMappedPage_some hp1
  have hkz : env.kzalloc = true := (Option.guard_eq_some' ()).mp hk
  have hvz : env.vzalloc = true := (Option.guard_eq_some' ()).mp hv
  obtain rfl := Option.some.inj (hdummy.symm.trans hpage)
  obtain rfl := Option.some.inj (hl2.symm.trans hpage2)
  obtain rfl := Option.some.inj (hl1.symm.trans hpage1)
  have hmaps : info.maps = [l1Dma, l2Dma, dma] := by rw [← hinfo]
  refine ⟨hmmu ▸ hinv, fun i _ => by rw [← hmmu]; exact htables i, by simp [← hmmu], ?_⟩
  have hother : otherRes s.mmu = [.dma dma, .page dummyPage, .dma l1Dma, .page dummyL2, .page l1,
      .dma l2Dma] := by
    have h0 := tblPhysAddr_frame (haddr dma (by simp [hmaps]))
    have h2 := tblPhysAddr_frame (haddr l2Dma (by simp [hmaps]))
    have h1 := tblPhysAddr_frame (haddr l1Dma (by simp [hmaps]))
    rw [← hmmu, ← hinfo]
    simp only [otherRes, trashRes, baseRes, dummyL2Res, h0, h1, h2, List.nil_append, List.cons_append]
  rw [hmoves, hother, ← hmmu, tablesRes_empty htables]
  simp only [mmuAllocMoves, hkz, hp, hm, hp2, hm2, hvz, hp1, hm1, Bool.not_true, Bool.false_eq_true,
    if_false, List.cons_append, List.nil_append, List.append_nil]
  refine .get _ (.get _ (.get _ (.get _ (.get _ (.get _ (.nil ?_))))))
  rw [List.perm_iff_count]
  intro x
  simp only [List.count_cons, List.count_nil]
  omega

theorem alive_reachable (h : Reachable Life.Begins Life.Step s) : Alive s :=
  h.invariant (fun _ hb => .begins hb) fun _ _ _ hi hs => hi.step hs

-- ---------------------------------------------------------------------------
-- Teardown
-- ---------------------------------------------------------------------------

theorem destroyTables_eq (hi : Inv m) :
    ((List.range l1ptPtes).flatMap fun l1Idx =>
      if m.l1Pt l1Idx ≠ m.dummyL2Pteval then
        .put (.dma (tblPhysAddr (m.l1Pt l1Idx))) ::
          ((m.l2Pts l1Idx).map fun pt => .put (.page pt.page)).toList
      else []) = (tablesRes m).map Move.put := by
  unfold tablesRes
  rw [List.map_flatMap]
  refine List.flatMap_congr fun i _ => ?_
  cases h : m.l2Pts i with
  | none => simp [tableRes, h, hi.empty i h]
  | some pt =>
    have hdma : tblPhysAddr (m.l1Pt i) = pt.dma := by
      have hal := (hi.addr i pt h).1.aligned
      rw [hi.entry i pt h]
      unfold tblPhysAddr
      omega
    simp [tableRes, h, hi.frame_ne h, hdma]

theorem destroyTrash_eq {s : Ipu6Mmu} (ht : s.trashPage.isSome ↔ s.iovaTrashPage ≠ 0) :
    (if s.iovaTrashPage ≠ 0 then
      .put (.dma s.pciTrashPage) :: (s.trashPage.map fun page => .put (.page page)).toList else []) =
      (trashRes s).map Move.put := by
  cases h : s.trashPage with
  | none =>
    have hzero : s.iovaTrashPage = 0 := by simpa [h] using ht
    simp [trashRes, h, hzero]
  | some page =>
    have hne : s.iovaTrashPage ≠ 0 := by simpa [h] using ht
    simp [trashRes, h, hne]

theorem mmuDestroyMoves_eq {s : Ipu6Mmu} (hi : Inv s.info)
    (ht : s.trashPage.isSome ↔ s.iovaTrashPage ≠ 0) :
    mmuDestroyMoves s = (trashRes s ++ tablesRes s.info ++ baseRes s).map Move.put := by
  have hwritten : ∀ info, info = (if s.iovaTrashPage ≠ 0 then
      match findIova s.iovad (s.iovaTrashPage / 4096) with
      | some iova => ipu6MmuUnmap s.info (4096 * iova.pfnLo) (4096 * (iova.pfnHi + 1 - iova.pfnLo))
      | none => s.info
    else s.info) → Written s.info info := by
    rintro info rfl
    split
    · split
      · exact written_mmuUnmap ..
      · exact .refl
    · exact .refl
  unfold mmuDestroyMoves
  simp only
  generalize hinfo : (if s.iovaTrashPage ≠ 0 then
      match findIova s.iovad (s.iovaTrashPage / 4096) with
      | some iova => ipu6MmuUnmap s.info (4096 * iova.pfnLo) (4096 * (iova.pfnHi + 1 - iova.pfnLo))
      | none => s.info
    else s.info) = info
  have hw := hwritten info hinfo.symm
  have htables : tablesRes info = tablesRes s.info := by
    unfold tablesRes
    rw [hw.tableRes]
  rw [destroyTrash_eq ht, destroyTables_eq (hw.kept.inv hi), htables, hw.kept.dummyPage,
    hw.kept.l1PtDma]
  simp [baseRes, freeMappedPageMoves]

/-- Every lifetime that ends with `ipu6_mmu_cleanup` has given back every page
it took, and every mapping but that of the dummy L2 table, each exactly once;
that one is never unmapped. -/
theorem mmuCleanup_keeps_dummyL2_mapping (h : Reachable Life.Begins Life.Step s) :
    ¬ Balanced s.cleanup ∧ Clean (holding Res) [] s.cleanup ∧
      after (holding Res) [] s.cleanup = [.dma (tblPhysAddr s.mmu.info.dummyL2Pteval)] := by
  have halive := alive_reachable h
  have hputs : Moves (tablesRes s.mmu.info ++ otherRes s.mmu) (mmuDestroyMoves s.mmu)
      [dummyL2Res s.mmu] := by
    rw [mmuDestroyMoves_eq halive.inv halive.trash]
    refine .puts _ ?_
    unfold otherRes
    rw [List.append_assoc, List.append_assoc]
    exact List.perm_append_comm_assoc ..
  have hall := halive.held.trans hputs
  have hafter : after (holding Res) [] s.cleanup = [dummyL2Res s.mmu] := List.perm_singleton.mp hall.2
  refine ⟨fun hb => ?_, hall.1, hafter⟩
  have hnil : after (holding Res) [] s.cleanup = [] := hb.2
  rw [hafter] at hnil
  cases hnil

/-- An MMU with an empty table. -/
def plainMmu : Ipu6Mmu := (ipu6MmuInit plainAlloc).get rfl

theorem begins_plainMmu : Life.Begins ⟨plainMmu, mmuAllocMoves plainAlloc⟩ :=
  ⟨plainAlloc, (Option.some_get rfl).symm, emptyMmu_addr, rfl⟩

/-- Two pages mapped on either side of a table boundary. -/
theorem mmuCleanup_after_one_map :
    ∃ s : Life, s.moves = [.get (.page 10), .get (.dma (4096 * 10)), .get (.page 11),
        .get (.dma (4096 * 11)), .get (.page 12), .get (.dma (4096 * 12)), .get (.page 20),
        .get (.dma (4096 * 20)), .get (.page 21), .get (.dma (4096 * 21))] ∧
      ¬ Balanced s.cleanup ∧ after (holding Res) [] s.cleanup = [.dma (4096 * 11)] := by
  have hmap : Life.Step ⟨plainMmu, mmuAllocMoves plainAlloc⟩
      (.map (plainTables 2) (4096 * 1023) (4096 * 50) (4096 * 2)) _ :=
    ⟨fresh_plainTables (by omega), rfl⟩
  have hend := mmuCleanup_keeps_dummyL2_mapping (.step (.init begins_plainMmu) hmap)
  refine ⟨_, ?_, hend.1, hend.2.2.trans ?_⟩
  · decide +kernel
  · decide +kernel

/-- An MMU that is allocated and cleaned up again. -/
theorem mmuCleanup_leaks_mapping :
    ∃ s : Life, Reachable Life.Begins Life.Step s ∧ s.moves = mmuAllocMoves plainAlloc ∧
      ¬ Balanced s.cleanup := by
  refine ⟨_, .init begins_plainMmu, rfl, fun h => ?_⟩
  have hend : after (holding Res) [] (Life.cleanup ⟨plainMmu, mmuAllocMoves plainAlloc⟩) = [] := h.2
  revert hend
  decide +kernel

end Ipu4.Mmu
