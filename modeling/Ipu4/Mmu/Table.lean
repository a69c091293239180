import Mathlib.Algebra.Group.Int.Defs
import Mathlib.Algebra.GroupWithZero.Nat
import Mathlib.Data.List.Basic
import Mathlib.Logic.Function.Basic

/-!
# The IPU page table

`struct ipu6_mmu_info` and the functions of `ipu6-mmu.c` that build and walk
the two-level table: `ipu6_mmu_alloc`, `l2_map`, `l2_unmap`, and the map,
unmap and lookup entry points. An L2 table is a value held by its slot of
`l2_pts`, together with the page it lives in and the address `map_single`
gave that page; the entry of `l1_pt` is a separate 32-bit value. Loops run on
the number of table entries left. Addresses are natural numbers: none comes
near 2^64.
-/

namespace Ipu4.Mmu

inductive Errno
  | ENOMEM | EINVAL | ENODEV
  deriving DecidableEq, Repr

/-- Entries of an L1 and of an L2 table: `ISP_L1PT_PTES` and `ISP_L2PT_PTES`. -/
def l1ptPtes : Nat := 1024
def l2ptPtes : Nat := 1024

def ispPageSize : Nat := 4096

structure L2Pt where
  page : Nat
  dma : Nat
  pte : Nat → Nat

structure MmuInfo where
  l1Pt : Nat → Nat
  l1PtDma : Nat
  l2Pts : Nat → Option L2Pt
  dummyL2Pt : Nat → Nat
  dummyL2Pteval : Nat
  dummyPagePteval : Nat
  apertureEnd : Nat
  pgsizeBitmap : Nat
  /-- Pages held for tables and the dummy page. -/
  pages : List Nat
  /-- Live results of `dma_map_single` on them. -/
  maps : List Nat

-- ---------------------------------------------------------------------------
-- Allocation
-- ---------------------------------------------------------------------------

/-- The `dma` that `map_single` returns: 0 stands for a mapping error. -/
def mapSingle (dma : Option Nat) : Nat := dma.getD 0

/-- What the page allocator and the DMA layer answer for one table page. -/
structure PageEnv where
  getZeroedPage : Option Nat
  dmaMapSingle : Option Nat

structure AllocEnv where
  kzalloc : Bool
  vzalloc : Bool
  secureMode : Bool
  dummyPage : PageEnv
  dummyL2 : PageEnv
  l1 : PageEnv

/-- `get_zeroed_page` followed by `map_single`, as the dummy page, the dummy
L2 table and the L1 table are obtained. -/
def getMappedPage (env : PageEnv) : Option (Nat × Nat) := do
  let page ← env.getZeroedPage
  let dma := mapSingle env.dmaMapSingle
  if dma = 0 then none else some (page, dma)

def ipu6MmuAlloc (env : AllocEnv) : Option MmuInfo := do
  guard env.kzalloc
  let (page, dma) ← getMappedPage env.dummyPage
  let (l2Page, l2Dma) ← getMappedPage env.dummyL2
  guard env.vzalloc
  let (l1Page, l1Dma) ← getMappedPage env.l1
  let dummyPagePteval := dma / 4096 % 2 ^ 32
  let dummyL2Pteval := l2Dma / 4096 % 2 ^ 32
  return {
    l1Pt := fun _ => dummyL2Pteval
    l1PtDma := l1Dma / 4096 % 2 ^ 32
    l2Pts := fun _ => none
    dummyL2Pt := fun _ => dummyPagePteval
    dummyL2Pteval
    dummyPagePteval
    apertureEnd := if env.secureMode then 2 ^ 32 - 1 else 2 ^ 31 - 1
    pgsizeBitmap := 4096
    pages := [l1Page, l2Page, page]
    maps := [l1Dma, l2Dma, dma] }

-- ---------------------------------------------------------------------------
-- Entries
-- ---------------------------------------------------------------------------

/-- `l1_idx = iova >> ISP_L1PT_SHIFT`. -/
def l1Index (iova : Nat) : Nat := iova / 2 ^ 22 % 2 ^ 32

/-- `(iova & ISP_L2PT_MASK) >> ISP_L2PT_SHIFT`. The mask is the complement of
a 32-bit one widened to 64 bits, so it keeps the bits from 32 on. -/
def l2Index (iova : Nat) : Nat := (iova &&& 0xffffffff003ff000) / 2 ^ 12 % 2 ^ 32

/-- `l2_pts[l1_idx][l2_idx] = val`. -/
def MmuInfo.setPte (m : MmuInfo) (l1Idx l2Idx val : Nat) : MmuInfo :=
  { m with l2Pts := Function.update m.l2Pts l1Idx <|
      (m.l2Pts l1Idx).map fun pt => { pt with pte := Function.update pt.pte l2Idx val } }

-- ---------------------------------------------------------------------------
-- Unmapping
-- ---------------------------------------------------------------------------

/-- The inner loop of `l2_unmap`, with `n` entries of the table left. Returns
what is left of `iova` and `size`. -/
def l2UnmapEntries (l1Idx : Nat) :
    Nat → Nat → MmuInfo → Nat → Nat → MmuInfo × Nat × Nat
  | 0, _, m, iova, size => (m, iova, size)
  | n + 1, l2Idx, m, iova, size =>
    if size > 0 then
      l2UnmapEntries l1Idx n (l2Idx + 1) (m.setPte l1Idx l2Idx m.dummyPagePteval)
        (iova + ispPageSize) (size - ispPageSize)
    else (m, iova, size)

/-- The outer loop. An L1 entry without a table is skipped with `iova` and
`size` as they are. -/
def l2UnmapTables : Nat → Nat → MmuInfo → Nat → Nat → MmuInfo
  | 0, _, m, _, _ => m
  | n + 1, l1Idx, m, iova, size =>
    if size > 0 then
      if m.l1Pt l1Idx = m.dummyL2Pteval then l2UnmapTables n (l1Idx + 1) m iova size
      else
        match l2UnmapEntries l1Idx (l2ptPtes - l2Index iova) (l2Index iova) m iova size with
        | (m, iova, size) => l2UnmapTables n (l1Idx + 1) m iova size
    else m

def l2Unmap (m : MmuInfo) (iova size : Nat) : MmuInfo :=
  l2UnmapTables (l1ptPtes - l1Index iova) (l1Index iova) m iova size

-- ---------------------------------------------------------------------------
-- Mapping
-- ---------------------------------------------------------------------------

/-- The running variables of `l2_map`. -/
structure Cursor where
  iova : Nat
  paddr : Nat
  mapped : Nat
  size : Nat
  deriving DecidableEq, Repr

def Cursor.next (c : Cursor) : Cursor :=
  ⟨c.iova + ispPageSize, c.paddr + ispPageSize, c.mapped + ispPageSize, c.size - ispPageSize⟩

/-- A new table page for slot `l1Idx`, or the page the slot has. -/
def l2Virt (m : MmuInfo) (env : Nat → PageEnv) (l1Idx : Nat) : Option (MmuInfo × L2Pt) :=
  match m.l2Pts l1Idx with
  | some pt => some (m, pt)
  | none =>
    match (env l1Idx).getZeroedPage with
    | none => none
    | some page => some ({ m with pages := page :: m.pages }, ⟨page, 0, fun _ => m.dummyPagePteval⟩)

/-- The part of the outer loop that gives a dummy L1 entry a table. -/
def l2MapTable (m : MmuInfo) (env : Nat → PageEnv) (l1Idx : Nat) : MmuInfo × Option Errno :=
  if m.l1Pt l1Idx = m.dummyL2Pteval then
    match l2Virt m env l1Idx with
    | none => (m, some .ENOMEM)
    | some (m, pt) =>
      let dma := mapSingle (env l1Idx).dmaMapSingle
      if dma = 0 then ({ m with pages := m.pages.erase pt.page }, some .EINVAL)
      else
        ({ m with
            l1Pt := Function.update m.l1Pt l1Idx (dma / 4096 % 2 ^ 32)
            l2Pts := Function.update m.l2Pts l1Idx (some { pt with dma })
            maps := dma :: m.maps }, none)
  else (m, none)

def l2MapEntries (l1Idx : Nat) : Nat → Nat → MmuInfo → Cursor → MmuInfo × Cursor
  | 0, _, m, c => (m, c)
  | n + 1, l2Idx, m, c =>
    if c.size > 0 then
      l2MapEntries l1Idx n (l2Idx + 1) (m.setPte l1Idx l2Idx (c.paddr / 4096 % 2 ^ 32)) c.next
    else (m, c)

def l2MapTables (env : Nat → PageEnv) :
    Nat → Nat → MmuInfo → Cursor → MmuInfo × Cursor × Option Errno
  | 0, _, m, c => (m, c, none)
  | n + 1, l1Idx, m, c =>
    if c.size > 0 then
      match l2MapTable m env l1Idx with
      | (m, some err) => (m, c, some err)
      | (m, none) =>
        match l2MapEntries l1Idx (l2ptPtes - l2Index c.iova) (l2Index c.iova) m c with
        | (m, c) => l2MapTables env n (l1Idx + 1) m c
    else (m, c, none)

/-- `ALIGN(x, ISP_PAGE_SIZE)`. -/
def pageAlign (x : Nat) : Nat := (x + 4095) / 4096 * 4096

/-- On an error, what was mapped so far is unmapped again. -/
def l2Map (m : MmuInfo) (env : Nat → PageEnv) (iova paddr size : Nat) : MmuInfo × Option Errno :=
  let c := ⟨iova, pageAlign paddr, 0, size⟩
  match l2MapTables env (l1ptPtes - l1Index iova) (l1Index iova) m c with
  | (m, _, none) => (m, none)
  | (m, c, some err) =>
    (if c.mapped ≠ 0 then l2Unmap m (c.iova - c.mapped) c.mapped else m, some err)

-- ---------------------------------------------------------------------------
-- Entry points
-- ---------------------------------------------------------------------------

/-- `1 << __ffs(pgsize_bitmap)`. -/
def minPagesz (m : MmuInfo) : Nat :=
  m.pgsizeBitmap &&& (2 ^ 64 - m.pgsizeBitmap % 2 ^ 64)

def isAligned (x a : Nat) : Bool := x &&& (a - 1) == 0

/-- `none` is success. The start is cut to 32 bits on the way to `l2_map`. -/
def ipu6MmuMap (m : MmuInfo) (env : Nat → PageEnv) (iova paddr size : Nat) :
    MmuInfo × Option Errno :=
  if m.pgsizeBitmap = 0 then (m, some .ENODEV)
  else if !isAligned (iova ||| paddr ||| size) (minPagesz m) then (m, some .EINVAL)
  else l2Map m env (iova / 4096 * 4096 % 2 ^ 32) paddr size

def ipu6MmuUnmap (m : MmuInfo) (iova size : Nat) : MmuInfo :=
  if !isAligned (iova ||| size) (minPagesz m) then m else l2Unmap m iova size

/-- `none` is the NULL table pointer the driver would follow. -/
def ipu6MmuIovaToPhys (m : MmuInfo) (iova : Nat) : Option Nat :=
  (m.l2Pts (iova / 2 ^ 22)).map fun pt => pt.pte (l2Index iova) * 4096

end Ipu4.Mmu
