import Ipu4.Lib.Ledger
import Ipu4.Mmu.Map

/-!
# DMA buffers

`ipu6_dma_alloc` and `ipu6_dma_free` over an MMU, its IOVA domain and its list
of buffers. The page allocator, the DMA layer, `alloc_iova` and `vmap` answer
from an environment. `none` for a whole call is the kernel following a NULL
table pointer. The buffer pages and their DMA mappings are kept in ledgers;
`pageAt` remembers which page an address was last mapped for.
-/

namespace Ipu4.Dma

open Mmu Ledger

structure Iova where
  pfnLo : Nat
  pfnHi : Nat
  deriving DecidableEq, Repr

def Iova.Mem (p : Nat) (r : Iova) : Prop := r.pfnLo ≤ p ∧ p ≤ r.pfnHi

instance (p : Nat) (r : Iova) : Decidable (r.Mem p) := inferInstanceAs (Decidable (_ ∧ _))

structure VmInfo where
  pages : List Nat
  ipu6Iova : Nat
  vaddr : Nat
  size : Nat
  deriving DecidableEq, Repr

/-- The parts of `struct ipu6_mmu` and its `dmap` the buffers use. -/
structure Ipu6Mmu where
  mmu : MmuInfo
  iovad : List Iova
  vmaList : List VmInfo
  pages : Balance Nat
  maps : Balance Nat
  pageAt : Nat → Nat

def findIova (iovad : List Iova) (pfn : Nat) : Option Iova :=
  iovad.find? fun r => r.pfnLo ≤ pfn && pfn ≤ r.pfnHi

def getVmInfo (vmaList : List VmInfo) (iova : Nat) : Option VmInfo :=
  vmaList.find? fun info => iova ≥ info.ipu6Iova && iova < info.ipu6Iova + info.size

/-- `dma_map_page_attrs` and `dma_unmap_page_attrs` of one page. -/
def Ipu6Mmu.mapPage (d : Ipu6Mmu) (page addr : Nat) : Ipu6Mmu :=
  { d with maps := acquire d.maps [addr], pageAt := Function.update d.pageAt addr page }

def Ipu6Mmu.unmapPage (d : Ipu6Mmu) (addr : Nat) : Ipu6Mmu := { d with maps := release d.maps [addr] }

-- ---------------------------------------------------------------------------
-- Pages
-- ---------------------------------------------------------------------------

def pageAlign64 (size : Nat) : Nat := (size + 4095) % 2 ^ 64 / 4096 * 4096

/-- `alloc_pages` for slot `i`, from `order` downwards. -/
def allocPagesDown (allocPages : Nat → Nat → Option Nat) (i : Nat) : Nat → Option (Nat × Nat)
  | 0 => (allocPages i 0).map (·, 0)
  | order + 1 =>
    match allocPages i (order + 1) with
    | some page => some (page, order + 1)
    | none => allocPagesDown allocPages i order

/-- The loop of `__alloc_buffer`. Each round takes at least one page, so
`count` rounds do; the pages found so far come back with whether they are all. -/
def allocBufferLoop (allocPages : Nat → Nat → Option Nat) :
    Nat → Nat → Nat → List Nat → List Nat × Bool
  | 0, _, _, pages => (pages, true)
  | rounds + 1, i, count, pages =>
    if count = 0 then (pages, true)
    else
      match allocPagesDown allocPages i (Nat.log2 count) with
      | none => (pages, false)
      | some (page, order) =>
        allocBufferLoop allocPages rounds (i + 2 ^ order) (count - 2 ^ order)
          (pages ++ List.range' page (2 ^ order))

/-- Answers of the kernel to one `ipu6_dma_alloc`: `allocPages i order` is for
slot `i` of the page array, `dmaMapPage i` for its page `i`, `tables i` for
the table of L1 entry `i`. -/
structure AllocEnv where
  kzalloc : Bool
  allocIova : Option Nat
  kvzalloc : Bool
  allocPages : Nat → Nat → Option Nat
  dmaMapPage : Nat → Option Nat
  tables : Nat → PageEnv
  vmap : Option Nat

/-- `__alloc_buffer`: on an error the pages found so far are freed. -/
def allocBuffer (d : Ipu6Mmu) (env : AllocEnv) (size : Nat) : Ipu6Mmu × Option (List Nat) :=
  if !env.kvzalloc then (d, none)
  else
    match allocBufferLoop env.allocPages (size / 4096) 0 (size / 4096) [] with
    | (pages, true) => ({ d with pages := acquire d.pages pages }, some pages)
    | (pages, false) => ({ d with pages := release (acquire d.pages pages) pages }, none)

def freeBuffer (d : Ipu6Mmu) (pages : List Nat) (size : Nat) : Ipu6Mmu :=
  { d with pages := release d.pages (pages.take (size / 4096)) }

-- ---------------------------------------------------------------------------
-- Allocation
-- ---------------------------------------------------------------------------

/-- The loop of `ipu6_dma_alloc` with `n` pages to go. Comes back with the
index it stopped at and whether that is the end. -/
def allocMapLoop (env : AllocEnv) (iova : Iova) (pages : List Nat) :
    Nat → Nat → Ipu6Mmu → Ipu6Mmu × Nat × Bool
  | 0, i, d => (d, i, true)
  | n + 1, i, d =>
    match env.dmaMapPage i with
    | none => (d, i, false)
    | some addr =>
      let d := d.mapPage (pages.getD i 0) addr
      match ipu6MmuMap d.mmu env.tables (4096 * (iova.pfnLo + i)) addr 4096 with
      | (mmu, some _) => (Ipu6Mmu.unmapPage { d with mmu := mmu } addr, i, false)
      | (mmu, none) => allocMapLoop env iova pages n (i + 1) { d with mmu := mmu }

/-- The loop at `out_unmap`, which reads the DMA addresses back out of the
page table. -/
def outUnmap (iova : Iova) : Nat → Ipu6Mmu → Option Ipu6Mmu
  | 0, d => some d
  | i + 1, d => do
    let addr ← ipu6MmuIovaToPhys d.mmu (4096 * (iova.pfnLo + i))
    let d := d.unmapPage addr
    outUnmap iova i { d with mmu := ipu6MmuUnmap d.mmu (4096 * (iova.pfnLo + i)) 4096 }

/-- `vmap` has no area for zero pages. -/
def vmap (env : AllocEnv) (count : Nat) : Option Nat := if count = 0 then none else env.vmap

/-- Returns the virtual address and the handle of the buffer. -/
def ipu6DmaAlloc (d : Ipu6Mmu) (env : AllocEnv) (size : Nat) : Option (Ipu6Mmu × Option (Nat × Nat)) :=
  if !env.kzalloc then some (d, none)
  else
    let size := pageAlign64 size
    let count := size / 4096
    match env.allocIova with
    | none => some (d, none)
    | some pfnLo =>
      let iova := ⟨pfnLo, pfnLo + count - 1⟩
      match allocBuffer { d with iovad := iova :: d.iovad } env size with
      | (d, none) => some ({ d with iovad := d.iovad.erase iova }, none)
      | (d, some pages) =>
        match allocMapLoop env iova pages (iova.pfnHi + 1 - iova.pfnLo) 0 d with
        | (d, i, mapped) =>
          match (if mapped then vmap env count else none) with
          | some vaddr =>
            some ({ d with vmaList := ⟨pages, 4096 * iova.pfnLo, vaddr, size⟩ :: d.vmaList },
              some (vaddr, 4096 * iova.pfnLo))
          | none => do
            let d ← outUnmap iova i d
            let d := freeBuffer d pages size
            return ({ d with iovad := d.iovad.erase iova }, none)

-- ---------------------------------------------------------------------------
-- Freeing
-- ---------------------------------------------------------------------------

/-- The loop of `ipu6_dma_free` with `n` pages to go. -/
def freeUnmapLoop (iova : Iova) : Nat → Nat → Ipu6Mmu → Option Ipu6Mmu
  | 0, _, d => some d
  | n + 1, i, d => do
    let addr ← ipu6MmuIovaToPhys d.mmu (4096 * (iova.pfnLo + i))
    freeUnmapLoop iova n (i + 1) (d.unmapPage addr)

def ipu6DmaFree (d : Ipu6Mmu) (size dmaHandle : Nat) : Option Ipu6Mmu :=
  match findIova d.iovad (dmaHandle / 4096) with
  | none => some d
  | some iova =>
    match getVmInfo d.vmaList dmaHandle with
    | none => some d
    | some info =>
      if info.vaddr = 0 then some d
      else do
        let d := { d with vmaList := d.vmaList.erase info }
        let size := pageAlign64 size
        let d ← freeUnmapLoop iova (size / 4096) 0 d
        let mmu := ipu6MmuUnmap d.mmu (4096 * iova.pfnLo) (4096 * (iova.pfnHi + 1 - iova.pfnLo))
        let d := freeBuffer { d with mmu := mmu } info.pages size
        return { d with iovad := d.iovad.erase iova }

end Ipu4.Dma
