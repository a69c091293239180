import Ipu4.Lib.Paged
import Ipu4.Qemu.Stored
import Ipu4.Qemu.Transfer

/-!
# One memory for the driver and the device

The CPU has the buffers of `ipu6_dma_alloc` through a mapping of their pages, and the device
through the page table in guest memory. Over any run of allocations, frees and accesses
from either side, both see one flat memory that is indexed by the addresses of the device.
-/

namespace Ipu4.Qemu

open Mmu Paged Overlay
open Ipu4.Dma (Buffer VmInfo Store Start EnvOk SysInv pageAlign64 allocBufferLoop ipu6DmaAlloc ipu6DmaFree
  getVmInfo findIova)
open Runs (Reachable)

-- ---------------------------------------------------------------------------
-- The driver, the device and the kernel
-- ---------------------------------------------------------------------------

/-- The pages that `__alloc_buffer` is given. It clears each of them, and frees them again
if it is not given all. -/
def gotPages (env : Dma.AllocEnv) (size : Nat) : List Nat :=
  let count := pageAlign64 size / 4096
  if env.kzalloc && env.allocIova.isSome && env.kvzalloc then (allocBufferLoop env.allocPages count 0 count []).1
  else []

/-- The pages that `ipu6_dma_free` clears and frees. -/
def freedPages (d : Dma.Ipu6Mmu) (size handle : Nat) : List Nat :=
  match findIova d.iovad (handle / 4096), getVmInfo d.vmaList handle with
  | some _, some info => if info.vaddr = 0 then [] else info.pages.take (pageAlign64 size / 4096)
  | _, _ => []

def Memory.clear (mem : Memory) (pages : List Nat) : Memory :=
  { mem with byte := fun a => if a / 4096 ∈ pages then 0 else mem.byte a }

/-- The buffer as `vmap` shows it to the CPU. -/
def cpuBuf (v : VmInfo) : DmaBuf := ⟨v.ipu6Iova, v.count, fun j => v.pages.getD j 0⟩

/-- The driver, its live buffers, and guest memory. -/
structure Shared where
  d : Dma.Ipu6Mmu
  live : List Buffer
  mem : Memory

/-- `kernel` is all else that is written to guest memory. -/
inductive MemEv
  | alloc (env : Dma.AllocEnv) (size : Nat)
  | free (b : Buffer)
  | cpuWrite (b : Buffer) (o : Nat) (buf : List UInt8)
  | devWrite (iova : Nat) (buf : List UInt8)
  | kernel (mem : Memory)

/-- What an access leaves, and the handle of the buffer that it has allocated. -/
def Shared.next (w : Shared) : MemEv → Option (Shared × Option Nat)
  | .alloc env size =>
    (ipu6DmaAlloc w.d env size).map fun (d, r) =>
      let mem := (w.mem.clear (gotPages env size)).withTables d.mmu
      match r with
      | none => (⟨d, w.live, mem⟩, none)
      | some (_, handle) => (⟨d, ⟨handle, size⟩ :: w.live, mem⟩, some handle)
  | .free b =>
    (ipu6DmaFree w.d b.size b.handle).map fun d =>
      (⟨d, w.live.erase b, (w.mem.clear (freedPages w.d b.size b.handle)).withTables d.mmu⟩, none)
  | .cpuWrite b o buf =>
    (getVmInfo w.d.vmaList b.handle).map fun v => ({ w with mem := (cpuBuf v).hostWrite w.mem o buf }, none)
  | .devWrite iova buf =>
    some ({ w with mem := (ipu4DmaWriteIova w.mem w.d.mmu.l1PtDma iova buf).1 }, none)
  | .kernel mem => some ({ w with mem := mem }, none)

/-- The same access in a flat memory. A new buffer is all zeros. -/
def flatNext (A : Nat → UInt8) : MemEv → Option Nat → Nat → UInt8
  | .alloc _ size, some handle => fun x => if handle ≤ x ∧ x < handle + pageAlign64 size then 0 else A x
  | .cpuWrite b o buf, _ => put A (b.handle + o) buf
  | .devWrite iova buf, _ => put A iova buf
  | _, _ => A

-- ---------------------------------------------------------------------------
-- Who may do what
-- ---------------------------------------------------------------------------

/-- The frames that the device can come to. -/
def Reach (m : MmuInfo) (f : Nat) : Prop := f = m.dummyPagePteval ∨ ∃ p < 2 ^ 20, translate m p = f

/-- The pages of the driver: its tables, and all that they lead to. -/
def InUse (m : MmuInfo) (f : Nat) : Prop := (tableOf m f).isSome ∨ Reach m f

def Memory.Backs (mem : Memory) (f : Nat) : Prop := ∀ o < 4096, mem.backed (f * 4096 + o) = true

/-- The kernel gives out pages that are not in use, and their DMA addresses are those of
the pages. -/
structure GuestOk (w : Shared) (env : Dma.AllocEnv) (size : Nat) : Prop where
  answers : EnvOk w.d env size
  pages : ∀ f ∈ gotPages env size, f ≠ 0 ∧ ¬ InUse w.d.mmu f ∧ w.mem.Backs f
  nodup : (gotPages env size).Nodup
  direct : ∀ k a, env.dmaMapPage k = some a → (gotPages env size)[k]? = some (a / 4096)
  tables : ∀ i a, w.d.mmu.l2Pts i = none → (env.tables i).dmaMapSingle = some a →
    ¬ InUse w.d.mmu (a / 4096) ∧ a / 4096 ∉ gotPages env size ∧ w.mem.Backs (a / 4096)

/-- The bytes of a transfer are in a row. They are, if it stays on one page. -/
def InRow (m : MmuInfo) (iova len : Nat) : Prop :=
  ∀ i < len, addr 4096 (translate m) (iova + i) = addr 4096 (translate m) iova + i

/-- Callers keep to the buffers that they have. The device may write anywhere. -/
def Shared.Legal (w : Shared) : MemEv → Prop
  | .alloc env size => 0 < size ∧ size < 2 ^ 64 ∧ GuestOk w env size
  | .free b => b ∈ w.live
  | .cpuWrite b o buf => b ∈ w.live ∧ o + buf.length ≤ pageAlign64 b.size
  | .devWrite iova buf => iova < 2 ^ 32 ∧ iova + buf.length ≤ 2 ^ 32 ∧ InRow w.d.mmu iova buf.length
  | .kernel mem => mem.backed = w.mem.backed ∧
      ∀ a, InUse w.d.mmu (a / 4096) → mem.byte a = w.mem.byte a

/-- The driver has its tables in guest memory, and no buffer. -/
structure Shared.Begins (w : Shared) : Prop where
  start : Start w.d
  live : w.live = []
  base : BaseAddrs w.d.mmu
  own : OwnFrames w.mem w.d.mmu
  holds : Holds w.mem w.d.mmu
  plain : ∀ f, Reach w.d.mmu f → f ≠ 0 ∧ tableOf w.d.mmu f = none ∧ w.mem.Backs f

/-- A run beside a flat memory. -/
def Both := Shared × (Nat → UInt8)

def Both.Begins (s : Both) : Prop := s.1.Begins

def Both.Step (s : Both) (ev : MemEv) (s' : Both) : Prop :=
  s.1.Legal ev ∧ ∃ r, s.1.next ev = some (s'.1, r) ∧ s'.2 = flatNext s.2 ev r

/-- What is read of a flat memory. -/
def flatRead (A : Nat → UInt8) (x len : Nat) : List UInt8 := (List.range len).map fun i => A (x + i)

/-- Either side reads in the live buffers what is in `A`, the buffers do not overlap, and
every access comes back. -/
structure OneMemory (w : Shared) (A : Nat → UInt8) : Prop where
  apart : w.live.Pairwise fun b b' => Dma.Apart b.span b'.span
  cpu : ∀ b ∈ w.live, ∃ v, getVmInfo w.d.vmaList b.handle = some v ∧
    ∀ o len, o + len ≤ pageAlign64 b.size → (cpuBuf v).hostRead w.mem o len = flatRead A (b.handle + o) len
  dev : ∀ b ∈ w.live, ∀ o len, 0 < len → o + len ≤ pageAlign64 b.size → InRow w.d.mmu (b.handle + o) len →
    ipu4DmaReadIova w.mem w.d.mmu.l1PtDma (b.handle + o) len = some (flatRead A (b.handle + o) len)
  returns : ∀ ev, w.Legal ev → (w.next ev).isSome

-- ---------------------------------------------------------------------------
-- The invariant
-- ---------------------------------------------------------------------------

/-- A page of a live buffer. -/
def LivePage (d : Dma.Ipu6Mmu) (p : Nat) : Prop := ∃ v ∈ d.vmaList, v.iova.Mem p

structure SharedInv (d₀ : Dma.Ipu6Mmu) (w : Shared) (A : Nat → UInt8) : Prop where
  start : Start d₀
  sys : SysInv d₀ ⟨w.d, w.live⟩
  base : BaseAddrs w.d.mmu
  own : OwnFrames w.mem w.d.mmu
  holds : Holds w.mem w.d.mmu
  plain : ∀ f, Reach w.d.mmu f → f ≠ 0 ∧ tableOf w.d.mmu f = none ∧ w.mem.Backs f
  alone : Private (2 ^ 20) (translate w.d.mmu) (LivePage w.d)
  dummy : ∀ p, LivePage w.d p → translate w.d.mmu p ≠ w.d.mmu.dummyPagePteval
  direct : ∀ v ∈ w.d.vmaList, ∀ k < v.count, v.pages.getD k 0 = translate w.d.mmu (v.page + k)
  sees : Sees 4096 (translate w.d.mmu) (LivePage w.d) w.mem.byte A

theorem Shared.Begins.inv {w : Shared} (h : w.Begins) (A : Nat → UInt8) : SharedInv w.d w A := by
  have hnone : ∀ p, ¬ LivePage w.d p := by
    rintro p ⟨v, hv, -⟩
    rw [h.start.vmaList] at hv
    cases hv
  refine ⟨h.start, ⟨h.start.store, ?_⟩, h.base, h.own, h.holds, h.plain, ⟨fun p hp => absurd hp (hnone p),
    fun p q hp => absurd hp (hnone p)⟩, fun p hp => absurd hp (hnone p), fun v hv => ?_,
    fun x hx => absurd hx (hnone _)⟩
  · rw [h.start.vmaList, h.live]
    exact .refl _
  · rw [h.start.vmaList] at hv
    cases hv

section
variable {d₀ : Dma.Ipu6Mmu} {w : Shared} {A A' : Nat → UInt8} {mem : Memory}

-- ---------------------------------------------------------------------------
-- What the device and the CPU come to
-- ---------------------------------------------------------------------------

theorem SharedInv.reach (h : SharedInv d₀ w A) (hx : x < 2 ^ 32) :
    translate w.d.mmu (x / 4096) ≠ 0 ∧ tableOf w.d.mmu (translate w.d.mmu (x / 4096)) = none ∧
      w.mem.Backs (translate w.d.mmu (x / 4096)) :=
  h.plain _ (.inr ⟨x / 4096, by omega, rfl⟩)

theorem SharedInv.walk (h : SharedInv d₀ w A) (hx : x < 2 ^ 32) :
    ipu4IovaToPhys w.mem w.d.mmu.l1PtDma x = some (addr 4096 (translate w.d.mmu) x) := by
  rw [ipu4IovaToPhys_eq, frame_eq h.sys.store.inv h.base h.holds (by omega), if_neg (h.reach hx).1]
  rfl

theorem SharedInv.backed (h : SharedInv d₀ w A) (hx : x < 2 ^ 32) :
    w.mem.backed (addr 4096 (translate w.d.mmu) x) = true :=
  (h.reach hx).2.2 _ (Nat.mod_lt _ (by decide))

theorem SharedInv.row_backed (h : SharedInv d₀ w A) (hx : x + len ≤ 2 ^ 32) (hrow : InRow w.d.mmu x len) :
    w.mem.allBacked (addr 4096 (translate w.d.mmu) x) len = true := by
  refine allBacked_iff.mpr fun k hk => ?_
  rw [← hrow k hk]
  exact h.backed (by omega)

theorem SharedInv.found (h : SharedInv d₀ w A) (hb : b ∈ w.live) :
    ∃ v ∈ w.d.vmaList, getVmInfo w.d.vmaList b.handle = some v ∧ v.ipu6Iova = b.handle ∧
      v.size = pageAlign64 b.size := by
  obtain ⟨v, hv, hspan⟩ := h.sys.entry hb
  have hhandle : v.ipu6Iova = b.handle := congrArg Prod.fst hspan
  have hok := h.sys.store.ok v hv
  have hsize := hok.size
  have hpos := hok.nonempty
  refine ⟨v, hv, (h.sys.store.getVmInfo_iff _ v).mpr ⟨hv, by omega, by omega⟩, hhandle, congrArg Prod.snd hspan⟩

theorem SharedInv.offset (h : SharedInv d₀ w A) (hv : v ∈ w.d.vmaList) (ho : o < v.size) :
    LivePage w.d ((v.ipu6Iova + o) / 4096) ∧ v.ipu6Iova + o < 2 ^ 32 ∧
      (cpuBuf v).hostAddr o = addr 4096 (translate w.d.mmu) (v.ipu6Iova + o) := by
  have hok := h.sys.store.ok v hv
  have hal := hok.aligned
  have hsize := hok.size
  have hbound := hok.bound
  have hpage : (v.ipu6Iova + o) / 4096 = v.page + o / 4096 := by omega
  have hoff : (v.ipu6Iova + o) % 4096 = o % 4096 := by omega
  refine ⟨⟨v, hv, ?_⟩, by omega, ?_⟩
  · rw [hok.mem_iova]
    omega
  · unfold DmaBuf.hostAddr addr
    rw [hpage, hoff, ← h.direct v hv _ (by omega)]
    rfl

theorem SharedInv.tableOf_l1Pt (h : SharedInv d₀ w A) (i : Nat) : (tableOf w.d.mmu (w.d.mmu.l1Pt i)).isSome := by
  have hi := h.sys.store.inv
  cases ht : w.d.mmu.l2Pts i with
  | none =>
    rw [hi.empty i ht, h.own.tableOf_dummy]
    rfl
  | some pt =>
    rw [hi.entry i pt ht, h.own.tableOf_some hi ht]
    rfl

theorem SharedInv.mapped (h : SharedInv d₀ w A) (hv : v ∈ w.d.vmaList) :
    (cpuBuf v).Mapped w.mem w.d.mmu.l1PtDma := by
  have hok := h.sys.store.ok v hv
  have hal := hok.aligned
  have hsize := hok.size
  have hbound := hok.bound
  have hlive : ∀ j < v.count, LivePage w.d (v.page + j) := fun j hj => ⟨v, hv, by rw [hok.mem_iova]; omega⟩
  have hpfn : ∀ j < v.count, (cpuBuf v).pfn j = translate w.d.mmu (v.page + j) := h.direct v hv
  have hplain : ∀ j < v.count, _ := fun j hj => h.plain _ (.inr ⟨v.page + j, by omega, (hpfn j hj).symm⟩)
  refine ⟨?_, fun j hj => ?_, fun j hj => (hplain j hj).2.2, fun i hi j hj heq => ?_, fun j hj => ⟨?_, ?_⟩⟩
  · show v.ipu6Iova % 4096 = 0
    omega
  · have hlt : j * 4096 < v.size := by
      have : j < v.count := hj
      omega
    have hat := (h.offset hv hlt).2.2
    rw [show (cpuBuf v).dmaAddr = v.ipu6Iova from rfl, h.walk (h.offset hv hlt).2.1, ← hat]
    unfold DmaBuf.hostAddr
    rw [Nat.mul_mod_left, Nat.mul_div_cancel _ (by decide), Nat.add_zero]
  · rw [hpfn i hi, hpfn j hj] at heq
    have : i < v.count := hi
    have := h.alone.alone _ (v.page + i) (hlive j hj) (by omega) heq
    omega
  · rintro heq
    have hno := (hplain j hj).2.1
    rw [heq, tableOf_l1] at hno
    cases hno
  · intro i hi heq
    rw [h.holds.l1.readPte hi] at heq
    split at heq
    · cases heq
    · have hno := (hplain j hj).2.1
      rw [← Option.some.inj heq] at hno
      have hsome := h.tableOf_l1Pt i
      rw [hno] at hsome
      cases hsome

theorem SharedInv.oneMemory (h : SharedInv d₀ w A) : OneMemory w A where
  apart := (h.sys.storeOk h.start).apart
  cpu b hb := by
    obtain ⟨v, hv, hfind, hhandle, hsize⟩ := h.found hb
    refine ⟨v, hfind, fun o len hlen => List.map_congr_left fun i hi => ?_⟩
    have hlt := List.mem_range.mp hi
    obtain ⟨hlive, -, hat⟩ := h.offset hv (o := o + i) (by omega)
    rw [hat, h.sees _ hlive, hhandle, Nat.add_assoc]
  dev b hb o len hpos hlen hrow := by
    obtain ⟨v, hv, -, hhandle, hsize⟩ := h.found hb
    rw [← hhandle] at hrow ⊢
    have hlast := (h.offset hv (o := o + (len - 1)) (by omega)).2.1
    rw [read_of_backed (h.walk (by omega)) (h.row_backed (by omega) hrow)]
    refine congrArg some (List.map_congr_left fun i hi => ?_)
    have hlt := List.mem_range.mp hi
    obtain ⟨hlive, -, -⟩ := h.offset hv (o := o + i) (by omega)
    rw [← hrow i hlt, Nat.add_assoc, h.sees _ hlive]
  returns ev hl := by
    cases ev with
    | alloc env size =>
      obtain ⟨d', r, hrun, -⟩ := Dma.dmaAlloc_spec h.sys.store h.start hl.2.2.answers
      simp [Shared.next, show ipu6DmaAlloc w.d env size = _ from hrun]
    | free b =>
      have hok : Dma.StepOk ⟨w.d, w.live⟩ (.free b) := h.sys.stepOk h.start hl
      obtain ⟨d', hrun⟩ : ∃ d', ipu6DmaFree w.d b.size b.handle = some d' := hok
      simp [Shared.next, hrun]
    | cpuWrite b o buf =>
      obtain ⟨v, -, hfind, -⟩ := h.found hl.1
      simp [Shared.next, hfind]
    | devWrite iova buf => rfl
    | kernel mem => rfl

-- ---------------------------------------------------------------------------
-- Writes
-- ---------------------------------------------------------------------------

theorem SharedInv.remem (h : SharedInv d₀ w A) (hb : mem.backed = w.mem.backed)
    (htab : ∀ a, (tableOf w.d.mmu (a / 4096)).isSome → mem.byte a = w.mem.byte a)
    (hs : Sees 4096 (translate w.d.mmu) (LivePage w.d) mem.byte A') : SharedInv d₀ { w with mem := mem } A' := by
  have hbacks : ∀ f, w.mem.Backs f → mem.Backs f := fun f hf o ho => by
    rw [hb]
    exact hf o ho
  exact ⟨h.start, h.sys, h.base, { h.own with backed := fun f hf => hbacks f (h.own.backed f hf) },
    h.holds.congr h.sys.store.inv h.own hb htab,
    fun f hf => ⟨(h.plain f hf).1, (h.plain f hf).2.1, hbacks f (h.plain f hf).2.2⟩,
    h.alone, h.dummy, h.direct, hs⟩

theorem put_bytes (m : Memory) (x : Nat) (buf : List UInt8) :
    (fun a => if x ≤ a ∧ a < x + buf.length then buf.getD (a - x) 0 else m.byte a) = put m.byte x buf := by
  funext a
  unfold put
  by_cases hle : x ≤ a
  · by_cases hlt : a < x + buf.length
    · rw [if_pos ⟨hle, hlt⟩, if_pos hle, List.getD_eq_getElem?_getD, List.getElem?_eq_getElem (by omega)]
      rfl
    · rw [if_neg fun h => hlt h.2, if_pos hle, List.getElem?_eq_none (by omega)]
      rfl
  · rw [if_neg fun h => hle h.1, if_neg hle]

theorem SharedInv.devWrite (h : SharedInv d₀ w A) (hx : iova < 2 ^ 32) (hend : iova + buf.length ≤ 2 ^ 32)
    (hrow : InRow w.d.mmu iova buf.length) :
    SharedInv d₀ { w with mem := (ipu4DmaWriteIova w.mem w.d.mmu.l1PtDma iova buf).1 } (put A iova buf) := by
  have hwalk := h.walk hx
  have hbytes : (ipu4DmaWriteIova w.mem w.d.mmu.l1PtDma iova buf).1.byte =
      put w.mem.byte (addr 4096 (translate w.d.mmu) iova) buf := by
    rw [← put_bytes]
    exact funext fun a => byte_write hwalk (h.row_backed hend hrow) a
  refine h.remem ?_ (fun a ha => ?_) ?_
  · simp only [ipu4DmaWriteIova, hwalk, pciDmaWrite]
  · rw [hbytes]
    refine put_outside fun i hi heq => ?_
    rw [← heq, ← hrow i hi, addr_div (by decide), (h.reach (x := iova + i) (by omega)).2.1] at ha
    cases ha
  · rw [hbytes]
    exact h.sees.put_block (by decide) h.alone (fun i hi => by omega) hrow

theorem SharedInv.cpuWrite (h : SharedInv d₀ w A) (hv : v ∈ w.d.vmaList) (ho : o + buf.length ≤ v.size) :
    SharedInv d₀ { w with mem := (cpuBuf v).hostWrite w.mem o buf } (put A (v.ipu6Iova + o) buf) := by
  have hmapped := h.mapped hv
  have hpages : v.size = (cpuBuf v).nPages * 4096 := by
    rw [(h.sys.store.ok v hv).size, Nat.mul_comm]
    rfl
  have hat : ∀ i < buf.length, (cpuBuf v).hostAddr (o + i) = addr 4096 (translate w.d.mmu) (v.ipu6Iova + o + i) ∧
      v.ipu6Iova + o + i < 2 ^ 32 := by
    intro i hi
    rw [Nat.add_assoc]
    exact (h.offset hv (o := o + i) (by omega)).2.symm
  refine h.remem rfl (fun a ha => ?_) (h.sees.put (by decide) h.alone (fun i hi => ?_) (fun i hi => ?_)
    fun a hout => ?_)
  · refine byte_hostWrite_of_ne fun i hi heq => ?_
    obtain ⟨haddr, hlt⟩ := hat i hi
    rw [← heq, haddr, addr_div (by decide), (h.reach hlt).2.1] at ha
    cases ha
  · have := (hat i hi).2
    omega
  · rw [← (hat i hi).1, byte_hostWrite hmapped (by omega) hi, List.getD_eq_getElem _ _ hi]
  · refine byte_hostWrite_of_ne fun i hi => ?_
    rw [(hat i hi).1]
    exact hout i hi

theorem SharedInv.kernel (h : SharedInv d₀ w A) (hb : mem.backed = w.mem.backed)
    (hsame : ∀ a, InUse w.d.mmu (a / 4096) → mem.byte a = w.mem.byte a) :
    SharedInv d₀ { w with mem := mem } A := by
  refine h.remem hb (fun a ha => hsame a (.inl ha)) (h.sees.congr (by decide) fun p a hp ha => hsame a ?_)
  exact .inr (.inr ⟨p, h.alone.bound p hp, ha.symm⟩)

-- ---------------------------------------------------------------------------
-- Tables
-- ---------------------------------------------------------------------------

/-- The page table after a call. Tables and the pages `got`, which the device newly comes
to, are in pages that were not in use. -/
structure Regrown (w : Shared) (env : Nat → PageEnv) (got : List Nat) (m : MmuInfo) : Prop where
  tables : TablesFrom env w.d.mmu m
  fresh : ∀ i a, w.d.mmu.l2Pts i = none → (env i).dmaMapSingle = some a →
    ¬ InUse w.d.mmu (a / 4096) ∧ a / 4096 ∉ got ∧ w.mem.Backs (a / 4096)
  unused : ∀ f ∈ got, f ≠ 0 ∧ ¬ InUse w.d.mmu f ∧ w.mem.Backs f
  reach : ∀ p < 2 ^ 20, Reach w.d.mmu (translate m p) ∨ translate m p ∈ got ∧ translate m p < 2 ^ 32

section
variable {env : Nat → PageEnv} {got : List Nat} {m : MmuInfo}

theorem Regrown.tables_cases (hr : Regrown w env got m) (h : SharedInv d₀ w A) (hf : (tableOf m f).isSome) :
    (tableOf w.d.mmu f).isSome ∨ ¬ InUse w.d.mmu f ∧ f ∉ got ∧ w.mem.Backs f := by
  rcases tableOf_cases hf with rfl | rfl | ⟨i, pt, hpt, rfl⟩
  · rw [hr.tables.l1PtDma, tableOf_l1]
    exact .inl rfl
  · rw [hr.tables.dummyL2, h.own.tableOf_dummy]
    exact .inl rfl
  · rcases hr.tables.tables i pt hpt with ⟨q, hq, hdma⟩ | ⟨hn, ha⟩
    · rw [← hdma, h.own.tableOf_some h.sys.store.inv hq]
      exact .inl rfl
    · exact .inr (hr.fresh i _ hn ha)

theorem Regrown.reach_cases (hr : Regrown w env got m) (hf : Reach m f) : Reach w.d.mmu f ∨ f ∈ got := by
  rcases hf with rfl | ⟨p, hp, rfl⟩
  · exact .inl (.inl hr.tables.ext.dummyPage)
  · exact (hr.reach p hp).imp_right And.left

theorem Regrown.no_table (hr : Regrown w env got m) (h : SharedInv d₀ w A) (hf : Reach m f) :
    tableOf m f = none := by
  by_contra hsome
  rcases hr.tables_cases h (Option.isSome_iff_ne_none.mpr hsome) with hold | ⟨hunused, hgot, -⟩
  · rcases hr.reach_cases hf with hreach | hnew
    · rw [(h.plain f hreach).2.1] at hold
      cases hold
    · exact (hr.unused f hnew).2.1 (.inl hold)
  · rcases hr.reach_cases hf with hreach | hnew
    · exact hunused (.inr hreach)
    · exact hgot hnew

theorem Regrown.own (hr : Regrown w env got m) (h : SharedInv d₀ w A) (hb : mem.backed = w.mem.backed) :
    OwnFrames mem m := by
  have hdummy : w.d.mmu.dummyL2Pteval < 2 ^ 32 ∨ ∀ j < 1024, m.l2Pts j ≠ none := by
    by_cases hall : ∀ j < 1024, m.l2Pts j ≠ none
    · exact .inr hall
    · push Not at hall
      obtain ⟨j, hj, hn⟩ := hall
      have hold : w.d.mmu.l2Pts j = none := by
        by_contra hsome
        have hkept := hr.tables.ext.tables j (Option.isSome_iff_ne_none.mpr hsome)
        rw [hn] at hkept
        cases hkept
      have hl1 := h.own.l1 j hj
      rw [h.sys.store.inv.empty j hold] at hl1
      exact .inl hl1
  refine ⟨hr.tables.slots, ?_, ?_, fun i pt hpt heq => ?_, fun f hf o ho => ?_,
    fun j hj => ?_, fun p hp => ?_, ?_⟩
  · rw [hr.tables.l1PtDma]
    exact hr.tables.maps h.own.mapped
  · rw [hr.tables.l1PtDma, hr.tables.dummyL2]
    exact h.own.dummy
  · rw [hr.tables.l1PtDma] at heq
    rcases hr.tables.tables i pt hpt with ⟨q, hq, hdma⟩ | ⟨hn, ha⟩
    · exact h.own.tables i q hq (by rw [hdma, heq])
    · refine (hr.fresh i _ hn ha).1 (.inl ?_)
      rw [heq, tableOf_l1]
      rfl
  · rw [hb]
    rcases hr.tables_cases h hf with hold | ⟨-, -, hbacked⟩
    · exact h.own.backed f hold o ho
    · exact hbacked o ho
  · have hi := hr.tables.ext.inv
    cases ht : m.l2Pts j with
    | none =>
      rw [hi.empty j ht, hr.tables.dummyL2]
      exact hdummy.resolve_right fun hall => hall j hj ht
    | some pt =>
      have hbound := (hi.addr j pt ht).1.bound
      rw [hi.entry j pt ht]
      omega
  · rcases hr.reach p hp with (heq | ⟨q, hq, heq⟩) | ⟨-, hlt⟩
    · rw [heq]
      exact h.own.dummyPage
    · rw [← heq]
      exact h.own.frames q hq
    · exact hlt
  · rw [hr.tables.ext.dummyPage]
    exact h.own.dummyPage

theorem Regrown.inv {d : Dma.Ipu6Mmu} {live : List Buffer} (hr : Regrown w env got d.mmu) (h : SharedInv d₀ w A)
    (hb : mem.backed = w.mem.backed) (hsys : SysInv d₀ ⟨d, live⟩)
    (halone : Private (2 ^ 20) (translate d.mmu) (LivePage d))
    (hdummy : ∀ p, LivePage d p → translate d.mmu p ≠ d.mmu.dummyPagePteval)
    (hdirect : ∀ v ∈ d.vmaList, ∀ k < v.count, v.pages.getD k 0 = translate d.mmu (v.page + k))
    (hsees : Sees 4096 (translate d.mmu) (LivePage d) mem.byte A') :
    SharedInv d₀ ⟨d, live, mem.withTables d.mmu⟩ A' where
  start := h.start
  sys := hsys
  base := ⟨hr.tables.l1PtDma ▸ h.base.l1, hr.tables.dummyL2 ▸ h.base.dummyL2,
    hr.tables.ext.dummyPage ▸ h.base.dummyPage⟩
  own := hr.own h hb
  holds := holds_withTables hsys.store.inv (hr.own h hb)
  plain f hf := by
    have hbacks : mem.backed = w.mem.backed → w.mem.Backs f → (mem.withTables d.mmu).Backs f := by
      intro hsame hold o ho
      show mem.backed _ = true
      rw [hsame]
      exact hold o ho
    rcases hr.reach_cases hf with hreach | hnew
    · exact ⟨(h.plain f hreach).1, hr.no_table h hf, hbacks hb (h.plain f hreach).2.2⟩
    · exact ⟨(hr.unused f hnew).1, hr.no_table h hf, hbacks hb (hr.unused f hnew).2.2⟩
  alone := halone
  dummy := hdummy
  direct := hdirect
  sees := hsees.congr (by decide) fun p a hp ha => byte_withTables (by
    rw [ha]
    exact hr.no_table h (.inr ⟨p, halone.bound p hp, rfl⟩))

end

theorem byte_clear (h : a / 4096 ∉ pages) : (mem.clear pages).byte a = mem.byte a := if_neg h

-- ---------------------------------------------------------------------------
-- Freeing
-- ---------------------------------------------------------------------------

theorem SharedInv.freedPages (h : SharedInv d₀ w A) (hv : v ∈ w.d.vmaList)
    (hf : f ∈ freedPages w.d size v.ipu6Iova) :
    ∃ k < v.count, f = translate w.d.mmu (v.page + k) := by
  have hok := h.sys.store.ok v hv
  have hsize := hok.size
  have hpos := hok.nonempty
  have hinfo : getVmInfo w.d.vmaList v.ipu6Iova = some v :=
    (h.sys.store.getVmInfo_iff _ _).mpr ⟨hv, Nat.le_refl _, by omega⟩
  have hmem : f ∈ v.pages := by
    cases hfind : findIova w.d.iovad (v.ipu6Iova / 4096) with
    | none => simp [Qemu.freedPages, hfind] at hf
    | some r =>
      simp only [Qemu.freedPages, hfind, hinfo, if_neg hok.vaddr] at hf
      exact List.mem_of_mem_take hf
  obtain ⟨k, hk, rfl⟩ := List.getElem_of_mem hmem
  rw [hok.pages] at hk
  refine ⟨k, hk, ?_⟩
  rw [← h.direct v hv k hk, List.getD_eq_getElem]

theorem SharedInv.free (h : SharedInv d₀ w A) (hb : b ∈ w.live)
    (hrun : ipu6DmaFree w.d b.size b.handle = some d') :
    SharedInv d₀ ⟨d', w.live.erase b,
      (w.mem.clear (Qemu.freedPages w.d b.size b.handle)).withTables d'.mmu⟩ A := by
  obtain ⟨v, hv, -, hhandle, hsize⟩ := h.found hb
  have hok := h.sys.store.ok v hv
  have hsys := h.sys.step h.start (Dma.Step.free (b := b) hb hrun)
  have heq := Dma.dmaFree_eq h.sys.store hv hsize.symm
  rw [hhandle, hrun] at heq
  obtain rfl := Option.some.inj heq
  obtain ⟨htr, hk⟩ := mmuUnmap_spec h.sys.store.inv hok.bound fun k hk => h.sys.store.tables v hv k hk
  have htr : translate (w.d.freed v).mmu = _ := htr
  -- the pages of the other buffers are elsewhere
  have hpair := (List.pairwise_map.mp h.sys.store.pairwise).perm (List.perm_cons_erase hv) Dma.Iova.Disjoint.symm
  have hsub : ∀ p, LivePage (w.d.freed v) p → LivePage w.d p ∧ ¬ (v.page ≤ p ∧ p < v.page + v.count) := by
    rintro p ⟨u, hu, hp⟩
    refine ⟨⟨u, List.mem_of_mem_erase hu, hp⟩, fun hin => ?_⟩
    exact (List.pairwise_cons.mp hpair).1 u hu p ((hok.mem_iova p).mpr hin) hp
  have hsame : ∀ p, LivePage (w.d.freed v) p → translate (w.d.freed v).mmu p = translate w.d.mmu p :=
      fun p hp => by
    rw [htr, overlay_of_not_mem (hsub p hp).2]
  have hr : Regrown w (fun _ => ⟨none, none⟩) [] (w.d.freed v).mmu := by
    refine ⟨(TablesFrom.refl h.sys.store.inv ?_ h.own.slots).kept hk, ?_, by simp, fun p hp => .inl ?_⟩
    · intro i a _ ha
      cases ha
    · intro i a _ ha
      cases ha
    · rw [htr]
      by_cases hin : v.page ≤ p ∧ p < v.page + v.count
      · rw [overlay_of_mem hin.1 hin.2]
        exact .inl rfl
      · rw [overlay_of_not_mem hin]
        exact .inr ⟨p, hp, rfl⟩
  refine hr.inv h rfl hsys ?_ (fun p hp => ?_) (fun u hu k hku => ?_) ?_
  · rw [htr]
    exact h.alone.drop hsub h.dummy
  · rw [hsame p hp, hr.tables.ext.dummyPage]
    exact h.dummy p (hsub p hp).1
  · have hmem := List.mem_of_mem_erase hu
    have hlive : LivePage (w.d.freed v) (u.page + k) :=
      ⟨u, hu, ((h.sys.store.ok u hmem).mem_iova _).mpr ⟨by omega, by omega⟩⟩
    rw [hsame _ hlive]
    exact h.direct u hmem k hku
  · have hcleared : Sees 4096 (translate (w.d.freed v).mmu) (LivePage (w.d.freed v)) w.mem.byte A :=
      h.sees.remap fun p hp => ⟨(hsub p hp).1, hsame p hp⟩
    refine hcleared.congr (by decide) fun p a hp ha => byte_clear fun hf => ?_
    -- a page of the freed buffer is no page of another one
    rw [← hhandle] at hf
    obtain ⟨k, hk, hfk⟩ := h.freedPages hv hf
    have hbound := hok.bound
    rw [ha, hsame p hp] at hfk
    have hpage := h.alone.alone p (v.page + k) (hsub p hp).1 (by omega) hfk.symm
    exact (hsub p hp).2 ⟨by omega, by omega⟩

-- ---------------------------------------------------------------------------
-- Allocating
-- ---------------------------------------------------------------------------

/-- What an allocation leaves that has succeeded: its pages are those that it was given. -/
structure Got (d : Dma.Ipu6Mmu) (env : Dma.AllocEnv) (size lo vaddr : Nat) (d' : Dma.Ipu6Mmu) : Prop where
  bound : lo + pageAlign64 size / 4096 ≤ 2 ^ 20
  length : (gotPages env size).length = pageAlign64 size / 4096
  got : ∀ k < pageAlign64 size / 4096, env.dmaMapPage k = some (Dma.addr env k)
  translate : translate d'.mmu = overlay (translate d.mmu) lo (pageAlign64 size / 4096) (Dma.addr env · / 4096)
  vmaList : d'.vmaList = ⟨gotPages env size, 4096 * lo, vaddr, pageAlign64 size⟩ :: d.vmaList

theorem allocBuffer_got {d d₁ : Dma.Ipu6Mmu} {env : Dma.AllocEnv} (hk : env.kzalloc = true)
    (hlo : env.allocIova = some lo) (h : Dma.allocBuffer d env (pageAlign64 size) = (d₁, some pages)) :
    gotPages env size = pages := by
  unfold Dma.allocBuffer at h
  cases hkv : env.kvzalloc with
  | false => simp [hkv] at h
  | true =>
    simp only [hkv, Bool.not_true, Bool.false_eq_true, if_false] at h
    simp only [gotPages, hk, hlo, hkv, Option.isSome_some, Bool.and_self, if_true]
    split at h
    · next heq =>
      rw [heq]
      exact Option.some.inj (Prod.mk.inj h).2
    · cases (Prod.mk.inj h).2

theorem dmaAlloc_got {d d' : Dma.Ipu6Mmu} {env : Dma.AllocEnv} (h : Store d₀ d) (h₀ : Start d₀)
    (he : EnvOk d env size) (hrun : ipu6DmaAlloc d env size = some (d', some (vaddr, handle))) :
    ∃ lo, handle = 4096 * lo ∧ Got d env size lo vaddr d' := by
  unfold ipu6DmaAlloc at hrun
  cases hk : env.kzalloc with
  | false => simp [hk] at hrun
  | true =>
    cases hlo : env.allocIova with
    | none => simp [hk, hlo] at hrun
    | some lo =>
      obtain ⟨hpos, hbound, hfree⟩ := he.iova lo hlo
      have hap := h.aperture
      have hap₀ := h₀.aperture
      generalize hn : pageAlign64 size / 4096 = n at *
      have hb : lo + n ≤ 2 ^ 20 := by omega
      have hun : ∀ k < 0 + n, translate d.mmu (lo + k) = d.mmu.dummyPagePteval := fun k hlt =>
        h.translate_free h₀ (hfree _ (by omega) (by omega))
      simp only [hk, hlo, hn, Bool.not_true, Bool.false_eq_true, if_false] at hrun
      rcases Dma.allocBuffer_cases { d with iovad := ⟨lo, lo + n - 1⟩ :: d.iovad } env (pageAlign64 size) with
        hbuf | ⟨pages, hlen, hbuf⟩
      · simp [hbuf] at hrun
      · rw [hbuf] at hrun
        rw [hn] at hlen
        have hzero : Dma.Partial env lo pages (d.reserve ⟨lo, lo + n - 1⟩ pages) 0
            (d.reserve ⟨lo, lo + n - 1⟩ pages) := .zero h.inv he.tables
        obtain ⟨d₂, t, ok, hloop, hpart, -, hall⟩ := Dma.allocMapLoop_spec (lo + n - 1) hzero he.dma
          (by omega) hun
        have hrounds : lo + n - 1 + 1 - lo = n := by omega
        have hloop' : Dma.allocMapLoop env ⟨lo, lo + n - 1⟩ pages n 0
            { d with iovad := ⟨lo, lo + n - 1⟩ :: d.iovad, pages := Ledger.acquire d.pages pages } =
              (d₂, t, ok) := hloop
        simp only [hrounds, hloop'] at hrun
        cases hvm : (if ok = true then Dma.vmap env n else none) with
        | none =>
          simp only [hvm] at hrun
          obtain ⟨_, -, heq⟩ := Option.bind_eq_some_iff.mp hrun
          cases heq
        | some vaddr' =>
          obtain ⟨hok, -, -⟩ := Dma.vmap_some hvm
          obtain rfl : t = n := by simpa using hall hok
          simp only [hvm, Option.some.injEq, Prod.mk.injEq] at hrun
          obtain ⟨rfl, rfl, rfl⟩ := hrun
          have hgot := allocBuffer_got hk hlo hbuf
          refine ⟨lo, rfl, by rw [hn]; exact hb, by rw [hgot, hlen, hn],
            fun k hlt => hpart.got k (by omega), ?_, ?_⟩
          · rw [hn]
            exact hpart.tr
          · rw [hgot, hpart.vmaList]
            rfl

theorem SharedInv.allocNone (h : SharedInv d₀ w A) {env : Dma.AllocEnv} (hl : w.Legal (.alloc env size))
    (hrun : ipu6DmaAlloc w.d env size = some (d', none)) :
    SharedInv d₀ ⟨d', w.live, (w.mem.clear (gotPages env size)).withTables d'.mmu⟩ A := by
  obtain ⟨hpos, hlt, hok⟩ := hl
  have hsys := h.sys.step h.start (Dma.Step.alloc none ⟨hpos, hlt, hok.answers⟩ hrun)
  obtain ⟨d₁, r, hrun₁, halloc⟩ := Dma.dmaAlloc_spec h.sys.store h.start hok.answers
  obtain ⟨rfl, rfl⟩ := Prod.mk.inj (Option.some.inj (hrun₁.symm.trans hrun))
  have hu := halloc.failed rfl
  have hlive : LivePage d₁ = LivePage w.d := by
    funext p
    rw [LivePage, hu.vmaList]
    rfl
  have hr : Regrown w env.tables (gotPages env size) d₁.mmu := by
    refine ⟨tablesFrom_dmaAlloc h.sys.store.inv hok.answers.tables h.own.slots hrun, hok.tables, hok.pages,
      fun p hp => .inl ?_⟩
    rw [hu.translate]
    exact .inr ⟨p, hp, rfl⟩
  refine hr.inv h rfl hsys ?_ ?_ ?_ ?_
  · rw [hlive, hu.translate]
    exact h.alone
  · rw [hlive, hu.translate, hr.tables.ext.dummyPage]
    exact h.dummy
  · rw [hu.vmaList, hu.translate]
    exact h.direct
  · rw [hlive, hu.translate]
    refine h.sees.congr (by decide) fun p a hp ha => byte_clear fun hf => ?_
    exact (hok.pages _ hf).2.1 (.inr (.inr ⟨p, h.alone.bound p hp, ha.symm⟩))

theorem SharedInv.allocSome (h : SharedInv d₀ w A) {env : Dma.AllocEnv} (hl : w.Legal (.alloc env size))
    (hrun : ipu6DmaAlloc w.d env size = some (d', some (vaddr, handle))) :
    SharedInv d₀ ⟨d', ⟨handle, size⟩ :: w.live, (w.mem.clear (gotPages env size)).withTables d'.mmu⟩
      (flatNext A (.alloc env size) (some handle)) := by
  obtain ⟨hpos, hlt, hok⟩ := hl
  have hsys := h.sys.step h.start (Dma.Step.alloc (some (vaddr, handle)) ⟨hpos, hlt, hok.answers⟩ hrun)
  obtain ⟨lo, rfl, hgot⟩ := dmaAlloc_got h.sys.store h.start hok.answers hrun
  obtain ⟨hb, hlen, hmapped, htr, hlist⟩ := hgot
  have hal : pageAlign64 size = 4096 * (pageAlign64 size / 4096) := by
    unfold pageAlign64
    omega
  generalize hn : pageAlign64 size / 4096 = n at *
  -- the frames of the new pages
  have hframe : ∀ k < n, (gotPages env size)[k]? = some (Dma.addr env k / 4096) ∧
      Dma.addr env k / 4096 < 2 ^ 32 := by
    intro k hk
    obtain ⟨-, hbound, -⟩ := hok.answers.dma k _ (hmapped k hk)
    exact ⟨hok.direct k _ (hmapped k hk), by omega⟩
  have hmem : ∀ k < n, Dma.addr env k / 4096 ∈ gotPages env size := fun k hk =>
    List.mem_of_getElem? (hframe k hk).1
  have hinj : ∀ i < n, ∀ j < n, Dma.addr env i / 4096 = Dma.addr env j / 4096 → i = j := by
    intro i hi j hj heq
    refine (List.getElem?_inj (by omega) hok.nodup).mp ?_
    rw [(hframe i hi).1, (hframe j hj).1, heq]
  have hpos : 0 < n := by
    have hvok := hsys.store.ok _ (by rw [hlist]; exact List.mem_cons_self)
    have hnonempty := hvok.nonempty
    simpa only [Dma.VmInfo.count, hn] using hnonempty
  have hlive : ∀ p, LivePage d' p ↔ (lo ≤ p ∧ p < lo + n) ∨ LivePage w.d p := by
    intro p
    have hrange : Dma.Iova.Mem p (Dma.VmInfo.iova ⟨gotPages env size, 4096 * lo, vaddr, pageAlign64 size⟩) ↔
        lo ≤ p ∧ p < lo + n := by
      simp only [Dma.Iova.Mem, Dma.VmInfo.iova, Dma.VmInfo.page, Dma.VmInfo.count, hn]
      omega
    simp only [LivePage, hlist, List.exists_mem_cons_iff, hrange]
  have hr : Regrown w env.tables (gotPages env size) d'.mmu := by
    refine ⟨tablesFrom_dmaAlloc h.sys.store.inv hok.answers.tables h.own.slots hrun, hok.tables, hok.pages,
      fun p hp => ?_⟩
    rw [htr]
    by_cases hin : lo ≤ p ∧ p < lo + n
    · rw [overlay_of_mem hin.1 hin.2]
      exact .inr ⟨hmem _ (by omega), (hframe _ (by omega)).2⟩
    · rw [overlay_of_not_mem hin]
      exact .inl (.inr ⟨p, hp, rfl⟩)
  -- the buffers that there were are elsewhere
  have hold : ∀ v ∈ w.d.vmaList, ∀ p, v.iova.Mem p → ¬ (lo ≤ p ∧ p < lo + n) := by
    intro v hv p hp hin
    have hpair := List.pairwise_map.mp hsys.store.pairwise
    rw [hlist] at hpair
    refine (List.pairwise_cons.mp hpair).1 v hv p ?_ hp
    simp only [Dma.Iova.Mem, Dma.VmInfo.iova, Dma.VmInfo.page, Dma.VmInfo.count, hn]
    omega
  have hunused : ∀ k < n, ¬ InUse w.d.mmu (Dma.addr env k / 4096) := fun k hk => (hok.pages _ (hmem k hk)).2.1
  refine hr.inv h rfl hsys ?_ (fun p hp => ?_) ?_ ?_
  · rw [htr, funext fun p => propext (hlive p)]
    exact h.alone.add hb hinj fun k hk q hq heq => hunused k hk (.inr (.inr ⟨q, hq, heq⟩))
  · rw [htr, hr.tables.ext.dummyPage]
    by_cases hin : lo ≤ p ∧ p < lo + n
    · rw [overlay_of_mem hin.1 hin.2]
      exact fun heq => hunused _ (by omega) (.inr (.inl heq))
    · rw [overlay_of_not_mem hin]
      exact h.dummy p (((hlive p).mp hp).resolve_left hin)
  · rw [hlist, htr]
    refine List.forall_mem_cons.mpr ⟨fun k hk => ?_, fun v hv k hk => ?_⟩
    · have hk : k < n := by simpa only [Dma.VmInfo.count, hn] using hk
      have hpage : Dma.VmInfo.page ⟨gotPages env size, 4096 * lo, vaddr, pageAlign64 size⟩ = lo :=
        Nat.mul_div_cancel_left lo (by decide)
      rw [hpage, overlay_apply hk]
      simp only [List.getD_eq_getElem?_getD, (hframe k hk).1, Option.getD_some]
    · have hin := ((h.sys.store.ok v hv).mem_iova (v.page + k)).mpr ⟨by omega, by omega⟩
      rw [h.direct v hv k hk, overlay_of_not_mem (hold v hv _ hin)]
  · intro x hx
    show (w.mem.clear (gotPages env size)).byte _ =
      if 4096 * lo ≤ x ∧ x < 4096 * lo + pageAlign64 size then 0 else A x
    by_cases hin : lo ≤ x / 4096 ∧ x / 4096 < lo + n
    · have hframe : addr 4096 (translate d'.mmu) x / 4096 ∈ gotPages env size := by
        rw [addr_div (by decide), htr, overlay_of_mem hin.1 hin.2]
        exact hmem _ (by omega)
      rw [if_pos ⟨by omega, by omega⟩]
      exact if_pos hframe
    · have hlive := ((hlive _).mp hx).resolve_left hin
      have hsame : addr 4096 (translate d'.mmu) x = addr 4096 (translate w.d.mmu) x := by
        unfold addr
        rw [htr, overlay_of_not_mem hin]
      rw [if_neg (by omega), hsame, byte_clear, h.sees x hlive]
      rw [addr_div (by decide)]
      intro hf
      exact (hok.pages _ hf).2.1 (.inr (.inr ⟨_, h.alone.bound _ hlive, rfl⟩))

-- ---------------------------------------------------------------------------
-- Runs
-- ---------------------------------------------------------------------------

theorem SharedInv.step {s s' : Both} {ev : MemEv} (h : SharedInv d₀ s.1 s.2) (hs : Both.Step s ev s') :
    SharedInv d₀ s'.1 s'.2 := by
  obtain ⟨hl, r, hnext, hflat⟩ := hs
  rw [hflat]
  cases ev with
  | alloc env size =>
    obtain ⟨⟨d', x⟩, hrun, heq⟩ := Option.map_eq_some_iff.mp hnext
    cases x with
    | none =>
      obtain ⟨hw, rfl⟩ := Prod.mk.inj heq
      rw [← hw]
      exact h.allocNone hl hrun
    | some x =>
      obtain ⟨hw, rfl⟩ := Prod.mk.inj heq
      rw [← hw]
      exact h.allocSome hl hrun
  | free b =>
    obtain ⟨d', hrun, heq⟩ := Option.map_eq_some_iff.mp hnext
    rw [← (Prod.mk.inj heq).1]
    exact h.free hl hrun
  | cpuWrite b o buf =>
    obtain ⟨v, hv, hfind, hhandle, hsize⟩ := h.found hl.1
    obtain ⟨v', hfind', heq⟩ := Option.map_eq_some_iff.mp hnext
    obtain rfl := Option.some.inj (hfind.symm.trans hfind')
    rw [← (Prod.mk.inj heq).1]
    show SharedInv d₀ _ (put s.2 (b.handle + o) buf)
    rw [← hhandle]
    exact h.cpuWrite hv (hsize ▸ hl.2)
  | devWrite iova buf =>
    rw [← (Prod.mk.inj (Option.some.inj hnext)).1]
    exact h.devWrite hl.1 hl.2.1 hl.2.2
  | kernel mem =>
    rw [← (Prod.mk.inj (Option.some.inj hnext)).1]
    exact h.kernel hl.1 hl.2

/-- Whatever is allocated, freed and written, by the driver, the device and the kernel: the
buffers of `ipu6_dma_alloc` are one memory for the CPU and the device, and no one else's. -/
theorem one_memory {s : Both} (h : Reachable Both.Begins Both.Step s) : OneMemory s.1 s.2 := by
  have hinv : ∃ d₀, SharedInv d₀ s.1 s.2 := by
    refine h.invariant (I := fun s => ∃ d₀, SharedInv d₀ s.1 s.2) (fun s hs => ⟨s.1.d, hs.inv s.2⟩) ?_
    rintro s ev s' ⟨d₀, hi⟩ hs
    exact ⟨d₀, hi.step hs⟩
  obtain ⟨d₀, hinv⟩ := hinv
  exact hinv.oneMemory

end

/-- The three pages of `ipu6_mmu_alloc` in empty memory. -/
def emptyWorld : Shared :=
  ⟨Dma.emptyStore, [], Memory.withTables ⟨fun _ => 0, fun _ => true⟩ emptyMmu⟩

/-- Pages 100 and 101 for a buffer on either side of the first 4 MiB boundary. -/
def twoPages : Dma.AllocEnv where
  kzalloc := true
  allocIova := some 1023
  kvzalloc := true
  allocPages := fun i order => if order = 0 then some (100 + i) else none
  dmaMapPage := fun i => if i < 2 then some (4096 * (100 + i)) else none
  tables := plainTables 2
  vmap := some 7

theorem reach_emptyMmu (h : Reach emptyMmu f) : f = 10 := by
  rcases h with rfl | ⟨p, -, rfl⟩
  · rfl
  · simp only [Mmu.translate, inv_emptyMmu.2]
    rfl

theorem begins_emptyWorld : emptyWorld.Begins := by
  have hown : ∀ mem : Memory, mem.backed = (fun _ => true) → OwnFrames mem emptyMmu := by
    intro mem hb
    refine ⟨fun i _ => inv_emptyMmu.2 i, by decide, by decide, fun i pt hpt => ?_, fun f _ o _ => by rw [hb],
      fun j _ => ?_, fun p hp => ?_, by decide⟩
    · rw [inv_emptyMmu.2] at hpt
      cases hpt
    · rw [inv_emptyMmu.1.empty j (inv_emptyMmu.2 j)]
      decide
    · rw [reach_emptyMmu (.inr ⟨p, hp, rfl⟩)]
      decide
  refine ⟨Dma.start_emptyStore, rfl, ⟨by decide, by decide, by decide⟩, hown _ rfl,
    holds_withTables inv_emptyMmu.1 (hown _ rfl), fun f hf => ?_⟩
  obtain rfl := reach_emptyMmu hf
  exact ⟨by decide, by decide +kernel, fun _ _ => rfl⟩

theorem guestOk_twoPages : GuestOk emptyWorld twoPages 5000 := by
  have hgot : gotPages twoPages 5000 = [100, 101] := by decide +kernel
  have hunused : ∀ f, f ≠ 10 → (tableOf emptyMmu f).isNone → ¬ InUse emptyMmu f := by
    rintro f hne hnone (htab | hreach)
    · rw [Option.isNone_iff_eq_none.mp hnone] at htab
      cases htab
    · exact hne (reach_emptyMmu hreach)
  have hdma : ∀ i a, twoPages.dmaMapPage i = some a → i < 2 ∧ a = 4096 * (100 + i) := by
    intro i a ha
    by_cases hi : i < 2
    · simp only [twoPages, if_pos hi, Option.some.injEq] at ha
      exact ⟨hi, ha.symm⟩
    · simp only [twoPages, if_neg hi, reduceCtorEq] at ha
  have htables : ∀ i a, (twoPages.tables i).dmaMapSingle = some a → i < 2 ∧ a = 4096 * (20 + i) := by
    intro i a ha
    by_cases hi : i < 2
    · simp only [twoPages, plainTables, if_pos hi, plainPage, Option.some.injEq] at ha
      exact ⟨hi, ha.symm⟩
    · simp only [twoPages, plainTables, if_neg hi, reduceCtorEq] at ha
  refine ⟨⟨fun lo hlo => ?_, fun k a ha => ?_, fresh_plainTables (by decide), fun vaddr hv => ?_⟩, fun f hf => ?_,
    by rw [hgot]; decide, fun k a ha => ?_, fun i a _ ha => ?_⟩
  · obtain rfl : 1023 = lo := by simpa [twoPages] using hlo
    exact ⟨by decide, by decide, by simp [emptyWorld, Dma.emptyStore]⟩
  · obtain ⟨hk, rfl⟩ := hdma k a ha
    refine ⟨by omega, by omega, rfl, fun j hj => ?_⟩
    have := (hdma j _ hj).2
    omega
  · obtain rfl : 7 = vaddr := by simpa [twoPages] using hv
    decide
  · rw [hgot] at hf
    have hcases : f = 100 ∨ f = 101 := by simpa using hf
    refine ⟨by omega, hunused f (by omega) ?_, fun _ _ => rfl⟩
    rcases hcases with rfl | rfl <;> decide +kernel
  · obtain ⟨hk, rfl⟩ := hdma k a ha
    rw [hgot]
    obtain rfl | rfl : k = 0 ∨ k = 1 := by omega
    all_goals rfl
  · obtain ⟨hi, rfl⟩ := htables i a ha
    rw [hgot, Nat.mul_div_cancel_left _ (by decide)]
    refine ⟨hunused _ (by omega) ?_, by simp; omega, fun _ _ => rfl⟩
    obtain rfl | rfl : i = 0 ∨ i = 1 := by omega
    all_goals decide +kernel

/-- The device writes the last byte of the first page, and the CPU reads it. -/
theorem one_memory_two_pages : ∃ (w : Shared) (v : VmInfo), getVmInfo w.d.vmaList (4096 * 1023) = some v ∧
    (cpuBuf v).hostRead w.mem 4095 2 = [9, 0] := by
  have hrun : (ipu6DmaAlloc Dma.emptyStore twoPages 5000).map Prod.snd = some (some (7, 4096 * 1023)) := by
    decide +kernel
  obtain ⟨⟨d, r⟩, hrun, rfl⟩ := Option.map_eq_some_iff.mp hrun
  let w : Shared := ⟨d, [⟨4096 * 1023, 5000⟩], (emptyWorld.mem.clear (gotPages twoPages 5000)).withTables d.mmu⟩
  let A : Nat → UInt8 := flatNext (fun _ => 1) (.alloc twoPages 5000) (some (4096 * 1023))
  have halloc : Both.Step (emptyWorld, fun _ => 1) (.alloc twoPages 5000) (w, A) := by
    refine ⟨⟨by decide, by decide, guestOk_twoPages⟩, some (4096 * 1023), ?_, rfl⟩
    simp only [Shared.next, emptyWorld, hrun]
    rfl
  have hwrite : Both.Step (w, A) (.devWrite (4096 * 1023 + 4095) [9])
      ({ w with mem := (ipu4DmaWriteIova w.mem w.d.mmu.l1PtDma (4096 * 1023 + 4095) [9]).1 },
        put A (4096 * 1023 + 4095) [9]) := by
    refine ⟨⟨by decide, by decide, fun i hi => ?_⟩, none, rfl, rfl⟩
    obtain rfl : i = 0 := by simpa using hi
    rfl
  have hbegin : Both.Begins (emptyWorld, fun _ => 1) := begins_emptyWorld
  have hrun := Reachable.step (Reachable.step (Reachable.init hbegin) halloc) hwrite
  obtain ⟨v, hfind, hread⟩ := (one_memory hrun).cpu ⟨4096 * 1023, 5000⟩ List.mem_cons_self
  refine ⟨_, v, hfind, (hread 4095 2 (by decide)).trans ?_⟩
  show flatRead (put (flatNext (fun _ => 1) (.alloc twoPages 5000) (some (4096 * 1023))) (4096 * 1023 + 4095) [9])
    (4096 * 1023 + 4095) 2 = [9, 0]
  decide +kernel

end Ipu4.Qemu
