import Ipu4.Qemu.Iova
import Ipu4.Qemu.Responder

/-!
# The responder over guest memory

What the DMA helpers of the responder answer comes from guest memory, through the
page table of the device. The responder also writes there: responses into the
slots of the receive queue, and a frame pattern into the buffers of a capture. Here
memory is passed along with the device, so that each read sees the writes before
it. The device's own state moves as in the responder.
-/

namespace Ipu4.Qemu

open FwCom (SysQueue)

-- ---------------------------------------------------------------------------
-- Structures in memory
-- ---------------------------------------------------------------------------

/-- The 32-bit word at byte `o`. -/
def dwordAt (b : List UInt8) (o : Nat) : Nat := dword (b.drop o)

def wordAt (b : List UInt8) (o : Nat) : Nat := dwordAt b o % 2 ^ 16

def qwordAt (b : List UInt8) (o : Nat) : Nat := dwordAt b o + 2 ^ 32 * dwordAt b (o + 4)

def SyscomConfig.ofBytes (b : List UInt8) : SyscomConfig where
  inputQueue := dwordAt b 12
  outputQueue := dwordAt b 16

def sysQueueOfBytes (b : List UInt8) : SysQueue where
  hostAddress := qwordAt b 0
  viedAddress := dwordAt b 8
  size := dwordAt b 12
  tokenSize := dwordAt b 16
  wrReg := dwordAt b 20
  rdReg := dwordAt b 24

def SendType.ofNat : Nat → SendType
  | 0 => .streamOpen
  | 1 => .streamStart
  | 2 => .streamStartAndCapture
  | 3 => .streamCapture
  | 4 => .streamStop
  | 5 => .streamFlush
  | 6 => .streamClose
  | n => .other n

def SendToken.ofBytes (b : List UInt8) : SendToken where
  bufHandle := qwordAt b 0
  payload := dwordAt b 8
  sendType := .ofNat (wordAt b 12)
  streamId := wordAt b 14

def OutputPin.ofBytes (b : List UInt8) : OutputPin where
  outBufId := qwordAt b 0
  addr := dwordAt b 8

def pinsOfBytes (b : List UInt8) : List OutputPin :=
  (List.range IPU4_MAX_OPINS).map fun i => .ofBytes (b.drop (16 * i))

def leBytes (n v : Nat) : List UInt8 := (List.range n).map fun k => UInt8.ofNat (v / 256 ^ k)

def RespType.toNat : RespType → Nat
  | .streamOpenDone => 0
  | .streamStartAck => 1
  | .streamStartAndCaptureAck => 2
  | .streamFlushAck => 5
  | .streamCloseAck => 6
  | .pinDataReady => 7
  | .frameSof => 9

/-- `Ipu4FwIsysRespInfo`. What is not set is zero, the timestamp too. -/
def RespInfo.bytes (r : RespInfo) : List UInt8 :=
  leBytes 8 0 ++ (leBytes 8 r.pin.outBufId ++ leBytes 4 r.pin.addr ++ leBytes 4 0) ++
    List.replicate 16 0 ++ List.replicate 8 0 ++ List.replicate 8 0 ++
    leBytes 1 r.streamHandle ++ leBytes 1 r.type.toNat ++ leBytes 1 r.pinId ++ List.replicate 5 0

theorem RespInfo.length_bytes (r : RespInfo) : r.bytes.length = 64 := by
  simp [RespInfo.bytes, leBytes]

-- ---------------------------------------------------------------------------
-- The device and the memory it works on
-- ---------------------------------------------------------------------------

/-- `l1Pfn` is the register `is_mmu_l1_pfn`. -/
structure Guest where
  dev : Ipu4State
  l1Pfn : Nat
  mem : Memory

/-- The answers of the DMA helpers on a guest memory. -/
def memDma (mem : Memory) (l1Pfn : Nat) : Dma where
  config := fun iova => (ipu4DmaReadIova mem l1Pfn iova 28).map .ofBytes
  queueDesc := fun iova => (ipu4DmaReadIova mem l1Pfn iova 32).map sysQueueOfBytes
  token := fun iova => (ipu4DmaReadIova mem l1Pfn iova 16).map .ofBytes
  pins := fun iova => (ipu4DmaReadIova mem l1Pfn iova 96).map pinsOfBytes
  respWrite := fun iova => (ipu4DmaWriteIova mem l1Pfn iova (List.replicate 64 0)).2

def Guest.dma (g : Guest) : Dma := memDma g.mem g.l1Pfn

/-- The slot a response is written to, if the queue can take it. -/
def respSlot (dma : Dma) (s : Ipu4State) : Option Nat :=
  match ipu4GetRecvQueue dma s with
  | (_, none) => none
  | (s, some rq) =>
    if rq.size = 0 ∨ rq.tokenSize < 64 then none
    else if 64 ≤ rq.wrReg then none
    else
      let wr := s.isDmem rq.wrReg
      some (slotIova rq (if rq.size ≤ wr then 0 else wr))

def Guest.postResponseFull (g : Guest) (resp : RespInfo) : Guest where
  dev := ipu4PostResponseFull g.dma g.dev resp
  l1Pfn := g.l1Pfn
  mem := match respSlot g.dma g.dev with
    | none => g.mem
    | some iova => (ipu4DmaWriteIova g.mem g.l1Pfn iova resp.bytes).1

def IPU4_FRAME_PATTERN_BYTES : Nat := 64 * 1024

/-- The loop of `ipu4_dma_write_iova_pattern`, for at most `n` pages. -/
def patternLoop (l1Pfn base total seq : Nat) : Nat → Nat → Memory → Memory
  | 0, _, mem => mem
  | n + 1, off, mem =>
    if off < total then
      let iova := (base + off) % 2 ^ 32
      let chunk := min (total - off) (4096 - iova % 4096)
      match ipu4IovaToPhys mem l1Pfn iova with
      | none => mem
      | some phys =>
        let buf := (List.range chunk).map fun i => UInt8.ofNat (off + i + seq)
        match pciDmaWrite mem phys buf with
        | (mem, false) => mem
        | (mem, true) => patternLoop l1Pfn base total seq n (off + chunk) mem
    else mem

/-- A range of `total` bytes lies in at most `total / 4096 + 2` pages. -/
def Guest.writePattern (g : Guest) (base seq : Nat) : Guest :=
  let total := IPU4_FRAME_PATTERN_BYTES
  { g with mem := patternLoop g.l1Pfn base total seq (total / 4096 + 2) 0 g.mem }

def Guest.postResponse (g : Guest) (type : RespType) (stream : Nat) : Guest :=
  g.postResponseFull ⟨type, stream, 0, ⟨0, 0⟩⟩

/-- The loop over the output pins. Every frame has the pattern of sequence number 0. -/
def Guest.deliverPins (stream : Nat) : Nat → List OutputPin → Guest → Guest
  | _, [], g => g
  | i, pin :: pins, g =>
    Guest.deliverPins stream (i + 1) pins
      (if pin.addr = 0 then g
      else (g.writePattern pin.addr 0).postResponseFull ⟨.pinDataReady, stream, i, pin⟩)

def Guest.deliverFrame (g : Guest) (stream frameBuffSetIova : Nat) : Guest :=
  match g.dma.pins frameBuffSetIova with
  | none => g
  | some pins =>
    let g := { g with dev := { g.dev with
      csi2PartStatus := g.dev.csi2PartStatus ||| CSI2_PART_IRQ_FS_VC0
      isUnispartIrqStatus := g.dev.isUnispartIrqStatus ||| ISYS_UNISPART_IRQ_CSI2_PORT0 } }
    Guest.deliverPins stream 0 pins (g.postResponse .frameSof stream)

def Guest.dispatch (stream : Nat) (g : Guest) (token : SendToken) : Guest :=
  let g := { g with dev := { g.dev with dispatched := g.dev.dispatched ++ [(stream, token)] } }
  match token.sendType with
  | .streamOpen => g.postResponse .streamOpenDone stream
  | .streamStart => g.postResponse .streamStartAck stream
  | .streamStartAndCapture =>
    (g.postResponse .streamStartAndCaptureAck stream).deliverFrame stream token.payload
  | .streamCapture => g.deliverFrame stream token.payload
  | .streamFlush => g.postResponse .streamFlushAck stream
  | .streamClose => g.postResponse .streamCloseAck stream
  | .streamStop => g
  | .other _ => g

def Guest.bumpLoop (q : SysQueue) (stream : Nat) : Nat → Nat → Guest → Guest
  | 0, _, g => g
  | pushed + 1, slot, g =>
    Guest.bumpLoop q stream pushed ((slot + 1) % q.size)
      (match readToken g.dma q slot with
      | none => g
      | some token => g.dispatch stream token)

def Guest.handleSendBump (g : Guest) (stream newWr : Nat) : Guest :=
  let (s, q) := ipu4GetSendQueue g.dma g.dev stream
  let prev := s.isSendWrSeen stream
  let seen := { s with isSendWrSeen := Function.update s.isSendWrSeen stream newWr }
  match q with
  | none => { g with dev := seen }
  | some q =>
    if q.size = 0 then { g with dev := seen }
    else if newWr = prev then { g with dev := s }
    else Guest.bumpLoop q stream (pushed q newWr prev) prev { g with dev := seen }

/-- `ipu4_mmio_write` in the DMEM window. -/
def Guest.dmemWrite (g : Guest) (reg val : Nat) : Guest :=
  let s := g.dev
  let s := if reg = SYSCOM_CONFIG_REG then
      { s with
        syscomConfigIova := val
        isSendQ := fun _ => none
        isRecvQ := none
        isSendWrSeen := fun _ => 0 }
    else s
  let s := if reg = SYSCOM_STATE_REG ∧ val = SYSCOM_STATE_UNINIT then
      { s with isSendWrSeen := fun _ => 0 }
    else s
  let g := { g with dev := { s with isDmem := Function.update s.isDmem reg val } }
  if 10 ≤ reg ∧ reg < 10 + IPU4_MAX_MSG_STREAMS * 2 ∧ (reg - 10) % 2 = 0 then
    g.handleSendBump ((reg - 10) / 2) val
  else g

-- ---------------------------------------------------------------------------
-- The responder's view
-- ---------------------------------------------------------------------------

/-- A condition on memory that the writes of the device keep, and under which its
reads always find the same. -/
structure Undisturbed (l1Pfn : Nat) (dma : Dma) (P : Memory → Prop) : Prop where
  reads : ∀ mem, P mem → memDma mem l1Pfn = dma
  response : ∀ mem iova resp, P mem → P (ipu4DmaWriteIova mem l1Pfn iova (RespInfo.bytes resp)).1
  pattern : ∀ mem base total n, P mem → P (patternLoop l1Pfn base total 0 n 0 mem)

/-- `g` is where the responder is in `s`, on an undisturbed memory. -/
structure Follows (l1Pfn : Nat) (P : Memory → Prop) (g : Guest) (s : Ipu4State) : Prop where
  dev : g.dev = s
  l1 : g.l1Pfn = l1Pfn
  mem : P g.mem

section
variable {l1Pfn : Nat} {dma : Dma} {P : Memory → Prop} {g : Guest} {s : Ipu4State}

theorem Follows.reads (hu : Undisturbed l1Pfn dma P) (h : Follows l1Pfn P g s) : g.dma = dma := by
  unfold Guest.dma
  rw [h.l1]
  exact hu.reads _ h.mem

theorem Follows.post (hu : Undisturbed l1Pfn dma P) (h : Follows l1Pfn P g s) (resp : RespInfo) :
    Follows l1Pfn P (g.postResponseFull resp) (ipu4PostResponseFull dma s resp) := by
  refine ⟨?_, h.l1, ?_⟩
  · show ipu4PostResponseFull g.dma g.dev resp = _
    rw [h.reads hu, h.dev]
  · unfold Guest.postResponseFull
    dsimp only
    cases respSlot g.dma g.dev with
    | none => exact h.mem
    | some iova =>
      dsimp only
      rw [h.l1]
      exact hu.response _ iova resp h.mem

theorem Follows.deliverPins (hu : Undisturbed l1Pfn dma P) (stream i : Nat)
    (pins : List OutputPin) (h : Follows l1Pfn P g s) :
    Follows l1Pfn P (Guest.deliverPins stream i pins g) (Qemu.deliverPins dma stream i pins s) := by
  induction pins generalizing i g s with
  | nil => exact h
  | cons pin pins ih =>
    simp only [Guest.deliverPins, Qemu.deliverPins]
    split
    · exact ih (i + 1) h
    · have hframe : Follows l1Pfn P (g.writePattern pin.addr 0) s := by
        refine ⟨h.dev, h.l1, ?_⟩
        unfold Guest.writePattern
        dsimp only
        rw [h.l1]
        exact hu.pattern _ _ _ _ h.mem
      exact ih (i + 1) (hframe.post hu ⟨.pinDataReady, stream, i, pin⟩)

theorem pinsOfBytes_take (b : List UInt8) : (pinsOfBytes b).take IPU4_MAX_OPINS = pinsOfBytes b :=
  List.take_of_length_le (by simp [pinsOfBytes])

theorem Follows.deliverFrame (hu : Undisturbed l1Pfn dma P) (h : Follows l1Pfn P g s)
    (stream iova : Nat) :
    Follows l1Pfn P (g.deliverFrame stream iova) (ipu4DeliverFrame dma s stream iova) := by
  have htake : ∀ pins, g.dma.pins iova = some pins → pins.take IPU4_MAX_OPINS = pins := by
    intro pins hpins
    obtain ⟨b, -, rfl⟩ := Option.map_eq_some_iff.mp hpins
    exact pinsOfBytes_take b
  unfold Guest.deliverFrame ipu4DeliverFrame
  rw [h.reads hu] at htake ⊢
  cases hpins : dma.pins iova with
  | none => exact h
  | some pins =>
    dsimp only
    rw [htake pins hpins]
    refine Follows.deliverPins hu stream 0 pins (Follows.post hu ?_ _)
    exact ⟨by rw [h.dev], h.l1, h.mem⟩

theorem Follows.dispatch (hu : Undisturbed l1Pfn dma P) (h : Follows l1Pfn P g s) (stream : Nat)
    (token : SendToken) :
    Follows l1Pfn P (g.dispatch stream token) (Qemu.dispatch dma stream s token) := by
  unfold Guest.dispatch Qemu.dispatch
  have hlog : Follows l1Pfn P
      { g with dev := { g.dev with dispatched := g.dev.dispatched ++ [(stream, token)] } }
      { s with dispatched := s.dispatched ++ [(stream, token)] } := ⟨by rw [h.dev], h.l1, h.mem⟩
  cases token.sendType with
  | streamStartAndCapture => exact (hlog.post hu _).deliverFrame hu stream _
  | streamCapture => exact hlog.deliverFrame hu stream _
  | streamStop | other n => exact hlog
  | streamOpen | streamStart | streamFlush | streamClose => exact hlog.post hu _

theorem Follows.bumpLoop (hu : Undisturbed l1Pfn dma P) (q : SysQueue) (stream n slot : Nat)
    (h : Follows l1Pfn P g s) :
    Follows l1Pfn P (Guest.bumpLoop q stream n slot g) (Qemu.bumpLoop dma q stream n slot s) := by
  induction n generalizing slot g s with
  | zero => exact h
  | succ n ih =>
    unfold Guest.bumpLoop Qemu.bumpLoop
    rw [h.reads hu]
    cases readToken dma q slot with
    | none => exact ih _ h
    | some token => exact ih _ (h.dispatch hu stream token)

theorem Follows.handleSendBump (hu : Undisturbed l1Pfn dma P) (h : Follows l1Pfn P g s)
    (stream newWr : Nat) :
    Follows l1Pfn P (g.handleSendBump stream newWr) (ipu4HandleSendBump dma s stream newWr) := by
  unfold Guest.handleSendBump ipu4HandleSendBump
  rw [h.reads hu, h.dev]
  generalize ipu4GetSendQueue dma s stream = r
  obtain ⟨s', _ | q⟩ := r
  · exact ⟨rfl, h.l1, h.mem⟩
  dsimp only
  split
  · exact ⟨rfl, h.l1, h.mem⟩
  split
  · exact ⟨rfl, h.l1, h.mem⟩
  · refine Follows.bumpLoop hu q stream _ _ ?_
    exact ⟨rfl, h.l1, h.mem⟩

/-- On a memory in which the device does not write what it reads, it moves as the
responder with the answers of that memory. -/
theorem Follows.dmemWrite (hu : Undisturbed l1Pfn dma P) (h : Follows l1Pfn P g s)
    (reg val : Nat) : Follows l1Pfn P (g.dmemWrite reg val) (ipu4DmemWrite dma s reg val) := by
  unfold Guest.dmemWrite ipu4DmemWrite
  rw [h.dev]
  dsimp only
  split
  · refine Follows.handleSendBump hu ?_ _ _
    exact ⟨rfl, h.l1, h.mem⟩
  · exact ⟨rfl, h.l1, h.mem⟩

end

end Ipu4.Qemu
