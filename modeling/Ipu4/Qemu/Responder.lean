import Mathlib.Logic.Function.Basic
import Ipu4.FwCom.Layout

/-!
# The firmware responder of the QEMU model

The driver puts commands into eight send queues and bumps their write cursors
in DMEM; the model reads the new tokens and posts responses. What its DMA helpers
answer during one register write is an argument, and responses are kept by the
IOVA they were written to. `posted` and `dispatched` record what has been done.
-/

namespace Ipu4.Qemu

open FwCom (SysQueue)

-- ---------------------------------------------------------------------------
-- Tokens
-- ---------------------------------------------------------------------------

/-- The opcodes of a send token. -/
inductive SendType where
  | streamOpen
  | streamStart
  | streamStartAndCapture
  | streamCapture
  | streamStop
  | streamFlush
  | streamClose
  | other (sendType : Nat)
  deriving DecidableEq, Repr

/-- `Ipu4FwSendToken`; `payload` is the IOVA of a frame buffer set. -/
structure SendToken where
  bufHandle : Nat
  payload : Nat
  sendType : SendType
  streamId : Nat
  deriving DecidableEq, Repr

/-- The responses that the model posts. -/
inductive RespType where
  | streamOpenDone
  | streamStartAck
  | streamStartAndCaptureAck
  | streamFlushAck
  | streamCloseAck
  | pinDataReady
  | frameSof
  deriving DecidableEq, Repr, Inhabited

/-- `Ipu4FwOutputPin`. -/
structure OutputPin where
  outBufId : Nat
  addr : Nat
  deriving DecidableEq, Repr, Inhabited

/-- The fields of `Ipu4FwIsysRespInfo` that the model fills. -/
structure RespInfo where
  type : RespType
  streamHandle : Nat
  pinId : Nat
  pin : OutputPin
  deriving DecidableEq, Repr, Inhabited

/-- The fields of `Ipu4FwSyscomConfig` that the model reads. -/
structure SyscomConfig where
  inputQueue : Nat
  outputQueue : Nat
  deriving DecidableEq, Repr

-- ---------------------------------------------------------------------------
-- The device
-- ---------------------------------------------------------------------------

def IPU4_MAX_MSG_STREAMS : Nat := 8
def IPU4_BASE_MSG_SEND_QUEUES : Nat := 2

/-- A descriptor that has not been loaded is `none`. -/
structure Ipu4State where
  isDmem : Nat → Nat
  syscomConfigIova : Nat
  isSendQ : Nat → Option SysQueue
  isRecvQ : Option SysQueue
  isSendWrSeen : Nat → Nat
  isUnispartIrqStatus : Nat
  isrStatus : Nat
  csi2PartStatus : Nat
  resps : Nat → RespInfo
  posted : List RespInfo
  dispatched : List (Nat × SendToken)

/-- The answers of `ipu4_dma_read_iova` and `ipu4_dma_write_iova`, by the
address asked for. -/
structure Dma where
  config : Nat → Option SyscomConfig
  queueDesc : Nat → Option SysQueue
  token : Nat → Option SendToken
  pins : Nat → Option (List OutputPin)
  respWrite : Nat → Bool

def ipu4LoadQueueDesc (dma : Dma) (arrayIova i : Nat) : Option SysQueue :=
  dma.queueDesc ((arrayIova + i * 32) % 2 ^ 32)

/-- Loading a descriptor also resets the cursor last seen. -/
def ipu4GetSendQueue (dma : Dma) (s : Ipu4State) (stream : Nat) : Ipu4State × Option SysQueue :=
  if IPU4_MAX_MSG_STREAMS ≤ stream then (s, none)
  else
    match s.isSendQ stream with
    | some q => (s, some q)
    | none =>
      if s.syscomConfigIova = 0 then (s, none)
      else
        match dma.config s.syscomConfigIova with
        | none => (s, none)
        | some cfg =>
          match ipu4LoadQueueDesc dma cfg.inputQueue (IPU4_BASE_MSG_SEND_QUEUES + stream) with
          | none => (s, none)
          | some q =>
            ({ s with
              isSendQ := Function.update s.isSendQ stream (some q)
              isSendWrSeen := Function.update s.isSendWrSeen stream 0 }, some q)

def ipu4GetRecvQueue (dma : Dma) (s : Ipu4State) : Ipu4State × Option SysQueue :=
  match s.isRecvQ with
  | some q => (s, some q)
  | none =>
    if s.syscomConfigIova = 0 then (s, none)
    else
      match dma.config s.syscomConfigIova with
      | none => (s, none)
      | some cfg =>
        match ipu4LoadQueueDesc dma cfg.outputQueue 1 with
        | none => (s, none)
        | some q => ({ s with isRecvQ := some q }, some q)

def ISYS_UNISPART_IRQ_SW : Nat := 2 ^ 30
def ISYS_UNISPART_IRQ_CSI2_PORT0 : Nat := 2 ^ 3
def BTRS_ISR_IS_IRQ : Nat := 2 ^ 0
def CSI2_PART_IRQ_FS_VC0 : Nat := 2 ^ 0

/-- The IOVA of slot `i`. -/
def slotIova (q : SysQueue) (i : Nat) : Nat := (q.viedAddress + i * q.tokenSize) % 2 ^ 32

/-- Writes the slot at the write cursor and advances the cursor. The read cursor
is not looked at. -/
def ipu4PostResponseFull (dma : Dma) (s : Ipu4State) (resp : RespInfo) : Ipu4State :=
  match ipu4GetRecvQueue dma s with
  | (s, none) => s
  | (s, some rq) =>
    if rq.size = 0 ∨ rq.tokenSize < 64 then s
    else if 64 ≤ rq.wrReg then s
    else
      let wr := s.isDmem rq.wrReg
      let wr := if rq.size ≤ wr then 0 else wr
      if !dma.respWrite (slotIova rq wr) then s
      else { s with
        resps := Function.update s.resps (slotIova rq wr) resp
        isDmem := Function.update s.isDmem rq.wrReg ((wr + 1) % rq.size)
        isUnispartIrqStatus := s.isUnispartIrqStatus ||| ISYS_UNISPART_IRQ_SW
        isrStatus := s.isrStatus ||| BTRS_ISR_IS_IRQ
        posted := s.posted ++ [resp] }

def ipu4PostResponse (dma : Dma) (s : Ipu4State) (type : RespType) (stream : Nat) : Ipu4State :=
  ipu4PostResponseFull dma s ⟨type, stream, 0, ⟨0, 0⟩⟩

def ipu4PostPinDataReady (dma : Dma) (s : Ipu4State) (stream pinId : Nat) (pin : OutputPin) :
    Ipu4State :=
  ipu4PostResponseFull dma s ⟨.pinDataReady, stream, pinId, pin⟩

def IPU4_MAX_OPINS : Nat := 6

/-- The loop over the output pins, from pin `i` on. The frame data goes to the
buffers of the pins. -/
def deliverPins (dma : Dma) (stream : Nat) : Nat → List OutputPin → Ipu4State → Ipu4State
  | _, [], s => s
  | i, pin :: pins, s =>
    deliverPins dma stream (i + 1) pins
      (if pin.addr = 0 then s else ipu4PostPinDataReady dma s stream i pin)

def ipu4DeliverFrame (dma : Dma) (s : Ipu4State) (stream frameBuffSetIova : Nat) : Ipu4State :=
  match dma.pins frameBuffSetIova with
  | none => s
  | some pins =>
    let s := { s with
      csi2PartStatus := s.csi2PartStatus ||| CSI2_PART_IRQ_FS_VC0
      isUnispartIrqStatus := s.isUnispartIrqStatus ||| ISYS_UNISPART_IRQ_CSI2_PORT0 }
    deliverPins dma stream 0 (pins.take IPU4_MAX_OPINS) (ipu4PostResponse dma s .frameSof stream)

/-- The switch of `ipu4_handle_send_bump`. -/
def dispatch (dma : Dma) (stream : Nat) (s : Ipu4State) (token : SendToken) : Ipu4State :=
  let s := { s with dispatched := s.dispatched ++ [(stream, token)] }
  match token.sendType with
  | .streamOpen => ipu4PostResponse dma s .streamOpenDone stream
  | .streamStart => ipu4PostResponse dma s .streamStartAck stream
  | .streamStartAndCapture =>
    ipu4DeliverFrame dma (ipu4PostResponse dma s .streamStartAndCaptureAck stream) stream
      token.payload
  | .streamCapture => ipu4DeliverFrame dma s stream token.payload
  | .streamFlush => ipu4PostResponse dma s .streamFlushAck stream
  | .streamClose => ipu4PostResponse dma s .streamCloseAck stream
  | .streamStop => s
  | .other _ => s

/-- The token in a slot, as far as it can be read. -/
def readToken (dma : Dma) (q : SysQueue) (slot : Nat) : Option SendToken :=
  if q.tokenSize < 16 then none else dma.token (slotIova q slot)

/-- The loop of `ipu4_handle_send_bump` over `pushed` slots. -/
def bumpLoop (dma : Dma) (q : SysQueue) (stream : Nat) : Nat → Nat → Ipu4State → Ipu4State
  | 0, _, s => s
  | pushed + 1, slot, s =>
    bumpLoop dma q stream pushed ((slot + 1) % q.size)
      (match readToken dma q slot with
      | none => s
      | some token => dispatch dma stream s token)

/-- The number of slots between two cursors, in 32-bit arithmetic. -/
def pushed (q : SysQueue) (newWr prev : Nat) : Nat :=
  (newWr + q.size + 2 ^ 32 - prev) % 2 ^ 32 % q.size

/-- The cursor last seen is read after the descriptor has been loaded. -/
def ipu4HandleSendBump (dma : Dma) (s : Ipu4State) (stream newWr : Nat) : Ipu4State :=
  let (s, q) := ipu4GetSendQueue dma s stream
  let prev := s.isSendWrSeen stream
  let seen := { s with isSendWrSeen := Function.update s.isSendWrSeen stream newWr }
  match q with
  | none => seen
  | some q =>
    if q.size = 0 then seen
    else if newWr = prev then s
    else bumpLoop dma q stream (pushed q newWr prev) prev seen

-- ---------------------------------------------------------------------------
-- The DMEM window
-- ---------------------------------------------------------------------------

def SYSCOM_CONFIG_REG : Nat := 1
def SYSCOM_STATE_REG : Nat := 2
def SYSCOM_COMMAND_REG : Nat := 3
def SYSCOM_STATE_UNINIT : Nat := 0x57A7E000
def SYSCOM_STATE_READY : Nat := 0x57A7E001
def SYSCOM_COMMAND_UNINIT : Nat := 0x57A7F000
def SYSCOM_COMMAND_INACTIVE : Nat := 0x57A7F001

/-- The register of the write cursor of a stream's send queue. -/
def sendWrReg (stream : Nat) : Nat := 10 + 2 * stream

/-- `ipu4_mmio_read` in the window: the read cursor of stream 0 echoes the write
cursor, and the state is always ready. -/
def ipu4DmemRead (s : Ipu4State) (reg : Nat) : Nat :=
  if reg = 11 then s.isDmem 10
  else if reg = SYSCOM_STATE_REG then SYSCOM_STATE_READY
  else s.isDmem reg

/-- `ipu4_mmio_write` in the window. -/
def ipu4DmemWrite (dma : Dma) (s : Ipu4State) (reg val : Nat) : Ipu4State :=
  let s := if reg = SYSCOM_CONFIG_REG then
      { s with
        syscomConfigIova := val
        isSendQ := fun _ => none
        isRecvQ := none
        isSendWrSeen := fun _ => 0 }
    else s
  let s := if reg = SYSCOM_STATE_REG ∧ val = SYSCOM_STATE_UNINIT then
      { s with isSendWrSeen := fun _ => 0 }
    else s
  let s := { s with isDmem := Function.update s.isDmem reg val }
  if 10 ≤ reg ∧ reg < 10 + IPU4_MAX_MSG_STREAMS * 2 ∧ (reg - 10) % 2 = 0 then
    ipu4HandleSendBump dma s ((reg - 10) / 2) val
  else s

/-- After `ipu4_reset`. -/
def Ipu4State.reset : Ipu4State where
  isDmem := fun _ => 0
  syscomConfigIova := 0
  isSendQ := fun _ => none
  isRecvQ := none
  isSendWrSeen := fun _ => 0
  isUnispartIrqStatus := 0
  isrStatus := 0
  csi2PartStatus := 0
  resps := fun _ => default
  posted := []
  dispatched := []

-- ---------------------------------------------------------------------------
-- A write of a send cursor
-- ---------------------------------------------------------------------------

theorem getSendQueue_dmem (dma : Dma) (s : Ipu4State) (d : Nat → Nat) (stream : Nat) :
    ipu4GetSendQueue dma { s with isDmem := d } stream =
      ({ (ipu4GetSendQueue dma s stream).1 with isDmem := d }, (ipu4GetSendQueue dma s stream).2) := by
  unfold ipu4GetSendQueue
  dsimp only
  split
  · rfl
  cases s.isSendQ stream with
  | some q => rfl
  | none =>
    dsimp only
    split
    · rfl
    cases dma.config s.syscomConfigIova with
    | none => rfl
    | some cfg =>
      cases hload : ipu4LoadQueueDesc dma cfg.inputQueue (IPU4_BASE_MSG_SEND_QUEUES + stream) <;>
        simp only [hload]

theorem dmemWrite_sendWrReg (dma : Dma) (s : Ipu4State) (val : Nat) (h : stream < 8) :
    ipu4DmemWrite dma s (sendWrReg stream) val =
      ipu4HandleSendBump dma
        { s with isDmem := Function.update s.isDmem (sendWrReg stream) val } stream val := by
  have hconfig : sendWrReg stream ≠ SYSCOM_CONFIG_REG := by
    simp only [sendWrReg, SYSCOM_CONFIG_REG]
    omega
  have hstate : sendWrReg stream ≠ SYSCOM_STATE_REG := by
    simp only [sendWrReg, SYSCOM_STATE_REG]
    omega
  have hreg : 10 ≤ sendWrReg stream ∧ sendWrReg stream < 10 + IPU4_MAX_MSG_STREAMS * 2 ∧
      (sendWrReg stream - 10) % 2 = 0 := by
    simp only [sendWrReg, IPU4_MAX_MSG_STREAMS]
    omega
  have hstream : (sendWrReg stream - 10) / 2 = stream := by
    simp only [sendWrReg]
    omega
  unfold ipu4DmemWrite
  simp only [hconfig, hstate, if_false, false_and, hreg, if_true, and_self, hstream]

end Ipu4.Qemu
