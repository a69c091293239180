import Ipu4.Capture.Bufs
import Ipu4.Lib.Errno

/-!
# Streams

The video nodes, the stream slots they share and the driver's side of the
firmware, with the functions of `ipu6-isys-video.c` that start and stop a
stream. What the rest of the kernel and the firmware answer is an argument of
each function. Return values are C's: 0, or a negative number.
-/

namespace Ipu4.Capture

def IPU4_ISYS_MAX_STREAMS : Nat := 8

-- ---------------------------------------------------------------------------
-- Commands to the firmware
-- ---------------------------------------------------------------------------

inductive SendType where
  | streamOpen
  | streamStart
  | streamStartAndCapture
  | streamCapture
  | streamFlush
  | streamClose
  deriving DecidableEq, Repr

def IPU4_MAX_OPINS : Nat := 6

/-- `ipu6_fw_isys_output_pin_payload_abi`. -/
structure OutputPin where
  outBufId : Nat
  addr : Nat
  deriving DecidableEq, Repr

/-- `ipu4_fw_isys_frame_buff_set_abi` up to its flags, which are constant. The
`process_group_light` behind the pins has the layout of a pin. -/
structure FrameBuffSet where
  outputPins : Vector OutputPin IPU4_MAX_OPINS
  processGroupLight : OutputPin
  deriving DecidableEq, Repr

/-- A message as `ipu6_get_fw_msg_buf` hands it out. -/
def FrameBuffSet.zero : FrameBuffSet := ⟨.replicate _ ⟨0, 0⟩, ⟨0, 0⟩⟩

/-- A write to `output_pins[i]`. The source does not check the index: pin 6 is
`process_group_light`, and what comes after it is left out here. -/
def FrameBuffSet.setPin (set : FrameBuffSet) (i : Nat) (pin : OutputPin) : FrameBuffSet :=
  if i < IPU4_MAX_OPINS then { set with outputPins := set.outputPins.setIfInBounds i pin }
  else if i = IPU4_MAX_OPINS then { set with processGroupLight := pin }
  else set

/-- `frame` is zero in a command that takes no frame buffer set along. -/
structure Cmd where
  handle : Nat
  type : SendType
  frame : FrameBuffSet
  /-- `ipu6_send_get_token` had a free token. -/
  accepted : Bool
  deriving DecidableEq, Repr

/-- The driver's side of the firmware. `cmds` are the commands so far, the last
one first. `streamOpened` is the unsigned counter of the source, and `wrapped`
whether it ever went below zero. -/
structure Firmware where
  fwcom : Bool
  cmds : List Cmd
  streamOpened : UInt32
  wrapped : Bool
  fwOutput : Nat → Nat
  outputPinsQueue : Nat → Nat → Option Nat
  nrOutputPins : Nat → Nat

def ipu6FwIsysComplexCmd (fw : Firmware) (handle : Nat) (type : SendType) (frame : FrameBuffSet)
    (accepted : Bool) : Firmware × Int :=
  ({ fw with cmds := ⟨handle, type, frame, accepted⟩ :: fw.cmds }, if accepted then 0 else -EBUSY)

def ipu6FwIsysSimpleCmd (fw : Firmware) (handle : Nat) (type : SendType) (accepted : Bool) :
    Firmware × Int :=
  ipu6FwIsysComplexCmd fw handle type .zero accepted

def getStreamOpened (fw : Firmware) : Firmware :=
  { fw with streamOpened := fw.streamOpened + 1 }

def putStreamOpened (fw : Firmware) : Firmware :=
  { fw with streamOpened := fw.streamOpened - 1, wrapped := fw.wrapped || fw.streamOpened == 0 }

/-- How `ipu6_fw_isys_open` ends: an error can leave a context behind. -/
inductive OpenResult where
  | ok
  | error (ret : Int) (fwcom : Bool)
  deriving DecidableEq, Repr

def ipu6FwIsysOpen (fw : Firmware) : OpenResult → Firmware × Int
  | .ok => ({ fw with fwcom := true }, 0)
  | .error ret fwcom => ({ fw with fwcom := fwcom }, ret)

/-- `ret` is what the last `ipu6_fw_com_release` returns. -/
def ipu6FwIsysClose (fw : Firmware) (ret : Int) : Firmware × Int :=
  if ret ≠ 0 then (fw, ret) else ({ fw with fwcom := false }, 0)

/-- How the wait for an answer of the firmware ends. -/
inductive Wait where
  | done
  | timeout
  | error
  deriving DecidableEq, Repr

def ipu6IsysBufToFwFrameBufPin (fw : Firmware) (b : Buffer) (set : FrameBuffSet) : FrameBuffSet :=
  set.setPin (fw.fwOutput b.queue) ⟨b.index + 1, b.dmaAddr⟩

def ipu6IsysBufToFwFrameBuf (fw : Firmware) (bl : List Buffer) : FrameBuffSet :=
  bl.foldl (fun set b => ipu6IsysBufToFwFrameBufPin fw b set) .zero

-- ---------------------------------------------------------------------------
-- Starting and stopping a stream in the firmware
-- ---------------------------------------------------------------------------

/-- What `start_stream_firmware` meets, in the order of the calls. `overrun` is what the
pin counter of the message holds after a queue whose pin lies behind the array: the
fields of the pin go over it. -/
structure FwStart where
  msg : Bool
  pinCfg : Nat → Int
  overrun : Nat → Nat
  sendOpen : Bool
  openWait : Wait
  frameMsg : Bool
  sendStart : Bool
  startWait : Wait
  sendClose : Bool

/-- `ipu6_isys_fw_pin_cfg` for each queue, the first with pin `n`. What the configuration
says of a pin is left out. -/
def pinCfgs (env : FwStart) (handle : Nat) : List Nat → Nat → Firmware → Firmware × Int
  | [], n, fw => ({ fw with nrOutputPins := Function.update fw.nrOutputPins handle n }, 0)
  | i :: is, n, fw =>
    if env.pinCfg i < 0 then (fw, env.pinCfg i)
    else
      pinCfgs env handle is (if n < IPU4_MAX_OPINS then n + 1 else env.overrun i) { fw with
        fwOutput := Function.update fw.fwOutput i n
        outputPinsQueue := Function.update fw.outputPinsQueue handle
          (Function.update (fw.outputPinsQueue handle) n (some i)) }

/-- The label `out_stream_close`. -/
def outStreamClose (fw : Firmware) (env : FwStart) (handle : Nat) : Firmware :=
  putStreamOpened (ipu6FwIsysSimpleCmd fw handle .streamClose env.sendClose).1

/-- Without a buffer list the stream is started without a first frame. -/
def startCmd (fw : Firmware) (handle : Nat) (frame : Option FrameBuffSet) (accepted : Bool) :
    Firmware × Int :=
  match frame with
  | some frame => ipu6FwIsysComplexCmd fw handle .streamStartAndCapture frame accepted
  | none => ipu6FwIsysSimpleCmd fw handle .streamStart accepted

/-- The part of `start_stream_firmware` after the buffer list. -/
def startOpened (fw : Firmware) (env : FwStart) (handle : Nat) (frame : Option FrameBuffSet) :
    Firmware × Int :=
  let (fw, ret) := startCmd fw handle frame env.sendStart
  if ret < 0 then (outStreamClose fw env handle, ret)
  else
    match env.startWait with
    | .timeout => (outStreamClose fw env handle, -ETIMEDOUT)
    | .error => (outStreamClose fw env handle, - EIO)
    | .done => (fw, 0)

/-- `bl` is the buffer list, which comes back empty when its buffers have been
queued; `none` is a NULL pointer. -/
def startStreamFirmware (fw : Firmware) (q : Bufs) (env : FwStart) (handle : Nat)
    (queues : List Nat) (bl : Option (List Buffer)) :
    Firmware × Bufs × Option (List Buffer) × Int :=
  if !env.msg then (fw, q, bl, -ENOMEM)
  else
    let (fw, ret) := pinCfgs env handle queues 0 fw
    if ret < 0 then (fw, q, bl, ret)
    else
      let (fw, ret) := ipu6FwIsysComplexCmd fw handle .streamOpen .zero env.sendOpen
      if ret < 0 then (fw, q, bl, ret)
      else
        let fw := getStreamOpened fw
        match env.openWait with
        | .timeout => (putStreamOpened fw, q, bl, -ETIMEDOUT)
        | .error => (putStreamOpened fw, q, bl, - EIO)
        | .done =>
          match bl with
          | none =>
            let (fw, ret) := startOpened fw env handle none
            (fw, q, none, ret)
          | some bl =>
            if !env.frameMsg then (putStreamOpened fw, q, some bl, -ENOMEM)
            else
              let frame := ipu6IsysBufToFwFrameBuf fw bl
              let q := ipu6IsysBufferListQueue q .active none bl
              let (fw, ret) := startOpened fw env handle (some frame)
              (fw, q, some [], ret)

def stopStreamingFirmware (fw : Firmware) (handle : Nat) (sendFlush : Bool) : Firmware :=
  (ipu6FwIsysSimpleCmd fw handle .streamFlush sendFlush).1

def closeStreamingFirmware (fw : Firmware) (handle : Nat) (sendClose : Bool) : Firmware :=
  let (fw, ret) := ipu6FwIsysSimpleCmd fw handle .streamClose sendClose
  if ret < 0 then fw else putStreamOpened fw

-- ---------------------------------------------------------------------------
-- Nodes and slots
-- ---------------------------------------------------------------------------

/-- `called` is `start_streaming_called` of the node's vb2 queue. -/
structure Video where
  stream : Option Nat
  streaming : Bool
  called : Bool
  deriving DecidableEq, Repr

/-- `queues` are nodes, the last one added first. -/
structure Stream where
  sourceEntity : Option Nat
  nrQueues : Int
  nrStreaming : Int
  streaming : Bool
  queues : List Nat
  deriving DecidableEq, Repr

/-- The virtual channels of the nodes, and those and the receivers of the slots
stand beside the records, as only the search for a slot reads them. -/
structure Isys where
  av : Nat → Video
  vc : Nat → Nat
  streams : Nat → Stream
  streamsVc : Nat → Nat
  streamsAsd : Nat → Nat
  streamsRefCount : Nat → Nat
  refCount : UInt32
  fw : Firmware
  bufs : Bufs

def Isys.setAv (s : Isys) (i : Nat) (v : Video) : Isys :=
  { s with av := Function.update s.av i v }

def Isys.setStream (s : Isys) (k : Nat) (st : Stream) : Isys :=
  { s with streams := Function.update s.streams k st }

/-- What `ipu6_isys_video_set_streaming` meets: the route of the node's pad, the
firmware, and the sub-device. -/
structure SetEnv where
  route : Int
  sendFlush : Bool
  disable : Int
  sendClose : Bool
  start : FwStart
  enable : Int

/-- On node `i`, whose stream is slot `k`. -/
def ipu6IsysVideoSetStreaming (s : Isys) (env : SetEnv) (i k : Nat) (state : Bool)
    (bl : Option (List Buffer)) : Isys × Option (List Buffer) × Int :=
  if (s.streams k).sourceEntity = none then (s, bl, -ENODEV)
  else if env.route ≠ 0 then (s, bl, env.route)
  else if !state then
    let fw := stopStreamingFirmware s.fw k env.sendFlush
    if env.disable ≠ 0 then ({ s with fw := fw }, bl, env.disable)
    else
      let fw := closeStreamingFirmware fw k env.sendClose
      (({ s with fw := fw }).setAv i { s.av i with streaming := state }, bl, 0)
  else
    let (fw, q, bl, ret) := startStreamFirmware s.fw s.bufs env.start k (s.streams k).queues bl
    if ret ≠ 0 then ({ s with fw := fw, bufs := q }, bl, ret)
    else if env.enable ≠ 0 then
      ({ s with fw := stopStreamingFirmware fw k env.sendFlush, bufs := q }, bl, env.enable)
    else
      (({ s with fw := fw, bufs := q }).setAv i { s.av i with streaming := state }, bl, 0)

def ipu6IsysPutStream (s : Isys) (k : Nat) : Isys :=
  if 0 < s.streamsRefCount k then
    { s with streamsRefCount :=
        Function.update s.streamsRefCount k (s.streamsRefCount k - 1) }
  else s

/-- The slot of the node's virtual channel on receiver `asd`, or a free one. -/
def ipu6IsysGetStream (s : Isys) (i asd : Nat) : Isys × Option Nat :=
  let vc := s.vc i
  let slots := List.range IPU4_ISYS_MAX_STREAMS
  match slots.find? fun k =>
      s.streamsRefCount k ≠ 0 ∧ s.streamsVc k = vc ∧ s.streamsAsd k = asd with
  | some k =>
    ({ s with streamsRefCount :=
        Function.update s.streamsRefCount k (s.streamsRefCount k + 1) }, some k)
  | none =>
    match slots.find? fun k => s.streamsRefCount k = 0 with
    | some k =>
      ({ s with
        streamsRefCount := Function.update s.streamsRefCount k (s.streamsRefCount k + 1)
        streamsVc := Function.update s.streamsVc k vc
        streamsAsd := Function.update s.streamsAsd k asd }, some k)
    | none => (s, none)

abbrev Errno := { ret : Int // ret < 0 }

theorem enodev_neg : -ENODEV < 0 := by decide

theorem einval_neg : -EINVAL < 0 := by decide

/-- What `ipu6_isys_setup_video` meets: the remote pad of the node as receiver
and index, the source of the receiver, the source pads of its active routes, the
virtual channel of the frame descriptor, and the start of the pipeline. -/
structure SetupEnv where
  remotePad : Except Errno (Nat × Nat)
  sourcePad : Option Nat
  routes : List Nat
  remoteDesc : Except Errno Nat
  pipelineStart : Option Errno

/-- A source without frame descriptors uses virtual channel 0. -/
def SetupEnv.channel (env : SetupEnv) : Except Errno Nat :=
  match env.remoteDesc with
  | .error ret => if ret.val = -ENOIOCTLCMD then .ok 0 else .error ret
  | .ok vc => .ok vc

/-- With the slot, the source entity and the number of queues. -/
def ipu6IsysSetupVideo (s : Isys) (env : SetupEnv) (i : Nat) :
    Isys × Except Errno (Nat × Nat × Nat) :=
  match env.remotePad with
  | .error ret => (s, .error ret)
  | .ok (asd, index) =>
    match env.sourcePad with
    | none => (s, .error ⟨-ENODEV, enodev_neg⟩)
    | some sourceEntity =>
      if index ∉ env.routes then (s, .error ⟨-ENODEV, enodev_neg⟩)
      else
        match env.channel with
        | .error ret => (s, .error ret)
        | .ok vc =>
          let s := { s with vc := Function.update s.vc i vc }
          match env.pipelineStart with
          | some ret => (s, .error ret)
          | none =>
            match ipu6IsysGetStream s i asd with
            | (s, none) =>
              (s.setAv i { s.av i with stream := none }, .error ⟨-EINVAL, einval_neg⟩)
            | (s, some k) =>
              (s.setAv i { s.av i with stream := some k },
                .ok (k, sourceEntity, env.routes.length))

/-- What `ipu6_isys_fw_get` meets. -/
structure GetEnv where
  resume : Int
  fwOpen : OpenResult

def ipu6IsysFwGet (s : Isys) (env : GetEnv) : Isys × Int :=
  if env.resume < 0 then (s, env.resume)
  else if s.refCount ≠ 0 then ({ s with refCount := s.refCount + 1 }, 0)
  else
    let (fw, ret) := ipu6FwIsysOpen s.fw env.fwOpen
    if ret < 0 then ({ s with fw := fw }, ret)
    else ({ s with fw := fw, refCount := s.refCount + 1 }, 0)

def ipu6IsysFwPut (s : Isys) (fwClose : Int) : Isys :=
  let s := { s with refCount := s.refCount - 1 }
  if s.refCount ≠ 0 then s else { s with fw := (ipu6FwIsysClose s.fw fwClose).1 }

def ipu6IsysVideoPrepareStream (s : Isys) (k sourceEntity : Nat) (nrQueues : Int) : Isys × Int :=
  if (s.streams k).nrStreaming ≠ 0 then (s, -EINVAL)
  else
    let s := s.setStream k { s.streams k with nrQueues := nrQueues }
    if (s.streams k).queues ≠ [] then (s, -EINVAL)
    else (s.setStream k { s.streams k with sourceEntity := some sourceEntity }, 0)

end Ipu4.Capture
