import Ipu4.Lib.Runs
import Ipu4.Capture.Stream

/-!
# The operations of a video queue

`buf_queue`, `start_streaming`, `stop_streaming` and `restart_stream` of
`ipu6-isys-queue.c`, the handling of a finished buffer, and the runs that vb2
and the firmware make of them.
-/

namespace Ipu4.Capture

-- ---------------------------------------------------------------------------
-- Starting for real
-- ---------------------------------------------------------------------------

/-- What the capture loop of `ipu6_isys_stream_start` meets in each round. -/
structure CaptureEnv where
  msg : Nat → Bool
  send : Nat → Bool

/-- The number of complete sets of buffers that wait in the queues. -/
def sets (q : Bufs) (queues : List Nat) : Nat :=
  ((queues.map fun i => (q.incoming i).length).min?).getD 0

/-- The rounds of the loop from round `j` on, `n` at most. -/
def captureLoop (env : CaptureEnv) (handle : Nat) (queues : List Nat) :
    Nat → Nat → Firmware → Bufs → Firmware × Bufs × Int
  | 0, _, fw, q => (fw, q, 0)
  | n + 1, j, fw, q =>
    match bufferListGet q queues [] with
    | (q, none) => (fw, q, 0)
    | (q, some bl) =>
      -- the list on the stack is left as it is
      if !env.msg j then (fw, q, -ENOMEM)
      else
        let frame := ipu6IsysBufToFwFrameBuf fw bl
        let q := ipu6IsysBufferListQueue q .active none bl
        let (fw, ret) := ipu6FwIsysComplexCmd fw handle .streamCapture frame (env.send j)
        if ret ≠ 0 then (fw, q, 0) else captureLoop env handle queues n (j + 1) fw q

structure StreamStartEnv where
  set : SetEnv
  capture : CaptureEnv

def ipu6IsysStreamStart (s : Isys) (env : StreamStartEnv) (i k : Nat) (bl : List Buffer)
    (error : Bool) : Isys × Int :=
  let (s, bl, ret) := ipu6IsysVideoSetStreaming s env.set i k true (some bl)
  let queues := (s.streams k).queues
  if ret ≠ 0 then
    let q := ipu6IsysBufferListQueue s.bufs .incoming (if error then some .error else none)
      (bl.getD [])
    ({ s with bufs := flushFirmwareStreamonFail (fun j => (s.av j).streaming) queues q }, ret)
  else
    let s := s.setStream k { s.streams k with streaming := true }
    let (fw, q, ret) := captureLoop env.capture k queues (sets s.bufs queues) 0 s.fw s.bufs
    ({ s with fw := fw, bufs := q }, ret)

-- ---------------------------------------------------------------------------
-- The operations
-- ---------------------------------------------------------------------------

structure BufQueueEnv where
  mediaPipe : Bool
  msg : Bool
  start : StreamStartEnv
  send : Bool

/-- vb2 hands over `b`, and it goes to the head of its queue's incoming list. -/
def Isys.addIncoming (s : Isys) (b : Buffer) : Isys :=
  let q := { s.bufs with held := insert b s.bufs.held }
  { s with bufs := q.setIncoming b.queue (b :: q.incoming b.queue) }

/-- The part of `buf_queue` with the stream's mutex held. -/
def bufQueueStream (s : Isys) (env : BufQueueEnv) (i k : Nat) : Isys :=
  let st := s.streams k
  if st.nrStreaming ≠ st.nrQueues then s
  else
    match bufferListGet s.bufs st.queues [] with
    | (q, none) => { s with bufs := q }
    | (q, some bl) =>
      let s := { s with bufs := q }
      if !env.msg then s
      else if !st.streaming then (ipu6IsysStreamStart s env.start i k bl true).1
      else
        let frame := ipu6IsysBufToFwFrameBuf s.fw bl
        { s with
          bufs := ipu6IsysBufferListQueue q .active none bl
          fw := (ipu6FwIsysComplexCmd s.fw k .streamCapture frame env.send).1 }

def bufQueue (s : Isys) (env : BufQueueEnv) (b : Buffer) : Isys :=
  let s := s.addIncoming b
  if !env.mediaPipe || !(s.av b.queue).called then s
  else
    match (s.av b.queue).stream with
    | none => s
    | some k => bufQueueStream s env b.queue k

def ipu6IsysStreamCleanup (s : Isys) (i : Nat) : Isys :=
  let s := match (s.av i).stream with
    | none => s
    | some k => ipu6IsysPutStream s k
  s.setAv i { s.av i with stream := none }

structure StartEnv where
  setup : SetupEnv
  linkFmt : Int
  get : GetEnv
  start : StreamStartEnv
  fwClose : Int

def outReturnBuffers (s : Isys) (i : Nat) (ret : Int) : Isys × Int :=
  ({ s with bufs := returnBuffers s.bufs i .queued }, ret)

def outPipelineStop (s : Isys) (i : Nat) (ret : Int) : Isys × Int :=
  outReturnBuffers (ipu6IsysStreamCleanup s i) i ret

def outFwClose (s : Isys) (env : StartEnv) (i : Nat) (ret : Int) : Isys × Int :=
  outPipelineStop (ipu6IsysFwPut s env.fwClose) i ret

def Stream.join (st : Stream) (i : Nat) : Stream :=
  { st with nrStreaming := st.nrStreaming + 1, queues := i :: st.queues }

def Stream.leave (st : Stream) (i : Nat) : Stream :=
  { st with nrStreaming := st.nrStreaming - 1, queues := st.queues.erase i }

def outStreamStart (s : Isys) (env : StartEnv) (i k : Nat) (ret : Int) : Isys × Int :=
  outFwClose (s.setStream k ((s.streams k).leave i)) env i ret

/-- The part of `start_streaming` after the node has joined its stream. -/
def startJoined (s : Isys) (env : StartEnv) (i k : Nat) : Isys × Int :=
  let st := s.streams k
  if st.nrStreaming ≠ st.nrQueues then (s, 0)
  else
    match bufferListGet s.bufs st.queues [] with
    | (q, none) => ({ s with bufs := q }, 0)
    | (q, some bl) =>
      let (s, ret) := ipu6IsysStreamStart { s with bufs := q } env.start i k bl false
      if ret = 0 then (s, 0) else outStreamStart s env i k ret

/-- Only the first node prepares the stream. -/
def prepareFirst (s : Isys) (k sourceEntity nrQueues : Nat) : Isys × Int :=
  if (s.streams k).nrStreaming = 0 then ipu6IsysVideoPrepareStream s k sourceEntity nrQueues
  else (s, 0)

def startStreaming (s : Isys) (env : StartEnv) (i : Nat) : Isys × Int :=
  match ipu6IsysSetupVideo s env.setup i with
  | (s, .error ret) => outReturnBuffers s i ret
  | (s, .ok (k, sourceEntity, nrQueues)) =>
    if env.linkFmt ≠ 0 then outPipelineStop s i env.linkFmt
    else
      let (s, ret) := ipu6IsysFwGet s env.get
      if ret ≠ 0 then outPipelineStop s i ret
      else
        let (s, ret) := prepareFirst s k sourceEntity nrQueues
        if ret ≠ 0 then outFwClose s env i ret
        else startJoined (s.setStream k ((s.streams k).join i)) env i k

structure StopEnv where
  set : SetEnv
  fwClose : Int

/-- The part of `stop_streaming` after `ipu6_isys_video_set_streaming`. -/
def stopLeave (s : Isys) (env : StopEnv) (i k : Nat) : Isys :=
  let s := s.setStream k { (s.streams k).leave i with streaming := false }
  let s := ipu6IsysStreamCleanup s i
  ipu6IsysFwPut { s with bufs := returnBuffers s.bufs i .error } env.fwClose

def stopStreaming (s : Isys) (env : StopEnv) (i : Nat) : Isys :=
  match (s.av i).stream with
  | none => s
  | some k =>
    if (s.streams k).nrStreaming = (s.streams k).nrQueues ∧ (s.streams k).streaming then
      stopLeave (ipu6IsysVideoSetStreaming s env.set i k false none).1 env i k
    else stopLeave s env i k

structure RestartEnv where
  stop : SetEnv
  fwClose : Int
  busReset : Int
  fwOpen : OpenResult
  start : SetEnv

/-- `wait_for_no_active_buffers` ends with empty lists or runs out of time. -/
def noActiveBuffers (q : Bufs) (queues : List Nat) : Bool :=
  queues.all fun i => (q.active i).isEmpty

/-- The part of `restart_stream` after `ipu6_fw_isys_open`. -/
def restartOpened (s : Isys) (env : RestartEnv) (i k : Nat) : Isys × Int :=
  let (q, bl) := bufferListGet s.bufs (s.streams k).queues []
  let (s, _, ret) := ipu6IsysVideoSetStreaming { s with bufs := q } env.start i k true bl
  (s, ret)

/-- The part of `restart_stream` after the stream is off. -/
def restartClosed (s : Isys) (env : RestartEnv) (i k : Nat) : Isys × Int :=
  let (fw, ret) := ipu6FwIsysClose s.fw env.fwClose
  let s := { s with fw := fw }
  if ret ≠ 0 then (s, ret)
  else if env.busReset ≠ 0 then (s, env.busReset)
  else
    let (fw, ret) := ipu6FwIsysOpen s.fw env.fwOpen
    let s := { s with fw := fw }
    if ret ≠ 0 then (s, ret) else restartOpened s env i k

def restartStream (s : Isys) (env : RestartEnv) (i : Nat) : Isys × Int :=
  match (s.av i).stream with
  | none => (s, 0)
  | some k =>
    if !noActiveBuffers s.bufs (s.streams k).queues then (s, - EIO)
    else
      let (s, _, ret) := ipu6IsysVideoSetStreaming s env.stop i k false none
      if ret ≠ 0 then (s, ret) else restartClosed s env i k

-- ---------------------------------------------------------------------------
-- Runs
-- ---------------------------------------------------------------------------

/-- The case `PIN_DATA_READY` of `isys_isr_one`. -/
def pinDataReady (s : Isys) (k pin pinAddr : Nat) (errorCheck : Bool) : Isys :=
  if s.streamsRefCount k = 0 ∨ IPU6_ISYS_OUTPUT_PINS ≤ pin then s
  else
    match s.fw.outputPinsQueue k pin with
    | none => s
    | some i => { s with bufs := ipu6StreamBufReady s.bufs i pinAddr errorCheck }

inductive Op where
  | queue (b : Buffer) (env : BufQueueEnv)
  | start (i : Nat) (env : StartEnv)
  | stop (i : Nat) (env : StopEnv)
  | restart (i : Nat) (env : RestartEnv)
  | ready (k pin pinAddr : Nat) (errorCheck : Bool)

/-- What vb2 and `ipu6_isys_queue_restart_streams` see to before they call. -/
def Allowed (s : Isys) : Op → Prop
  | .queue b _ => b ∉ s.bufs.held
  | .start i _ => (s.av i).called = false
  | .stop i _ => (s.av i).called = true
  | .restart i _ => (s.av i).stream ≠ none ∧ (s.av i).streaming = true
  | .ready .. => True

instance (s : Isys) : (op : Op) → Decidable (Allowed s op)
  | .queue b _ => inferInstanceAs (Decidable (b ∉ s.bufs.held))
  | .start i _ => inferInstanceAs (Decidable ((s.av i).called = false))
  | .stop i _ => inferInstanceAs (Decidable ((s.av i).called = true))
  | .restart i _ => inferInstanceAs (Decidable ((s.av i).stream ≠ none ∧ (s.av i).streaming = true))
  | .ready .. => .isTrue trivial

/-- vb2 notes in `called` whether the queue has been started. -/
def Isys.setCalled (s : Isys) (i : Nat) (called : Bool) : Isys :=
  s.setAv i { s.av i with called := called }

def apply (s : Isys) : Op → Isys
  | .queue b env => bufQueue s env b
  | .start i env => (startStreaming s env i).1.setCalled i ((startStreaming s env i).2 = 0)
  | .stop i env => (stopStreaming s env i).setCalled i false
  | .restart i env => (restartStream s env i).1
  | .ready k pin pinAddr errorCheck => pinDataReady s k pin pinAddr errorCheck

/-- A call that vb2 does not make is not a step. -/
def next (s : Isys) (op : Op) : Isys := if Allowed s op then apply s op else s

/-- After probing. -/
def initial : Isys where
  av := fun _ => ⟨none, false, false⟩
  vc := fun _ => 0
  streams := fun _ => ⟨none, 0, 0, false, []⟩
  streamsVc := fun _ => 0
  streamsAsd := fun _ => 0
  streamsRefCount := fun _ => 0
  refCount := 0
  fw := ⟨false, [], 0, false, fun _ => 0, fun _ _ => none, fun _ => 0⟩
  bufs := ⟨fun _ => [], fun _ => [], ∅, []⟩

end Ipu4.Capture
