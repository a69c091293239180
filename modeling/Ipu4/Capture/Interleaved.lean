import Ipu4.Capture.Wf

/-!
# Operations in steps

A response is handled while other nodes start and stop. `start_streaming`,
`stop_streaming` and the case `PIN_DATA_READY` of `isys_isr_one` are cut here
where the other side can come in between: where the node is attached or
detached, where buffers enter or leave the active lists, and where the pins and
`av->stream` are read. What stands between two cuts touches nothing that the
other side reads. The steps of one side, taken without the other, are the
operation.
-/

namespace Ipu4.Capture.Interleaved

-- ---------------------------------------------------------------------------
-- The halves of `ipu6_isys_video_set_streaming`
-- ---------------------------------------------------------------------------

/-- `start_stream_firmware` up to the answer to `STREAM_OPEN`. -/
def openStreamFirmware (fw : Firmware) (env : FwStart) (handle : Nat) (queues : List Nat) :
    Firmware × Int :=
  if !env.msg then (fw, -ENOMEM)
  else
    let (fw, ret) := pinCfgs env handle queues 0 fw
    if ret < 0 then (fw, ret)
    else
      let (fw, ret) := ipu6FwIsysComplexCmd fw handle .streamOpen .zero env.sendOpen
      if ret < 0 then (fw, ret)
      else
        let fw := getStreamOpened fw
        match env.openWait with
        | .timeout => (putStreamOpened fw, -ETIMEDOUT)
        | .error => (putStreamOpened fw, - EIO)
        | .done => (fw, 0)

/-- The rest of `start_stream_firmware`, with a buffer list. -/
def captureStreamFirmware (fw : Firmware) (q : Bufs) (env : FwStart) (handle : Nat)
    (bl : List Buffer) : Firmware × Bufs × List Buffer × Int :=
  if !env.frameMsg then (putStreamOpened fw, q, bl, -ENOMEM)
  else
    let frame := ipu6IsysBufToFwFrameBuf fw bl
    let q := ipu6IsysBufferListQueue q .active none bl
    let (fw, ret) := startOpened fw env handle (some frame)
    (fw, q, [], ret)

/-- Switching on, up to the answer to `STREAM_OPEN`. -/
def setStreamingOpen (s : Isys) (env : SetEnv) (k : Nat) : Isys × Int :=
  if (s.streams k).sourceEntity = none then (s, -ENODEV)
  else if env.route ≠ 0 then (s, env.route)
  else
    let (fw, ret) := openStreamFirmware s.fw env.start k (s.streams k).queues
    ({ s with fw := fw }, ret)

/-- Switching on, from the answer to `STREAM_OPEN` on. -/
def setStreamingCapture (s : Isys) (env : SetEnv) (i k : Nat) (bl : List Buffer) :
    Isys × List Buffer × Int :=
  let (fw, q, bl, ret) := captureStreamFirmware s.fw s.bufs env.start k bl
  if ret ≠ 0 then ({ s with fw := fw, bufs := q }, bl, ret)
  else if env.enable ≠ 0 then
    ({ s with fw := stopStreamingFirmware fw k env.sendFlush, bufs := q }, bl, env.enable)
  else (({ s with fw := fw, bufs := q }).setAv i { s.av i with streaming := true }, bl, 0)

theorem startStreamFirmware_halves (fw : Firmware) (q : Bufs) (env : FwStart) (k : Nat)
    (queues : List Nat) (bl : List Buffer) :
    startStreamFirmware fw q env k queues (some bl) =
      if (openStreamFirmware fw env k queues).2 ≠ 0 then
        ((openStreamFirmware fw env k queues).1, q, some bl, (openStreamFirmware fw env k queues).2)
      else
        let r := captureStreamFirmware (openStreamFirmware fw env k queues).1 q env k bl
        (r.1, r.2.1, some r.2.2.1, r.2.2.2) := by
  unfold startStreamFirmware openStreamFirmware
  cases hmsg : env.msg with
  | false => simp [ENOMEM]
  | true =>
    cases hpins : pinCfgs env k queues 0 fw with
    | mk fw₁ ret =>
    by_cases hret : ret < 0
    · simp [hret, Int.ne_of_lt hret]
    cases hopen : env.sendOpen with
    | false => simp [hret, ipu6FwIsysComplexCmd, EBUSY]
    | true =>
      cases env.openWait with
      | timeout => simp [hret, ipu6FwIsysComplexCmd, ETIMEDOUT]
      | error => simp [hret, ipu6FwIsysComplexCmd, EIO]
      | done =>
        simp only [hret, ipu6FwIsysComplexCmd, captureStreamFirmware, Bool.not_true, Bool.false_eq_true,
          if_true, if_false, Int.lt_irrefl, ne_eq, not_true]
        cases env.frameMsg with
        | false => rfl
        | true => rfl

theorem setStreaming_halves (s : Isys) (env : SetEnv) (i k : Nat) (bl : List Buffer) :
    ipu6IsysVideoSetStreaming s env i k true (some bl) =
      if (setStreamingOpen s env k).2 ≠ 0 then
        ((setStreamingOpen s env k).1, some bl, (setStreamingOpen s env k).2)
      else
        let r := setStreamingCapture (setStreamingOpen s env k).1 env i k bl
        (r.1, some r.2.1, r.2.2) := by
  unfold ipu6IsysVideoSetStreaming setStreamingOpen
  by_cases hsrc : (s.streams k).sourceEntity = none
  · simp [hsrc, ENODEV]
  by_cases hroute : env.route = 0
  case neg => simp [hsrc, hroute]
  simp only [hsrc, hroute, startStreamFirmware_halves, Bool.not_true, Bool.false_eq_true, ne_eq,
    not_true, if_false]
  by_cases hret : (openStreamFirmware s.fw env.start k (s.streams k).queues).2 = 0
  case neg => simp [hret]
  simp only [hret, not_true, if_false, setStreamingCapture]
  split
  · rfl
  split
  · rfl
  · rfl

-- ---------------------------------------------------------------------------
-- A node
-- ---------------------------------------------------------------------------

/-- What the node is left by: `stop_streaming`, which puts the firmware last, or a
`start_streaming` that fails. -/
inductive Exit where
  | stop (fwClose : Int)
  | start (ret : Int)

def Exit.state : Exit → VbState
  | .stop _ => .error
  | .start _ => .queued

/-- After the buffers are returned. vb2 then notes that the queue is not started. -/
def Exit.finish (s : Isys) (i : Nat) : Exit → Isys
  | .stop fwClose => (ipu6IsysFwPut s fwClose).setCalled i false
  | .start _ => s.setCalled i false

/-- Where a node is in `start_streaming` or `stop_streaming`, named after what has
just been done. From `starting` to `failed`, and in `stopping`, the stream's mutex is
held. From `cleanup` on both go the same way: `ipu6_isys_put_stream` comes next, then
`av->stream = NULL`, then `return_buffers`. -/
inductive Pc where
  | idle
  | setUp (env : StartEnv) (k sourceEntity nrQueues : Nat)
  | powered (env : StartEnv) (k sourceEntity nrQueues : Nat)
  | starting (env : StartEnv) (k : Nat) (bl : List Buffer)
  | opened (env : StartEnv) (k : Nat) (bl : List Buffer)
  | started (env : StartEnv) (k : Nat)
  | unstarted (env : StartEnv) (k : Nat) (bl : List Buffer) (ret : Int)
  | failed (env : StartEnv) (k : Nat) (ret : Int)
  | stopping (env : StopEnv) (k : Nat)
  | cleanup (x : Exit)
  | put (x : Exit)
  | returning (x : Exit)

/-- The slot whose mutex is held. -/
def Pc.holds : Pc → Option Nat
  | .starting _ k _ | .opened _ k _ | .started _ k | .unstarted _ k _ _ | .failed _ k _
  | .stopping _ k => some k
  | _ => none

def startStep (s : Isys) (env : StartEnv) (i : Nat) : Isys × Pc :=
  match ipu6IsysSetupVideo s env.setup i with
  | (s, .error ret) => (s, .returning (.start ret))
  | (s, .ok (k, sourceEntity, nrQueues)) => (s, .setUp env k sourceEntity nrQueues)

def stopStep (s : Isys) (env : StopEnv) (i k : Nat) : Isys × Pc :=
  (if (s.streams k).nrStreaming = (s.streams k).nrQueues ∧ (s.streams k).streaming then
      (ipu6IsysVideoSetStreaming s env.set i k false none).1
    else s, .stopping env k)

/-- The rest of `start_streaming` once the node has joined its stream. -/
def joinedStep (s : Isys) (env : StartEnv) (i k : Nat) : Isys × Pc :=
  let st := s.streams k
  if st.nrStreaming ≠ st.nrQueues then (s.setCalled i true, .idle)
  else
    match bufferListGet s.bufs st.queues [] with
    | (q, none) => (({ s with bufs := q }).setCalled i true, .idle)
    | (q, some bl) => ({ s with bufs := q }, .starting env k bl)

/-- The end of `ipu6_isys_stream_start`, after a stream that starts. -/
def captureStep (s : Isys) (env : CaptureEnv) (k : Nat) : Isys × Int :=
  let queues := (s.streams k).queues
  let s := s.setStream k { s.streams k with streaming := true }
  let (fw, q, ret) := captureLoop env k queues (sets s.bufs queues) 0 s.fw s.bufs
  ({ s with fw := fw, bufs := q }, ret)

/-- The label `out_requeue` of `ipu6_isys_stream_start`, called by `start_streaming`. -/
def outRequeue (s : Isys) (k : Nat) (bl : List Buffer) : Isys :=
  let q := ipu6IsysBufferListQueue s.bufs .incoming none bl
  { s with bufs := flushFirmwareStreamonFail (fun j => (s.av j).streaming) (s.streams k).queues q }

def returnStep (s : Isys) (i : Nat) (x : Exit) : Isys × Pc :=
  match s.bufs.incoming i, s.bufs.active i with
  | b :: l, _ =>
    ({ s with bufs := vb2BufferDone (s.bufs.setIncoming i l) b x.state }, .returning x)
  | [], b :: l => ({ s with bufs := vb2BufferDone (s.bufs.setActive i l) b x.state }, .returning x)
  | [], [] => (x.finish s i, .idle)

def nodeStep (s : Isys) (i : Nat) : Pc → Isys × Pc
  | .idle => (s, .idle)
  | .setUp env k sourceEntity nrQueues =>
    if env.linkFmt ≠ 0 then (s, .cleanup (.start env.linkFmt))
    else
      let (s, ret) := ipu6IsysFwGet s env.get
      if ret ≠ 0 then (s, .cleanup (.start ret)) else (s, .powered env k sourceEntity nrQueues)
  | .powered env k sourceEntity nrQueues =>
    let (s, ret) := prepareFirst s k sourceEntity nrQueues
    if ret ≠ 0 then (ipu6IsysFwPut s env.fwClose, .cleanup (.start ret))
    else joinedStep (s.setStream k ((s.streams k).join i)) env i k
  | .starting env k bl =>
    let (s, ret) := setStreamingOpen s env.start.set k
    if ret ≠ 0 then (s, .unstarted env k bl ret) else (s, .opened env k bl)
  | .opened env k bl =>
    let (s, bl, ret) := setStreamingCapture s env.start.set i k bl
    if ret ≠ 0 then (s, .unstarted env k bl ret) else (s, .started env k)
  | .started env k =>
    let (s, ret) := captureStep s env.start.capture k
    if ret = 0 then (s.setCalled i true, .idle) else (s, .failed env k ret)
  | .unstarted env k bl ret => (outRequeue s k bl, .failed env k ret)
  | .failed env k ret =>
    (ipu6IsysFwPut (s.setStream k ((s.streams k).leave i)) env.fwClose, .cleanup (.start ret))
  | .stopping env k =>
    (s.setStream k { (s.streams k).leave i with streaming := false }, .cleanup (.stop env.fwClose))
  | .cleanup x =>
    (match (s.av i).stream with
      | none => s
      | some k => ipu6IsysPutStream s k, .put x)
  | .put x => (s.setAv i { s.av i with stream := none }, .returning x)
  | .returning x => returnStep s i x

-- ---------------------------------------------------------------------------
-- The steps of a node are its operation
-- ---------------------------------------------------------------------------

/-- vb2 notes how `start_streaming` has ended. -/
def concluded (i : Nat) (r : Isys × Int) : Isys := r.1.setCalled i (r.2 = 0)

def restReturn (s : Isys) (i : Nat) (x : Exit) : Isys :=
  x.finish { s with bufs := returnBuffers s.bufs i x.state } i

def rest (s : Isys) (i : Nat) : Pc → Isys
  | .idle => s
  | .setUp env k sourceEntity nrQueues => concluded i <|
    if env.linkFmt ≠ 0 then outPipelineStop s i env.linkFmt
    else
      let (s, ret) := ipu6IsysFwGet s env.get
      if ret ≠ 0 then outPipelineStop s i ret
      else
        let (s, ret) := prepareFirst s k sourceEntity nrQueues
        if ret ≠ 0 then outFwClose s env i ret
        else startJoined (s.setStream k ((s.streams k).join i)) env i k
  | .powered env k sourceEntity nrQueues => concluded i <|
    let (s, ret) := prepareFirst s k sourceEntity nrQueues
    if ret ≠ 0 then outFwClose s env i ret
    else startJoined (s.setStream k ((s.streams k).join i)) env i k
  | .starting env k bl => concluded i <|
    let (s, ret) := ipu6IsysStreamStart s env.start i k bl false
    if ret = 0 then (s, 0) else outStreamStart s env i k ret
  | .opened env k bl => concluded i <|
    let (s, bl, ret) := setStreamingCapture s env.start.set i k bl
    if ret ≠ 0 then outStreamStart (outRequeue s k bl) env i k ret
    else
      let (s, ret) := captureStep s env.start.capture k
      if ret = 0 then (s, 0) else outStreamStart s env i k ret
  | .started env k => concluded i <|
    let (s, ret) := captureStep s env.start.capture k
    if ret = 0 then (s, 0) else outStreamStart s env i k ret
  | .unstarted env k bl ret => (outStreamStart (outRequeue s k bl) env i k ret).1.setCalled i false
  | .failed env k ret => (outStreamStart s env i k ret).1.setCalled i false
  | .stopping env k => (stopLeave s env i k).setCalled i false
  | .cleanup x => restReturn (ipu6IsysStreamCleanup s i) i x
  | .put x => restReturn (s.setAv i { s.av i with stream := none }) i x
  | .returning x => restReturn s i x

section
variable {s : Isys} {i : Nat}

theorem concluded_of_ne (hret : ret ≠ 0) (s : Isys) (i : Nat) :
    concluded i (s, ret) = s.setCalled i false := by
  unfold concluded
  rw [decide_eq_false hret]

theorem rest_start (s : Isys) (env : StartEnv) (i : Nat) :
    rest (startStep s env i).1 i (startStep s env i).2 = apply s (.start i env) := by
  show _ = concluded i (startStreaming s env i)
  unfold startStep startStreaming
  cases ipu6IsysSetupVideo s env.setup i with
  | mk s₁ r =>
  cases r with
  | error ret => exact (concluded_of_ne (Int.ne_of_lt ret.2) _ i).symm
  | ok r => rfl

theorem rest_stop (env : StopEnv) (hst : (s.av i).stream = some k) :
    rest (stopStep s env i k).1 i (stopStep s env i k).2 = apply s (.stop i env) := by
  simp only [stopStep, rest, apply, stopStreaming, hst]
  split
  · rfl
  · rfl

theorem rest_joined (s : Isys) (env : StartEnv) (i k : Nat) :
    rest (joinedStep s env i k).1 i (joinedStep s env i k).2 = concluded i (startJoined s env i k) := by
  unfold joinedStep startJoined
  dsimp only
  split
  · rfl
  cases bufferListGet s.bufs (s.streams k).queues [] with
  | mk q r =>
  cases r with
  | none => rfl
  | some bl => rfl

theorem streamStart_steps (s : Isys) (env : StreamStartEnv) (i k : Nat) (bl : List Buffer) :
    ipu6IsysStreamStart s env i k bl false =
      if (setStreamingOpen s env.set k).2 ≠ 0 then
        (outRequeue (setStreamingOpen s env.set k).1 k bl, (setStreamingOpen s env.set k).2)
      else
        let r := setStreamingCapture (setStreamingOpen s env.set k).1 env.set i k bl
        if r.2.2 ≠ 0 then (outRequeue r.1 k r.2.1, r.2.2) else captureStep r.1 env.capture k := by
  simp only [ipu6IsysStreamStart, setStreaming_halves]
  by_cases hopen : (setStreamingOpen s env.set k).2 = 0
  case neg =>
    simp only [hopen, ne_eq, not_false_eq_true, if_true]
    rfl
  simp only [hopen, ne_eq, not_true, if_false]
  generalize setStreamingCapture (setStreamingOpen s env.set k).1 env.set i k bl = r
  by_cases hret : r.2.2 = 0
  · simp only [hret, not_true, if_false]
    rfl
  · simp only [hret, not_false_eq_true, if_true]
    rfl

theorem returnBuffers_incoming {q : Bufs} (hin : q.incoming i = b :: l) (state : VbState) :
    returnBuffers (vb2BufferDone (q.setIncoming i l) b state) i state = returnBuffers q i state := by
  have hset : (vb2BufferDone (q.setIncoming i l) b state).setIncoming i [] =
      vb2BufferDone (q.setIncoming i []) b state := by
    simp [vb2BufferDone, Bufs.setIncoming]
  have hrest : (vb2BufferDone (q.setIncoming i l) b state).incoming i = l := incoming_setIncoming q i l
  simp only [returnBuffers, hset, hrest, hin, List.foldl_cons]

theorem returnBuffers_active {q : Bufs} (hin : q.incoming i = []) (hact : q.active i = b :: l)
    (state : VbState) :
    returnBuffers (vb2BufferDone (q.setActive i l) b state) i state = returnBuffers q i state := by
  have hset : ((vb2BufferDone (q.setActive i l) b state).setIncoming i []).setActive i [] =
      vb2BufferDone ((q.setIncoming i []).setActive i []) b state := by
    simp [vb2BufferDone, Bufs.setIncoming, Bufs.setActive]
  have hrest : ((vb2BufferDone (q.setActive i l) b state).setIncoming i []).active i = l := by
    simp [vb2BufferDone, Bufs.setIncoming, Bufs.setActive]
  have hold : (q.setIncoming i []).active i = b :: l := hact
  have hnone : (vb2BufferDone (q.setActive i l) b state).incoming i = [] := hin
  simp only [returnBuffers, hnone, hin, List.foldl_nil, hset, hrest, hold, List.foldl_cons]

theorem returnBuffers_end {q : Bufs} (hin : q.incoming i = []) (hact : q.active i = [])
    (state : VbState) : returnBuffers q i state = q := by
  have hold : (q.setIncoming i []).active i = [] := hact
  have hset : (q.setIncoming i []).setActive i [] = q := by
    simp only [Bufs.setIncoming, Bufs.setActive]
    rw [← hin, Function.update_eq_self, hin, ← hact, Function.update_eq_self]
  simp only [returnBuffers, hin, hold, List.foldl_nil, hset]

theorem rest_returnStep (s : Isys) (i : Nat) (x : Exit) :
    rest (returnStep s i x).1 i (returnStep s i x).2 = restReturn s i x := by
  unfold returnStep
  split
  next hin =>
    simp only [rest, restReturn, returnBuffers_incoming hin]
  next hin hact =>
    simp only [rest, restReturn, returnBuffers_active hin hact]
  next hin hact =>
    simp only [rest, restReturn, returnBuffers_end hin hact]

theorem rest_nodeStep (s : Isys) (i : Nat) (pc : Pc) :
    rest (nodeStep s i pc).1 i (nodeStep s i pc).2 = rest s i pc := by
  cases pc with
  | idle => rfl
  | setUp env k e n =>
    show rest _ i _ = concluded i _
    simp only [nodeStep]
    by_cases hlink : env.linkFmt = 0
    case neg =>
      simp only [hlink, ne_eq, not_false_eq_true, if_true]
      exact (concluded_of_ne hlink _ i).symm
    simp only [hlink, ne_eq, not_true, if_false]
    cases ipu6IsysFwGet s env.get with
    | mk s₁ ret =>
    by_cases hret : ret = 0
    case neg =>
      simp only [hret, not_false_eq_true, if_true]
      exact (concluded_of_ne hret _ i).symm
    simp only [hret, not_true, if_false]
    rfl
  | powered env k e n =>
    show rest _ i _ = concluded i _
    simp only [nodeStep]
    cases prepareFirst s k e n with
    | mk s₁ ret =>
    by_cases hret : ret = 0
    case neg =>
      simp only [hret, ne_eq, not_false_eq_true, if_true]
      exact (concluded_of_ne hret _ i).symm
    simp only [hret, ne_eq, not_true, if_false]
    exact rest_joined _ env i k
  | starting env k bl =>
    show rest _ i _ = concluded i _
    simp only [nodeStep, streamStart_steps]
    generalize setStreamingOpen s env.start.set k = r
    by_cases hret : r.2 = 0
    case neg =>
      simp only [hret, ne_eq, not_false_eq_true, if_true, if_false]
      exact (concluded_of_ne hret _ i).symm
    simp only [hret, ne_eq, not_true, if_false]
    show concluded i _ = _
    dsimp only
    generalize setStreamingCapture r.1 env.start.set i k bl = r'
    by_cases hret' : r'.2.2 = 0
    · simp only [hret', ne_eq, not_true, if_false]
    · simp only [hret', ne_eq, not_false_eq_true, if_true, if_false]
  | opened env k bl =>
    show rest _ i _ = concluded i _
    simp only [nodeStep]
    generalize setStreamingCapture s env.start.set i k bl = r
    by_cases hret : r.2.2 = 0
    case neg =>
      simp only [hret, ne_eq, not_false_eq_true, if_true]
      exact (concluded_of_ne hret _ i).symm
    simp only [hret, ne_eq, not_true, if_false]
    rfl
  | started env k =>
    show rest _ i _ = concluded i _
    simp only [nodeStep]
    generalize captureStep s env.start.capture k = r
    by_cases hret : r.2 = 0
    case neg =>
      simp only [hret, if_false]
      exact (concluded_of_ne hret _ i).symm
    simp only [hret, if_true]
    rfl
  | unstarted env k bl ret => rfl
  | failed env k ret => rfl
  | stopping env k => rfl
  | cleanup x => rfl
  | put x => rfl
  | returning x => exact rest_returnStep s i x

end

-- ---------------------------------------------------------------------------
-- The response handler
-- ---------------------------------------------------------------------------

/-- Where `isys_isr_one` is with a `PIN_DATA_READY` for stream `k`: the stream is
looked up; the queue of the pin is read; the buffer is off the active list and
`ipu6_isys_buf_calc_sequence_time` comes next; `ipu6_isys_queue_buf_done` comes next;
the stream is put next. -/
inductive Isr where
  | out
  | lookedUp (k pin pinAddr : Nat) (errorCheck : Bool)
  | found (k i pinAddr : Nat) (errorCheck : Bool)
  | taken (k : Nat) (b : Buffer) (errorCheck : Bool)
  | timed (k : Nat) (b : Buffer) (errorCheck : Bool)
  | leaving (k : Nat)
  deriving DecidableEq, Repr

/-- `ipu6_isys_query_stream_by_handle` takes a reference. -/
def respondStep (s : Isys) (k pin pinAddr : Nat) (errorCheck : Bool) : Isys × Isr :=
  if IPU4_ISYS_MAX_STREAMS ≤ k ∨ s.streamsRefCount k = 0 then (s, .out)
  else
    ({ s with streamsRefCount := Function.update s.streamsRefCount k (s.streamsRefCount k + 1) },
      .lookedUp k pin pinAddr errorCheck)

/-- The buffer that a response with this address is about. -/
def matching (q : Bufs) (i pinAddr : Nat) : Option Buffer :=
  (q.active i).reverse.find? fun b => b.dmaAddr = pinAddr

def isrStep (s : Isys) : Isr → Isys × Isr
  | .out => (s, .out)
  | .lookedUp k pin pinAddr errorCheck =>
    if IPU6_ISYS_OUTPUT_PINS ≤ pin then (s, .leaving k)
    else
      match s.fw.outputPinsQueue k pin with
      | none => (s, .leaving k)
      | some i => (s, .found k i pinAddr errorCheck)
  | .found k i pinAddr errorCheck =>
    match matching s.bufs i pinAddr with
    | none => (s, .leaving k)
    | some b =>
      ({ s with bufs := s.bufs.setActive i ((s.bufs.active i).erase b) }, .taken k b errorCheck)
  -- the function writes nothing but the buffer's own time and sequence number
  | .taken k b errorCheck => (s, .timed k b errorCheck)
  | .timed k b errorCheck =>
    ({ s with bufs := vb2BufferDone s.bufs b (if errorCheck then .error else .done) }, .leaving k)
  | .leaving k => (ipu6IsysPutStream s k, .out)

/-- What is left of the handling. -/
def isrRest (s : Isys) : Isr → Isys
  | .out => s
  | .lookedUp k pin pinAddr errorCheck =>
    ipu6IsysPutStream (pinDataReady s k pin pinAddr errorCheck) k
  | .found k i pinAddr errorCheck =>
    ipu6IsysPutStream { s with bufs := ipu6StreamBufReady s.bufs i pinAddr errorCheck } k
  | .taken k b errorCheck | .timed k b errorCheck =>
    ipu6IsysPutStream
      { s with bufs := vb2BufferDone s.bufs b (if errorCheck then .error else .done) } k
  | .leaving k => ipu6IsysPutStream s k

theorem isrRest_respond (s : Isys) (pin pinAddr : Nat) (errorCheck : Bool)
    (hk : k < IPU4_ISYS_MAX_STREAMS) :
    isrRest (respondStep s k pin pinAddr errorCheck).1 (respondStep s k pin pinAddr errorCheck).2 =
      pinDataReady s k pin pinAddr errorCheck := by
  unfold respondStep
  by_cases href : s.streamsRefCount k = 0
  · rw [if_pos (.inr href)]
    exact (if_pos (.inl href)).symm
  rw [if_neg (not_or.mpr ⟨Nat.not_le.mpr hk, href⟩)]
  unfold isrRest pinDataReady
  have hback : ∀ q : Bufs, ipu6IsysPutStream { s with
      streamsRefCount := Function.update s.streamsRefCount k (s.streamsRefCount k + 1)
      bufs := q } k = { s with bufs := q } := by
    intro q
    simp [ipu6IsysPutStream]
  simp only [Function.update_self, href, false_or, Nat.add_one_ne_zero]
  split
  · exact hback s.bufs
  split
  · exact hback s.bufs
  · exact hback _

theorem isrRest_isrStep (s : Isys) (isr : Isr)
    (href : ∀ k pin pinAddr errorCheck, isr = .lookedUp k pin pinAddr errorCheck →
      s.streamsRefCount k ≠ 0) :
    isrRest (isrStep s isr).1 (isrStep s isr).2 = isrRest s isr := by
  cases isr with
  | out => rfl
  | lookedUp k pin pinAddr errorCheck =>
    show isrRest _ _ = ipu6IsysPutStream (pinDataReady s k pin pinAddr errorCheck) k
    simp only [isrStep, pinDataReady, href k pin pinAddr errorCheck rfl, false_or]
    by_cases hpin : IPU6_ISYS_OUTPUT_PINS ≤ pin
    · simp only [hpin, if_true]
      rfl
    simp only [hpin, if_false]
    cases s.fw.outputPinsQueue k pin with
    | none => rfl
    | some i => rfl
  | found k i pinAddr errorCheck =>
    show isrRest _ _ = ipu6IsysPutStream { s with bufs := ipu6StreamBufReady .. } k
    simp only [isrStep, ipu6StreamBufReady, matching]
    cases (s.bufs.active i).reverse.find? fun b => b.dmaAddr = pinAddr with
    | none => rfl
    | some b => rfl
  | taken k b errorCheck => rfl
  | timed k b errorCheck => rfl
  | leaving k => rfl

-- ---------------------------------------------------------------------------
-- All together
-- ---------------------------------------------------------------------------

/-- `mutex` has the node that holds a stream's mutex. -/
structure State where
  isys : Isys
  pc : Nat → Pc
  mutex : Nat → Option Nat
  isr : Isr

/-- A node begins an operation or goes on with it, a response arrives, or the handler
goes on. `buf_queue` is one step. -/
inductive Act where
  | queue (b : Buffer) (env : BufQueueEnv)
  | start (i : Nat) (env : StartEnv)
  | stop (i : Nat) (env : StopEnv)
  | node (i : Nat)
  | respond (k pin pinAddr : Nat) (errorCheck : Bool)
  | isr

/-- Node `i` goes from `pc` to `pc'`. -/
def relock (mutex : Nat → Option Nat) (i : Nat) (pc pc' : Pc) : Nat → Option Nat :=
  let mutex := match pc.holds with
    | some k => Function.update mutex k none
    | none => mutex
  match pc'.holds with
  | some k => Function.update mutex k (some i)
  | none => mutex

def State.setNode (w : State) (i : Nat) (r : Isys × Pc) : State :=
  { w with
    isys := r.1
    pc := Function.update w.pc i r.2
    mutex := relock w.mutex i (w.pc i) r.2 }

def State.setIsr (w : State) (r : Isys × Isr) : State := { w with isys := r.1, isr := r.2 }

/-- vb2 has a lock for each queue, so a node is in one operation at a time. -/
def step (w : State) : Act → Option State
  | .queue b env =>
    match w.pc b.queue with
    | .idle =>
      if b ∈ w.isys.bufs.held then none
      else
        match (env.slot w.isys b).bind w.mutex with
        | some _ => none
        | none => some { w with isys := bufQueue w.isys env b }
    | _ => none
  | .start i env =>
    match w.pc i with
    | .idle => if (w.isys.av i).called then none else some (w.setNode i (startStep w.isys env i))
    | _ => none
  | .stop i env =>
    match w.pc i, (w.isys.av i).stream with
    | .idle, some k =>
      if (w.isys.av i).called ∧ w.mutex k = none then some (w.setNode i (stopStep w.isys env i k))
      else none
    | _, _ => none
  | .node i =>
    match w.pc i with
    | .idle => none
    | .powered env k e n =>
      if w.mutex k = none then some (w.setNode i (nodeStep w.isys i (.powered env k e n))) else none
    | pc => some (w.setNode i (nodeStep w.isys i pc))
  | .respond k pin pinAddr errorCheck =>
    match w.isr with
    | .out => some (w.setIsr (respondStep w.isys k pin pinAddr errorCheck))
    | _ => none
  | .isr =>
    match w.isr with
    | .out => none
    | isr => some (w.setIsr (isrStep w.isys isr))

/-- An act that is not possible is not a step. -/
def next (w : State) (a : Act) : State := (step w a).getD w

/-- After probing. -/
def init : State := ⟨initial, fun _ => .idle, fun _ => none, .out⟩

end Ipu4.Capture.Interleaved
