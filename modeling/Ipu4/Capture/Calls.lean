import Ipu4.Lib.Trace
import Ipu4.Capture.Wf

/-!
# The calls an operation makes

What an operation does to the firmware context, to the references of the
stream slots and to the message buffers, call by call and in the order of the
source. The states of the operations stay the authority: replaying the calls
gives the context, the commands and the references that the operation leaves.
-/

namespace Ipu4.Capture

open Trace

/-- The command has a frame buffer set, which the firmware acknowledges. -/
def Cmd.framed (c : Cmd) : Bool := c.type = .streamCapture || c.type = .streamStartAndCapture

/-- `getStream` and `putStream` count the references of a slot; `fwPrepare` is
the assignment of `ipu6_fw_com_prepare` to `isys->fwcom`; `getMsg false` returns
NULL. `putMsg` and `cmd` are about the message of the last `getMsg`. -/
inductive Call where
  | getStream (k : Nat)
  | putStream (k : Nat)
  | fwPrepare (ok : Bool)
  | fwClose (ret : Int)
  | getMsg (ok : Bool)
  | putMsg
  | cleanupMsgs
  | cmd (c : Cmd)
  deriving DecidableEq, Repr

-- ---------------------------------------------------------------------------
-- The firmware context
-- ---------------------------------------------------------------------------

/-- What `ipu6_fw_isys_init` meets: the three calls into the communication
library, and the close after a firmware that does not become ready. -/
structure InitEnv where
  prepared : Bool
  opened : Bool
  ready : Bool
  fwClose : Int
  deriving DecidableEq, Repr

def ipu6FwIsysInit (env : InitEnv) : OpenResult :=
  if !env.prepared then .error (- EIO) false
  else if !env.opened then .error (- EIO) true
  else if !env.ready then .error (- EIO) (env.fwClose ≠ 0)
  else .ok

def initCalls (env : InitEnv) : List Call :=
  .fwPrepare env.prepared ::
    if env.prepared && env.opened && !env.ready then [.fwClose env.fwClose] else []

/-- `ipu6_fw_isys_open` first takes the messages back. -/
def openCalls (env : InitEnv) : List Call := .cleanupMsgs :: initCalls env

def fwGetCalls (s : Isys) (env : GetEnv) (init : InitEnv) : List Call :=
  if env.resume < 0 ∨ s.refCount ≠ 0 then [] else openCalls init

def fwPutCalls (s : Isys) (fwClose : Int) : List Call :=
  if s.refCount - 1 ≠ 0 then [] else [.fwClose fwClose]

-- ---------------------------------------------------------------------------
-- Starting and stopping a stream
-- ---------------------------------------------------------------------------

def startOpenedCalls (env : FwStart) (k : Nat) (frame : Option FrameBuffSet) : List Call :=
  let start : Call := match frame with
    | some frame => .cmd ⟨k, .streamStartAndCapture, frame, env.sendStart⟩
    | none => .cmd ⟨k, .streamStart, .zero, env.sendStart⟩
  start ::
    if env.sendStart = false ∨ env.startWait ≠ .done then
      [.cmd ⟨k, .streamClose, .zero, env.sendClose⟩]
    else []

/-- After the answer to `STREAM_OPEN`, which is when the message of the
configuration goes back. -/
def openedCalls (fw : Firmware) (env : FwStart) (k : Nat) (bl : Option (List Buffer)) : List Call :=
  match env.openWait, bl with
  | .done, none => startOpenedCalls env k none
  | .done, some bl =>
    .getMsg env.frameMsg ::
      if !env.frameMsg then [] else startOpenedCalls env k (some (ipu6IsysBufToFwFrameBuf fw bl))
  | _, _ => []

def startStreamFirmwareCalls (fw : Firmware) (env : FwStart) (k : Nat) (queues : List Nat)
    (bl : Option (List Buffer)) : List Call :=
  .getMsg env.msg ::
    if !env.msg then []
    else
      let (fw, ret) := pinCfgs env k queues 0 fw
      if ret < 0 then [.putMsg]
      else
        .cmd ⟨k, .streamOpen, .zero, env.sendOpen⟩ :: .putMsg ::
          if !env.sendOpen then [] else openedCalls fw env k bl

def setStreamingCalls (s : Isys) (env : SetEnv) (k : Nat) (state : Bool)
    (bl : Option (List Buffer)) : List Call :=
  if (s.streams k).sourceEntity = none ∨ env.route ≠ 0 then []
  else if !state then
    .cmd ⟨k, .streamFlush, .zero, env.sendFlush⟩ ::
      if env.disable ≠ 0 then [] else [.cmd ⟨k, .streamClose, .zero, env.sendClose⟩]
  else
    startStreamFirmwareCalls s.fw env.start k (s.streams k).queues bl ++
      if (startStreamFirmware s.fw s.bufs env.start k (s.streams k).queues bl).2.2.2 = 0 ∧
          env.enable ≠ 0 then [.cmd ⟨k, .streamFlush, .zero, env.sendFlush⟩]
      else []

/-- The rounds of the loop from round `j` on, `n` at most. -/
def captureLoopCalls (env : CaptureEnv) (k : Nat) (queues : List Nat) :
    Nat → Nat → Firmware → Bufs → List Call
  | 0, _, _, _ => []
  | n + 1, j, fw, q =>
    match bufferListGet q queues [] with
    | (_, none) => []
    | (q, some bl) =>
      .getMsg (env.msg j) ::
        if !env.msg j then []
        else
          let frame := ipu6IsysBufToFwFrameBuf fw bl
          .cmd ⟨k, .streamCapture, frame, env.send j⟩ ::
            if !env.send j then []
            else
              captureLoopCalls env k queues n (j + 1)
                (ipu6FwIsysComplexCmd fw k .streamCapture frame true).1
                (ipu6IsysBufferListQueue q .active none bl)

def streamStartCalls (s : Isys) (env : StreamStartEnv) (i k : Nat) (bl : List Buffer) : List Call :=
  setStreamingCalls s env.set k true (some bl) ++
    let (s, _, ret) := ipu6IsysVideoSetStreaming s env.set i k true (some bl)
    let queues := (s.streams k).queues
    if ret ≠ 0 then []
    else captureLoopCalls env.capture k queues (sets s.bufs queues) 0 s.fw s.bufs

-- ---------------------------------------------------------------------------
-- The operations
-- ---------------------------------------------------------------------------

def bufQueueStreamCalls (s : Isys) (env : BufQueueEnv) (i k : Nat) : List Call :=
  let st := s.streams k
  if st.nrStreaming ≠ st.nrQueues then []
  else
    match bufferListGet s.bufs st.queues [] with
    | (_, none) => []
    | (q, some bl) =>
      .getMsg env.msg ::
        if !env.msg then []
        else if !st.streaming then streamStartCalls { s with bufs := q } env.start i k bl
        else [.cmd ⟨k, .streamCapture, ipu6IsysBufToFwFrameBuf s.fw bl, env.send⟩]

def bufQueueCalls (s : Isys) (env : BufQueueEnv) (b : Buffer) : List Call :=
  let s := s.addIncoming b
  if !env.mediaPipe || !(s.av b.queue).called then []
  else
    match (s.av b.queue).stream with
    | none => []
    | some k => bufQueueStreamCalls s env b.queue k

def cleanupCalls (s : Isys) (i : Nat) : List Call :=
  match (s.av i).stream with
  | none => []
  | some k => [.putStream k]

def outFwCloseCalls (s : Isys) (env : StartEnv) (i : Nat) : List Call :=
  fwPutCalls s env.fwClose ++ cleanupCalls s i

def startJoinedCalls (s : Isys) (env : StartEnv) (i k : Nat) : List Call :=
  let st := s.streams k
  if st.nrStreaming ≠ st.nrQueues then []
  else
    match bufferListGet s.bufs st.queues [] with
    | (_, none) => []
    | (q, some bl) =>
      streamStartCalls { s with bufs := q } env.start i k bl ++
        let (s, ret) := ipu6IsysStreamStart { s with bufs := q } env.start i k bl false
        if ret = 0 then [] else outFwCloseCalls s env i

/-- After `ipu6_isys_fw_get`. -/
def startPoweredCalls (s : Isys) (env : StartEnv) (i k sourceEntity nrQueues : Nat) : List Call :=
  let (s, ret) := prepareFirst s k sourceEntity nrQueues
  if ret ≠ 0 then outFwCloseCalls s env i
  else startJoinedCalls (s.setStream k ((s.streams k).join i)) env i k

def startStreamingCalls (s : Isys) (env : StartEnv) (init : InitEnv) (i : Nat) : List Call :=
  match ipu6IsysSetupVideo s env.setup i with
  | (_, .error _) => []
  | (s, .ok (k, sourceEntity, nrQueues)) =>
    .getStream k ::
      if env.linkFmt ≠ 0 then cleanupCalls s i
      else
        fwGetCalls s env.get init ++
          let (s, ret) := ipu6IsysFwGet s env.get
          if ret ≠ 0 then cleanupCalls s i else startPoweredCalls s env i k sourceEntity nrQueues

def stopStreamingCalls (s : Isys) (env : StopEnv) (i : Nat) : List Call :=
  match (s.av i).stream with
  | none => []
  | some k =>
    (if (s.streams k).nrStreaming = (s.streams k).nrQueues ∧ (s.streams k).streaming then
      setStreamingCalls s env.set k false none else []) ++
    .putStream k :: fwPutCalls s env.fwClose

/-- After the stream is off. -/
def restartClosedCalls (s : Isys) (env : RestartEnv) (init : InitEnv) (k : Nat) : List Call :=
  .fwClose env.fwClose ::
    if env.fwClose ≠ 0 ∨ env.busReset ≠ 0 then []
    else
      openCalls init ++
        let (fw, ret) := ipu6FwIsysOpen s.fw env.fwOpen
        if ret ≠ 0 then []
        else
          let (q, bl) := bufferListGet s.bufs (s.streams k).queues []
          setStreamingCalls { s with fw := fw, bufs := q } env.start k true bl

def restartStreamCalls (s : Isys) (env : RestartEnv) (init : InitEnv) (i : Nat) : List Call :=
  match (s.av i).stream with
  | none => []
  | some k =>
    if !noActiveBuffers s.bufs (s.streams k).queues then []
    else
      setStreamingCalls s env.stop k false none ++
        let (s, _, ret) := ipu6IsysVideoSetStreaming s env.stop i k false none
        if ret ≠ 0 then [] else restartClosedCalls s env init k

/-- An operation, with what `ipu6_fw_isys_init` meets if it is called. -/
structure Step where
  op : Op
  init : InitEnv

def NR_OF_VIDEO_DEVICE : Nat := 31

/-- The node is one of the device's, and the answer of `ipu6_fw_isys_open` is one
that `ipu6_fw_isys_init` gives. -/
def Step.Proper (st : Step) : Prop :=
  match st.op with
  | .start i env => i < NR_OF_VIDEO_DEVICE ∧ env.get.fwOpen = ipu6FwIsysInit st.init
  | .restart _ env => env.fwOpen = ipu6FwIsysInit st.init
  | _ => True

def applyCalls (s : Isys) (st : Step) : List Call :=
  match st.op with
  | .queue b env => bufQueueCalls s env b
  | .start i env => startStreamingCalls s env st.init i
  | .stop i env => stopStreamingCalls s env i
  | .restart i env => restartStreamCalls s env st.init i
  | .ready .. => []

def nextCalls (s : Isys) (st : Step) : List Call :=
  if Allowed s st.op then applyCalls s st else []

def nextStep (s : Isys) (st : Step) : Isys := next s st.op

-- ---------------------------------------------------------------------------
-- Replaying the calls
-- ---------------------------------------------------------------------------

/-- What the calls are about: the context, the commands so far, the last one
first, and the references of the slots. -/
structure Side where
  fwcom : Bool
  cmds : List Cmd
  refs : Nat → Nat

def Side.call (t : Side) : Call → Side
  | .getStream k => { t with refs := Function.update t.refs k (t.refs k + 1) }
  | .putStream k =>
    if 0 < t.refs k then { t with refs := Function.update t.refs k (t.refs k - 1) } else t
  | .fwPrepare ok => { t with fwcom := ok }
  | .fwClose ret => if ret ≠ 0 then t else { t with fwcom := false }
  | .cmd c => { t with cmds := c :: t.cmds }
  | .getMsg _ | .putMsg | .cleanupMsgs => t

def Side.calls (t : Side) (cs : List Call) : Side := cs.foldl Side.call t

def Isys.side (s : Isys) : Side := ⟨s.fw.fwcom, s.fw.cmds, s.streamsRefCount⟩

/-- The calls `cs` lead from `fw` to `fw'`. -/
def Replays (fw : Firmware) (cs : List Call) (fw' : Firmware) : Prop :=
  ∀ refs, Side.calls ⟨fw.fwcom, fw.cmds, refs⟩ cs = ⟨fw'.fwcom, fw'.cmds, refs⟩

theorem calls_append (t : Side) (cs cs' : List Call) :
    t.calls (cs ++ cs') = (t.calls cs).calls cs' :=
  List.foldl_append

theorem Replays.nil (hcom : fw'.fwcom = fw.fwcom) (hcmds : fw'.cmds = fw.cmds) :
    Replays fw [] fw' := by
  intro refs
  rw [hcom, hcmds]
  rfl

theorem Replays.append (h : Replays fw cs fw') (h' : Replays fw' cs' fw'') :
    Replays fw (cs ++ cs') fw'' := by
  intro refs
  rw [calls_append, h, h']

theorem Replays.getMsg (ok : Bool) (h : Replays fw cs fw') : Replays fw (.getMsg ok :: cs) fw' := h

theorem Replays.cmd (h : Replays { fw with cmds := c :: fw.cmds } cs fw') :
    Replays fw (.cmd c :: cs) fw' := h

theorem Replays.side {s s' : Isys} (h : Replays s.fw cs s'.fw)
    (hrefs : s'.streamsRefCount = s.streamsRefCount) : s.side.calls cs = s'.side := by
  refine (h s.streamsRefCount).trans ?_
  rw [← hrefs]
  rfl

section
variable {fw fw' : Firmware}

theorem pinCfgs_fwcom (env : FwStart) (k : Nat) (queues : List Nat) (n : Nat) (fw : Firmware) :
    (pinCfgs env k queues n fw).1.fwcom = fw.fwcom ∧ (pinCfgs env k queues n fw).1.cmds = fw.cmds := by
  induction queues generalizing n fw with
  | nil => exact ⟨rfl, rfl⟩
  | cons i is ih =>
    rw [pinCfgs]
    split
    · exact ⟨rfl, rfl⟩
    · exact ih _ _

theorem replays_startOpened (fw : Firmware) (env : FwStart) (k : Nat)
    (frame : Option FrameBuffSet) :
    Replays fw (startOpenedCalls env k frame) (startOpened fw env k frame).1 := by
  intro refs
  cases frame with
  | none =>
    cases hs : env.sendStart <;> cases hw : env.startWait <;>
      simp [startOpened, startOpenedCalls, startCmd, ipu6FwIsysSimpleCmd, ipu6FwIsysComplexCmd,
        outStreamClose, putStreamOpened, Side.calls, Side.call, hs, hw, EBUSY]
  | some frame =>
    cases hs : env.sendStart <;> cases hw : env.startWait <;>
      simp [startOpened, startOpenedCalls, startCmd, ipu6FwIsysSimpleCmd, ipu6FwIsysComplexCmd,
        outStreamClose, putStreamOpened, Side.calls, Side.call, hs, hw, EBUSY]

theorem replays_startStreamFirmware (fw : Firmware) (q : Bufs) (env : FwStart) (k : Nat)
    (queues : List Nat) (bl : Option (List Buffer)) :
    Replays fw (startStreamFirmwareCalls fw env k queues bl)
      (startStreamFirmware fw q env k queues bl).1 := by
  have hpins := pinCfgs_fwcom env k queues 0 fw
  unfold startStreamFirmwareCalls startStreamFirmware
  cases hmsg : env.msg with
  | false => exact fun refs => rfl
  | true =>
    cases hp : pinCfgs env k queues 0 fw with
    | mk fw₁ ret =>
    obtain ⟨hcom, hcmds⟩ := hp ▸ hpins
    dsimp only at hcom hcmds
    by_cases hret : ret < 0
    · intro refs
      simp [hret, Side.calls, Side.call, hcom, hcmds]
    · have hopen : Replays fw [.getMsg true, .cmd ⟨k, .streamOpen, .zero, env.sendOpen⟩, .putMsg]
          { fw₁ with cmds := ⟨k, .streamOpen, .zero, env.sendOpen⟩ :: fw₁.cmds } := by
        intro refs
        simp [Side.calls, Side.call, hcom, hcmds]
      cases hsend : env.sendOpen with
      | false =>
        rw [hsend] at hopen
        simp only [hret, Bool.not_true, Bool.not_false, Bool.false_eq_true, if_true, if_false]
        exact hopen
      | true =>
        rw [hsend] at hopen
        simp only [hret, ipu6FwIsysComplexCmd, Bool.not_true, Bool.false_eq_true, if_true, if_false,
          Int.lt_irrefl]
        replace hopen : Replays fw _ (getStreamOpened
            { fw₁ with cmds := ⟨k, .streamOpen, .zero, true⟩ :: fw₁.cmds }) := hopen
        refine hopen.append ?_
        generalize hfw₂ : getStreamOpened _ = fw₂
        have hframe : ∀ bl, ipu6IsysBufToFwFrameBuf fw₁ bl = ipu6IsysBufToFwFrameBuf fw₂ bl :=
          fun bl => hfw₂ ▸ rfl
        cases env.openWait with
        | timeout => exact .nil rfl rfl
        | error => exact .nil rfl rfl
        | done =>
          cases bl with
          | none => exact replays_startOpened _ env k none
          | some bl =>
            simp only [hframe]
            cases env.frameMsg with
            | false => exact fun refs => rfl
            | true =>
              exact .getMsg true (replays_startOpened fw₂ env k (some (ipu6IsysBufToFwFrameBuf fw₂ bl)))

theorem replays_setStreaming (s : Isys) (env : SetEnv) (i k : Nat) (state : Bool)
    (bl : Option (List Buffer)) :
    Replays s.fw (setStreamingCalls s env k state bl)
      (ipu6IsysVideoSetStreaming s env i k state bl).1.fw := by
  unfold setStreamingCalls ipu6IsysVideoSetStreaming
  by_cases hsrc : (s.streams k).sourceEntity = none
  · simp only [hsrc, true_or, if_true]
    exact .nil rfl rfl
  by_cases hroute : env.route = 0
  case neg =>
    simp only [hsrc, hroute, ne_eq, not_false_eq_true, or_true, if_true, if_false]
    exact .nil rfl rfl
  simp only [hsrc, hroute, ne_eq, not_true, or_self, if_false]
  cases state with
  | false =>
    by_cases hdis : env.disable = 0
    case neg =>
      simp only [hdis, Bool.not_false, not_false_eq_true, if_true]
      exact fun refs => rfl
    cases hsend : env.sendClose <;> intro refs <;>
      simp [hdis, stopStreamingFirmware, closeStreamingFirmware, ipu6FwIsysSimpleCmd,
        ipu6FwIsysComplexCmd, putStreamOpened, Isys.setAv, Side.calls, Side.call, EBUSY]
  | true =>
    have hstart := replays_startStreamFirmware s.fw s.bufs env.start k (s.streams k).queues bl
    generalize startStreamFirmware s.fw s.bufs env.start k (s.streams k).queues bl = r at hstart ⊢
    obtain ⟨fw, q, bl', ret⟩ := r
    simp only [Bool.not_true, Bool.false_eq_true, if_false]
    by_cases hret : ret = 0
    case neg =>
      simp only [hret, false_and, not_false_eq_true, if_true, if_false]
      exact hstart.append (.nil rfl rfl)
    by_cases hen : env.enable = 0
    case neg =>
      simp only [hret, hen, not_true, not_false_eq_true, and_self, if_true, if_false]
      exact hstart.append fun refs => rfl
    simp only [hret, hen, not_true, and_false, if_false]
    exact hstart.append (.nil rfl rfl)

theorem replays_captureLoop (env : CaptureEnv) (k : Nat) (queues : List Nat) (n j : Nat)
    (fw : Firmware) (q : Bufs) :
    Replays fw (captureLoopCalls env k queues n j fw q) (captureLoop env k queues n j fw q).1 := by
  induction n generalizing j fw q with
  | zero => exact .nil rfl rfl
  | succ n ih =>
    rw [captureLoopCalls, captureLoop]
    cases bufferListGet q queues [] with
    | mk q₁ r =>
    cases r with
    | none => exact .nil rfl rfl
    | some bl =>
      cases hmsg : env.msg j with
      | false => exact fun refs => rfl
      | true =>
        cases hsend : env.send j with
        | false => exact fun refs => rfl
        | true =>
          exact .getMsg true (.cmd (ih (j + 1)
            (ipu6FwIsysComplexCmd fw k .streamCapture (ipu6IsysBufToFwFrameBuf fw bl) true).1
            (ipu6IsysBufferListQueue q₁ .active none bl)))

theorem replays_open (fw : Firmware) (init : InitEnv) :
    Replays fw (openCalls init) (ipu6FwIsysOpen fw (ipu6FwIsysInit init)).1 := by
  obtain ⟨prepared, opened, ready, ret⟩ := init
  intro refs
  by_cases hret : ret = 0 <;> cases prepared <;> cases opened <;> cases ready <;>
    simp [openCalls, initCalls, ipu6FwIsysOpen, ipu6FwIsysInit, Side.calls, Side.call, hret]

theorem replays_close (fw : Firmware) (ret : Int) :
    Replays fw [.fwClose ret] (ipu6FwIsysClose fw ret).1 := by
  intro refs
  by_cases hret : ret = 0 <;> simp [ipu6FwIsysClose, Side.calls, Side.call, hret]

end

-- ---------------------------------------------------------------------------
-- The operations replayed
-- ---------------------------------------------------------------------------

/-- The references and the slots of the nodes are as before. -/
structure SameRefs (s s' : Isys) : Prop where
  refs : s'.streamsRefCount = s.streamsRefCount
  refCount : s'.refCount = s.refCount
  stream : ∀ i, (s'.av i).stream = (s.av i).stream

theorem SameRefs.refl (s : Isys) : SameRefs s s := ⟨rfl, rfl, fun _ => rfl⟩

theorem SameRefs.trans (h : SameRefs s s') (h' : SameRefs s' s'') : SameRefs s s'' :=
  ⟨h'.refs.trans h.refs, h'.refCount.trans h.refCount, fun i => (h'.stream i).trans (h.stream i)⟩

section
variable {s s' : Isys} {i k : Nat}

theorem setAv_streaming_stream (s : Isys) (i : Nat) (b : Bool) (j : Nat) :
    ((s.setAv i { s.av i with streaming := b }).av j).stream = (s.av j).stream :=
  (update_streaming_same s i b j).1

theorem setCalled_stream (s : Isys) (i : Nat) (called : Bool) (j : Nat) :
    ((s.setCalled i called).av j).stream = (s.av j).stream := by
  by_cases hj : j = i
  · subst hj
    simp [Isys.setCalled, Isys.setAv]
  · simp [Isys.setCalled, Isys.setAv, hj]

theorem sameRefs_setStreaming (s : Isys) (env : SetEnv) (i k : Nat) (state : Bool)
    (bl : Option (List Buffer)) :
    SameRefs s (ipu6IsysVideoSetStreaming s env i k state bl).1 ∧
      (ipu6IsysVideoSetStreaming s env i k state bl).1.streams = s.streams := by
  unfold ipu6IsysVideoSetStreaming
  split
  · exact ⟨.refl s, rfl⟩
  split
  · exact ⟨.refl s, rfl⟩
  split
  · dsimp only
    split
    · exact ⟨⟨rfl, rfl, fun _ => rfl⟩, rfl⟩
    · exact ⟨⟨rfl, rfl, setAv_streaming_stream s i _⟩, rfl⟩
  · dsimp only
    split
    · exact ⟨⟨rfl, rfl, fun _ => rfl⟩, rfl⟩
    split
    · exact ⟨⟨rfl, rfl, fun _ => rfl⟩, rfl⟩
    · exact ⟨⟨rfl, rfl, setAv_streaming_stream s i _⟩, rfl⟩

theorem streamStart_replays (s : Isys) (env : StreamStartEnv) (i k : Nat) (bl : List Buffer)
    (error : Bool) :
    Replays s.fw (streamStartCalls s env i k bl) (ipu6IsysStreamStart s env i k bl error).1.fw ∧
      SameRefs s (ipu6IsysStreamStart s env i k bl error).1 := by
  have hset := replays_setStreaming s env.set i k true (some bl)
  obtain ⟨hrefs, -⟩ := sameRefs_setStreaming s env.set i k true (some bl)
  unfold streamStartCalls ipu6IsysStreamStart
  generalize ipu6IsysVideoSetStreaming s env.set i k true (some bl) = r at hset hrefs ⊢
  obtain ⟨s₁, bl', ret⟩ := r
  dsimp only at hset hrefs ⊢
  by_cases hret : ret = 0
  case neg =>
    simp only [ne_eq, hret, not_false_eq_true, if_true]
    exact ⟨hset.append (.nil rfl rfl), hrefs.refs, hrefs.refCount, hrefs.stream⟩
  simp only [ne_eq, hret, not_true, if_false]
  exact ⟨hset.append (replays_captureLoop env.capture k (s₁.streams k).queues _ 0 s₁.fw s₁.bufs),
    hrefs.refs, hrefs.refCount, hrefs.stream⟩

theorem bufQueueCalls_slot (s : Isys) (env : BufQueueEnv) (b : Buffer) : bufQueueCalls s env b =
    (env.slot s b).elim [] (bufQueueStreamCalls (s.addIncoming b) env b.queue) := by
  simp only [bufQueueCalls, BufQueueEnv.slot, show (s.addIncoming b).av = s.av from rfl]
  cases env.mediaPipe with
  | false => rfl
  | true =>
    cases (s.av b.queue).called with
    | false => rfl
    | true => cases (s.av b.queue).stream <;> rfl

theorem bufQueue_replays (s : Isys) (env : BufQueueEnv) (b : Buffer) :
    Replays s.fw (bufQueueCalls s env b) (bufQueue s env b).fw ∧ SameRefs s (bufQueue s env b) := by
  have hadd : SameRefs s (s.addIncoming b) := ⟨rfl, rfl, fun _ => rfl⟩
  rw [bufQueueCalls_slot, bufQueue_slot]
  cases env.slot s b with
  | none => exact ⟨.nil rfl rfl, hadd⟩
  | some k =>
    dsimp only [Option.elim_some]
    unfold bufQueueStreamCalls bufQueueStream
    dsimp only
    split
    · exact ⟨.nil rfl rfl, hadd⟩
    cases bufferListGet (s.addIncoming b).bufs ((s.addIncoming b).streams k).queues [] with
    | mk q r =>
    cases r with
    | none => exact ⟨.nil rfl rfl, rfl, rfl, fun _ => rfl⟩
    | some bl =>
      dsimp only
      cases env.msg with
      | false => exact ⟨fun refs => rfl, rfl, rfl, fun _ => rfl⟩
      | true =>
        cases ((s.addIncoming b).streams k).streaming with
        | false =>
          obtain ⟨hrep, hrefs⟩ := streamStart_replays { s.addIncoming b with bufs := q } env.start
            b.queue k bl true
          exact ⟨.getMsg true hrep, hrefs.refs, hrefs.refCount, hrefs.stream⟩
        | true => exact ⟨fun refs => rfl, rfl, rfl, fun _ => rfl⟩

theorem cleanup_side (s : Isys) (i : Nat) :
    s.side.calls (cleanupCalls s i) = (ipu6IsysStreamCleanup s i).side := by
  unfold cleanupCalls ipu6IsysStreamCleanup
  cases (s.av i).stream with
  | none => rfl
  | some k =>
    by_cases hk : 0 < s.streamsRefCount k <;>
      simp [Side.calls, Side.call, ipu6IsysPutStream, Isys.side, Isys.setAv, hk]

theorem fwGet_replays (s : Isys) (env : GetEnv) (hinit : env.fwOpen = ipu6FwIsysInit init) :
    Replays s.fw (fwGetCalls s env init) (ipu6IsysFwGet s env).1.fw ∧
      (ipu6IsysFwGet s env).1.streamsRefCount = s.streamsRefCount ∧
      (ipu6IsysFwGet s env).1.av = s.av := by
  unfold fwGetCalls ipu6IsysFwGet
  by_cases hres : env.resume < 0
  · rw [if_pos (.inl hres), if_pos hres]
    exact ⟨.nil rfl rfl, rfl, rfl⟩
  by_cases hcount : s.refCount = 0
  case neg =>
    rw [if_pos (.inr hcount), if_neg hres, if_pos hcount]
    exact ⟨.nil rfl rfl, rfl, rfl⟩
  have hopen := replays_open s.fw init
  rw [← hinit] at hopen
  simp only [hres, hcount, ne_eq, not_true, or_self, if_false]
  split
  · exact ⟨hopen, rfl, rfl⟩
  · exact ⟨hopen, rfl, rfl⟩

theorem fwPut_replays (s : Isys) (ret : Int) :
    Replays s.fw (fwPutCalls s ret) (ipu6IsysFwPut s ret).fw ∧
      (ipu6IsysFwPut s ret).streamsRefCount = s.streamsRefCount ∧ (ipu6IsysFwPut s ret).av = s.av := by
  unfold fwPutCalls ipu6IsysFwPut
  dsimp only
  split
  · exact ⟨.nil rfl rfl, rfl, rfl⟩
  · exact ⟨replays_close s.fw ret, rfl, rfl⟩

theorem outFwClose_side (s : Isys) (env : StartEnv) (i : Nat) (ret : Int) :
    s.side.calls (outFwCloseCalls s env i) = (outFwClose s env i ret).1.side := by
  obtain ⟨hrep, hrefs, hav⟩ := fwPut_replays s env.fwClose
  have hclean := cleanup_side (ipu6IsysFwPut s env.fwClose) i
  rw [outFwCloseCalls, calls_append, hrep.side hrefs]
  unfold cleanupCalls at hclean ⊢
  rw [hav] at hclean
  exact hclean

theorem startJoined_side (s : Isys) (env : StartEnv) (i k : Nat) :
    s.side.calls (startJoinedCalls s env i k) = (startJoined s env i k).1.side := by
  unfold startJoinedCalls startJoined
  dsimp only
  split
  · rfl
  cases bufferListGet s.bufs (s.streams k).queues [] with
  | mk q r =>
  cases r with
  | none => rfl
  | some bl =>
    obtain ⟨hrep, hrefs⟩ := streamStart_replays { s with bufs := q } env.start i k bl false
    dsimp only
    generalize ipu6IsysStreamStart { s with bufs := q } env.start i k bl false = r at hrep hrefs ⊢
    obtain ⟨s₁, ret⟩ := r
    have hside : s.side.calls (streamStartCalls { s with bufs := q } env.start i k bl) = s₁.side :=
      hrep.side (s := { s with bufs := q }) hrefs.refs
    dsimp only
    rw [calls_append, hside]
    split
    · rfl
    · exact outFwClose_side (s₁.setStream k ((s₁.streams k).leave i)) env i ret

theorem startPowered_side (s : Isys) (env : StartEnv) (i k e n : Nat) :
    s.side.calls (startPoweredCalls s env i k e n) =
      (if (prepareFirst s k e n).2 ≠ 0 then
          outFwClose (prepareFirst s k e n).1 env i (prepareFirst s k e n).2
        else startJoined ((prepareFirst s k e n).1.setStream k
          (((prepareFirst s k e n).1.streams k).join i)) env i k).1.side := by
  have hprep : (prepareFirst s k e n).1.side = s.side := by
    unfold prepareFirst ipu6IsysVideoPrepareStream
    split
    · split
      · rfl
      · dsimp only
        split
        · rfl
        · rfl
    · rfl
  unfold startPoweredCalls
  dsimp only
  split
  · rw [← hprep]
    exact outFwClose_side _ env i _
  · rw [← hprep]
    generalize (prepareFirst s k e n).1 = s₁
    exact startJoined_side (s₁.setStream k ((s₁.streams k).join i)) env i k

theorem startStreaming_side (env : StartEnv) (hno : (s.av i).stream = none)
    (hinit : env.get.fwOpen = ipu6FwIsysInit init) :
    s.side.calls (startStreamingCalls s env init i) = (startStreaming s env i).1.side := by
  unfold startStreamingCalls startStreaming
  cases hset : ipu6IsysSetupVideo s env.setup i with
  | mk s₁ r =>
  cases r with
  | error ret =>
    obtain ⟨hsame, -, hfw, -⟩ := setupVideo_error hno hset
    show s.side = ⟨s₁.fw.fwcom, s₁.fw.cmds, s₁.streamsRefCount⟩
    rw [hfw, hsame.refs]
    rfl
  | ok r =>
    obtain ⟨k, e, n⟩ := r
    obtain ⟨hholds, -⟩ := setupVideo_ok hset
    have hget : s.side.call (.getStream k) = s₁.side := by
      simp only [Side.call, Isys.side, hholds.fw, hholds.refs]
    dsimp only
    rw [Side.calls, List.foldl_cons, hget]
    split
    · exact cleanup_side s₁ i
    obtain ⟨hrep, hrefs, hav⟩ := fwGet_replays s₁ env.get hinit
    refine (calls_append s₁.side _ _).trans ?_
    rw [hrep.side hrefs]
    split
    · exact cleanup_side _ i
    · exact startPowered_side _ env i k e n

theorem stopLeave_side (s : Isys) (env : StopEnv) (hst : (s.av i).stream = some k) :
    s.side.calls (.putStream k :: fwPutCalls s env.fwClose) = (stopLeave s env i k).side := by
  have hclean := cleanup_side (s.setStream k { (s.streams k).leave i with streaming := false }) i
  obtain ⟨refs, heq⟩ := cleanup_eq
    (s.setStream k { (s.streams k).leave i with streaming := false }) i
  have hcalls : cleanupCalls (s.setStream k { (s.streams k).leave i with streaming := false }) i =
      [.putStream k] := by
    simp [cleanupCalls, Isys.setStream, hst]
  rw [hcalls] at hclean
  simp only [stopLeave]
  generalize ipu6IsysStreamCleanup _ i = s₁ at hclean heq ⊢
  have hcount : s₁.refCount = s.refCount := heq ▸ rfl
  obtain ⟨hrep, hrefs, -⟩ := fwPut_replays { s₁ with bufs := returnBuffers s₁.bufs i .error } env.fwClose
  have hput := hrep.side hrefs
  rw [← hput, show s.side.calls (.putStream k :: fwPutCalls s env.fwClose) =
    (s.side.calls [.putStream k]).calls (fwPutCalls s env.fwClose) from rfl]
  refine (congrArg (Side.calls · _) hclean).trans ?_
  unfold fwPutCalls
  rw [← hcount]
  rfl

theorem stopStreaming_side (s : Isys) (env : StopEnv) (i : Nat) :
    s.side.calls (stopStreamingCalls s env i) = (stopStreaming s env i).side := by
  unfold stopStreamingCalls stopStreaming
  cases hst : (s.av i).stream with
  | none => rfl
  | some k =>
    dsimp only
    split
    · obtain ⟨hrefs, -⟩ := sameRefs_setStreaming s env.set i k false none
      have hleave := stopLeave_side (ipu6IsysVideoSetStreaming s env.set i k false none).1 env
        ((hrefs.stream i).trans hst)
      rw [calls_append, (replays_setStreaming s env.set i k false none).side hrefs.refs, ← hleave]
      unfold fwPutCalls
      rw [hrefs.refCount]
    · exact stopLeave_side s env hst

theorem restartOpened_side (s : Isys) (env : RestartEnv) (i k : Nat) :
    s.side.calls (setStreamingCalls
        { s with bufs := (bufferListGet s.bufs (s.streams k).queues []).1 } env.start k true
        (bufferListGet s.bufs (s.streams k).queues []).2) = (restartOpened s env i k).1.side := by
  unfold restartOpened
  generalize bufferListGet s.bufs (s.streams k).queues [] = r
  obtain ⟨q, bl⟩ := r
  exact (replays_setStreaming { s with bufs := q } env.start i k true bl).side
    (sameRefs_setStreaming { s with bufs := q } env.start i k true bl).1.refs

theorem restartClosed_side (s : Isys) (env : RestartEnv) (i k : Nat)
    (hinit : env.fwOpen = ipu6FwIsysInit init) :
    s.side.calls (restartClosedCalls s env init k) = (restartClosed s env i k).1.side := by
  have hclose := replays_close s.fw env.fwClose
  unfold restartClosedCalls restartClosed
  by_cases hret : env.fwClose = 0
  case neg =>
    simp only [hret, ipu6FwIsysClose, ne_eq, not_false_eq_true, true_or, if_true] at hclose ⊢
    exact hclose.side rfl
  simp only [hret, ipu6FwIsysClose, ne_eq, not_true, false_or, if_false] at hclose ⊢
  by_cases hreset : env.busReset = 0
  case neg =>
    simp only [hreset, not_false_eq_true, if_true]
    exact hclose.side rfl
  have hopen := hclose.append (replays_open { s.fw with fwcom := false } init)
  have hover : ipu6FwIsysOpen s.fw env.fwOpen =
      ipu6FwIsysOpen { s.fw with fwcom := false } env.fwOpen := by
    cases env.fwOpen <;> rfl
  rw [← hinit] at hopen
  simp only [hreset, hover, not_true, if_false]
  generalize ipu6FwIsysOpen _ env.fwOpen = r at hopen ⊢
  obtain ⟨fw, ret⟩ := r
  refine (calls_append s.side (.fwClose 0 :: openCalls init) _).trans ?_
  have hside : s.side.calls (.fwClose 0 :: openCalls init) = ({ s with fw := fw } : Isys).side :=
    hopen.side rfl
  rw [hside]
  dsimp only
  split
  · rfl
  · exact restartOpened_side { s with fw := fw } env i k

theorem restartStream_side (s : Isys) (env : RestartEnv) (i : Nat)
    (hinit : env.fwOpen = ipu6FwIsysInit init) :
    s.side.calls (restartStreamCalls s env init i) = (restartStream s env i).1.side := by
  unfold restartStreamCalls restartStream
  cases (s.av i).stream with
  | none => rfl
  | some k =>
    dsimp only
    split
    · rfl
    obtain ⟨hrefs, -⟩ := sameRefs_setStreaming s env.stop i k false none
    have hset := (replays_setStreaming s env.stop i k false none).side hrefs.refs
    generalize ipu6IsysVideoSetStreaming s env.stop i k false none = r at hset ⊢
    obtain ⟨s₁, bl, ret⟩ := r
    dsimp only at hset ⊢
    rw [calls_append, hset]
    split
    · rfl
    · exact restartClosed_side s₁ env i k hinit

theorem sameRefs_restartStream (s : Isys) (env : RestartEnv) (i : Nat) :
    SameRefs s (restartStream s env i).1 := by
  unfold restartStream
  cases (s.av i).stream with
  | none => exact .refl s
  | some k =>
    dsimp only
    split
    · exact .refl s
    obtain ⟨hstop, -⟩ := sameRefs_setStreaming s env.stop i k false none
    refine hstop.trans ?_
    generalize ipu6IsysVideoSetStreaming s env.stop i k false none = r
    obtain ⟨s₁, bl, ret⟩ := r
    dsimp only
    split
    · exact .refl s₁
    unfold restartClosed
    dsimp only
    split
    · exact ⟨rfl, rfl, fun _ => rfl⟩
    split
    · exact ⟨rfl, rfl, fun _ => rfl⟩
    split
    · exact ⟨rfl, rfl, fun _ => rfl⟩
    · obtain ⟨hstart, -⟩ := sameRefs_setStreaming { s₁ with
        fw := (ipu6FwIsysOpen (ipu6FwIsysClose s₁.fw env.fwClose).1 env.fwOpen).1
        bufs := (bufferListGet s₁.bufs (s₁.streams k).queues []).1 } env.start i k true
        (bufferListGet s₁.bufs (s₁.streams k).queues []).2
      exact ⟨hstart.refs, hstart.refCount, hstart.stream⟩

theorem side_apply (hw : Wf s) (st : Step) (hok : Allowed s st.op) (hp : st.Proper) :
    s.side.calls (applyCalls s st) = (apply s st.op).side := by
  obtain ⟨op, init⟩ := st
  cases op with
  | queue b env =>
    obtain ⟨hrep, hrefs⟩ := bufQueue_replays s env b
    exact hrep.side hrefs.refs
  | start i env => exact startStreaming_side env (hw.stream_none hok) hp.2
  | stop i env => exact stopStreaming_side s env i
  | restart i env => exact restartStream_side s env i hp
  | ready k pin pinAddr errorCheck =>
    show s.side = (pinDataReady s k pin pinAddr errorCheck).side
    unfold pinDataReady
    split
    · rfl
    split
    · rfl
    · rfl

theorem side_next (hw : Wf s) (st : Step) (hp : st.Proper) :
    s.side.calls (nextCalls s st) = (next s st.op).side := by
  unfold nextCalls next
  split
  next hok => exact side_apply hw st hok hp
  · rfl

end

def runCalls : Isys → List Step → List Call
  | _, [] => []
  | s, st :: sts => nextCalls s st ++ runCalls (next s st.op) sts

end Ipu4.Capture
