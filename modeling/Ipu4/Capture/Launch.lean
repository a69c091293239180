import Ipu4.Capture.Calls
import Ipu4.Capture.Slots

/-!
# One slot at a time

An operation sends commands for one slot only, and leaves the virtual channels and
the receivers of the slots alone, apart from the search for a slot. A stream start
that succeeds ends with an opened and started stream.
-/

namespace Ipu4.Capture

/-- The command list, the last one first, has an accepted `STREAM_OPEN` and an accepted
start of stream `h`, and after them nothing but captures. -/
def launched (h : Nat) : List Cmd → Bool
  | [] => false
  | c :: cs =>
    if c.handle = h then
      match c.type with
      | .streamStart | .streamStartAndCapture => c.accepted && stillOpen h cs
      | .streamCapture => launched h cs
      | _ => false
    else launched h cs

def Sent (k : Nat) (fw fw' : Firmware) : Prop :=
  ∃ new, fw'.cmds = new ++ fw.cmds ∧ ∀ c ∈ new, c.handle = k

def OnlyCaptures (k : Nat) (fw fw' : Firmware) : Prop :=
  ∃ new, fw'.cmds = new ++ fw.cmds ∧ ∀ c ∈ new, c.handle = k ∧ c.type = .streamCapture

section
variable {fw fw' fw'' : Firmware} {k h : Nat}

theorem Sent.same (h : fw'.cmds = fw.cmds) : Sent k fw fw' := ⟨[], h, by simp⟩

theorem Sent.cmd (h : fw'.cmds = c :: fw.cmds) (hc : c.handle = k) : Sent k fw fw' :=
  ⟨[c], h, by simpa using hc⟩

theorem Sent.trans (h : Sent k fw fw') (h' : Sent k fw' fw'') : Sent k fw fw'' := by
  obtain ⟨new, hnew, hall⟩ := h
  obtain ⟨new', hnew', hall'⟩ := h'
  refine ⟨new' ++ new, by rw [hnew', hnew, List.append_assoc], fun c hc => ?_⟩
  rcases List.mem_append.mp hc with hc | hc
  · exact hall' c hc
  · exact hall c hc

theorem OnlyCaptures.sent (h : OnlyCaptures k fw fw') : Sent k fw fw' := by
  obtain ⟨new, hnew, hall⟩ := h
  exact ⟨new, hnew, fun c hc => (hall c hc).1⟩

theorem OnlyCaptures.cmd (h : OnlyCaptures k { fw with cmds := c :: fw.cmds } fw') (hc : c.handle = k)
    (htype : c.type = .streamCapture) : OnlyCaptures k fw fw' := by
  obtain ⟨new, hnew, hall⟩ := h
  refine ⟨new ++ [c], by simpa using hnew, fun d hd => ?_⟩
  rcases List.mem_append.mp hd with hd | hd
  · exact hall d hd
  · obtain rfl := List.mem_singleton.mp hd
    exact ⟨hc, htype⟩

theorem Sent.launched (hs : Sent k fw fw') (hne : h ≠ k) : launched h fw'.cmds = launched h fw.cmds := by
  obtain ⟨new, hnew, hall⟩ := hs
  rw [hnew]
  clear hnew
  induction new with
  | nil => rfl
  | cons c new ih =>
    obtain ⟨hc, hall⟩ := List.forall_mem_cons.mp hall
    rw [List.cons_append, Capture.launched, if_neg (by rw [hc]; exact Ne.symm hne)]
    exact ih hall

theorem OnlyCaptures.launched (hs : OnlyCaptures k fw fw') (h : Nat) :
    launched h fw'.cmds = launched h fw.cmds := by
  obtain ⟨new, hnew, hall⟩ := hs
  rw [hnew]
  clear hnew
  induction new with
  | nil => rfl
  | cons c new ih =>
    obtain ⟨⟨-, htype⟩, hall⟩ := List.forall_mem_cons.mp hall
    rw [List.cons_append, Capture.launched, htype]
    split
    · exact ih hall
    · exact ih hall

end

-- ---------------------------------------------------------------------------
-- The firmware
-- ---------------------------------------------------------------------------

theorem sent_startOpened (fw : Firmware) (env : FwStart) (k : Nat) (frame : Option FrameBuffSet) :
    Sent k fw (startOpened fw env k frame).1 ∧
      ((startOpened fw env k frame).2 = 0 → stillOpen k fw.cmds = true →
        launched k (startOpened fw env k frame).1.cmds = true) := by
  obtain ⟨c, hc, htype, haccepted, hsend⟩ : ∃ c : Cmd, c.handle = k ∧
      (c.type = .streamStart ∨ c.type = .streamStartAndCapture) ∧ c.accepted = env.sendStart ∧
      startCmd fw k frame env.sendStart =
        ({ fw with cmds := c :: fw.cmds }, if env.sendStart then 0 else -EBUSY) := by
    cases frame with
    | none => exact ⟨⟨k, .streamStart, .zero, env.sendStart⟩, rfl, .inl rfl, rfl, rfl⟩
    | some frame => exact ⟨⟨k, .streamStartAndCapture, frame, env.sendStart⟩, rfl, .inr rfl, rfl, rfl⟩
  have hstart : Sent k fw { fw with cmds := c :: fw.cmds } := .cmd rfl hc
  have hclose : Sent k fw (outStreamClose { fw with cmds := c :: fw.cmds } env k) :=
    hstart.trans (.cmd (c := ⟨k, .streamClose, .zero, env.sendClose⟩) rfl rfl)
  unfold startOpened
  rw [hsend]
  cases hs : env.sendStart with
  | false => exact ⟨by simpa [EBUSY] using hclose, by simp [EBUSY]⟩
  | true =>
    simp only [if_true, Int.lt_irrefl, if_false]
    cases env.startWait with
    | timeout => exact ⟨hclose, by simp [ETIMEDOUT]⟩
    | error => exact ⟨hclose, by simp [ EIO]⟩
    | done =>
      refine ⟨hstart, fun _ hopen => ?_⟩
      rw [hs] at haccepted
      rcases htype with htype | htype <;> simp [launched, hc, htype, haccepted, hopen]

theorem sent_startStreamFirmware (fw : Firmware) (q : Bufs) (env : FwStart) (k : Nat)
    (queues : List Nat) (bl : Option (List Buffer)) :
    Sent k fw (startStreamFirmware fw q env k queues bl).1 ∧
      ((startStreamFirmware fw q env k queues bl).2.2.2 = 0 →
        launched k (startStreamFirmware fw q env k queues bl).1.cmds = true) := by
  obtain ⟨-, hcmds⟩ := pinCfgs_fwcom env k queues 0 fw
  unfold startStreamFirmware
  cases env.msg with
  | false => exact ⟨.same rfl, by simp [ENOMEM]⟩
  | true =>
    generalize pinCfgs env k queues 0 fw = r at hcmds ⊢
    obtain ⟨fw₁, ret⟩ := r
    dsimp only at hcmds ⊢
    by_cases hret : ret < 0
    · simp only [hret, Bool.not_true, Bool.false_eq_true, if_true, if_false]
      exact ⟨.same hcmds, fun h => absurd h (Int.ne_of_lt hret)⟩
    have hopened : Sent k fw { fw₁ with cmds := ⟨k, .streamOpen, .zero, env.sendOpen⟩ :: fw₁.cmds } :=
      Sent.cmd (congrArg (_ :: ·) hcmds) rfl
    simp only [hret, ipu6FwIsysComplexCmd, Bool.not_true, Bool.false_eq_true, if_false]
    cases hsend : env.sendOpen with
    | false => exact ⟨by simpa [hsend, EBUSY] using hopened, by simp [EBUSY]⟩
    | true =>
      rw [hsend] at hopened
      simp only [if_true, Int.lt_irrefl, if_false]
      generalize hfw₂ : getStreamOpened { fw₁ with cmds := _ } = fw₂
      have hsent : Sent k fw fw₂ := hfw₂ ▸ hopened
      have hstill : stillOpen k fw₂.cmds = true := by simp [← hfw₂, getStreamOpened, stillOpen]
      cases env.openWait with
      | timeout => exact ⟨hsent, by simp [ETIMEDOUT]⟩
      | error => exact ⟨hsent, by simp [ EIO]⟩
      | done =>
        cases bl with
        | none =>
          obtain ⟨hstart, hlaunch⟩ := sent_startOpened fw₂ env k none
          exact ⟨hsent.trans hstart, fun h => hlaunch h hstill⟩
        | some bl =>
          dsimp only
          cases env.frameMsg with
          | false => exact ⟨hsent, by simp [ENOMEM]⟩
          | true =>
            obtain ⟨hstart, hlaunch⟩ := sent_startOpened fw₂ env k (some (ipu6IsysBufToFwFrameBuf fw₂ bl))
            exact ⟨hsent.trans hstart, fun h => hlaunch h hstill⟩

theorem onlyCaptures_captureLoop (env : CaptureEnv) (k : Nat) (queues : List Nat) (n j : Nat)
    (fw : Firmware) (q : Bufs) : OnlyCaptures k fw (captureLoop env k queues n j fw q).1 := by
  induction n generalizing j fw q with
  | zero => exact ⟨[], rfl, by simp⟩
  | succ n ih =>
    rw [captureLoop]
    cases bufferListGet q queues [] with
    | mk q₁ r =>
    cases r with
    | none => exact ⟨[], rfl, by simp⟩
    | some bl =>
      cases env.msg j with
      | false => exact ⟨[], rfl, by simp⟩
      | true =>
        cases hsend : env.send j with
        | false => exact ⟨[_], rfl, by simp⟩
        | true =>
          have hrest := ih (j + 1)
            { fw with cmds := ⟨k, .streamCapture, ipu6IsysBufToFwFrameBuf fw bl, true⟩ :: fw.cmds }
            (ipu6IsysBufferListQueue q₁ .active none bl)
          exact hrest.cmd rfl rfl

-- ---------------------------------------------------------------------------
-- The functions
-- ---------------------------------------------------------------------------

/-- Commands are sent for stream `k` only, and no slot changes hands. -/
structure Stays (k : Nat) (s s' : Isys) : Prop where
  streamsVc : s'.streamsVc = s.streamsVc
  streamsAsd : s'.streamsAsd = s.streamsAsd
  sent : Sent k s.fw s'.fw

section
variable {s s' s'' : Isys} {i k : Nat}

theorem Stays.refl (s : Isys) : Stays k s s := ⟨rfl, rfl, .same rfl⟩

theorem Stays.trans (h : Stays k s s') (h' : Stays k s' s'') : Stays k s s'' :=
  ⟨h'.streamsVc.trans h.streamsVc, h'.streamsAsd.trans h.streamsAsd, h.sent.trans h'.sent⟩

theorem stays_setStreaming (s : Isys) (env : SetEnv) (i k : Nat) (state : Bool)
    (bl : Option (List Buffer)) :
    Stays k s (ipu6IsysVideoSetStreaming s env i k state bl).1 ∧
      (state = true → (ipu6IsysVideoSetStreaming s env i k state bl).2.2 = 0 →
        launched k (ipu6IsysVideoSetStreaming s env i k state bl).1.fw.cmds = true) := by
  unfold ipu6IsysVideoSetStreaming
  split
  · exact ⟨.refl s, fun _ h => by simp [ENODEV] at h⟩
  split
  next hroute => exact ⟨.refl s, fun _ h => absurd h hroute⟩
  cases state with
  | false =>
    have hflush : Sent k s.fw (stopStreamingFirmware s.fw k env.sendFlush) :=
      .cmd (c := ⟨k, .streamFlush, .zero, env.sendFlush⟩) rfl rfl
    simp only [Bool.not_false, if_true]
    split
    · exact ⟨⟨rfl, rfl, hflush⟩, fun h => absurd h Bool.false_ne_true⟩
    · refine ⟨⟨rfl, rfl, hflush.trans ?_⟩, fun h => absurd h Bool.false_ne_true⟩
      refine .cmd (c := ⟨k, .streamClose, .zero, env.sendClose⟩) ?_ rfl
      cases env.sendClose <;> rfl
  | true =>
    obtain ⟨hsent, hlaunch⟩ := sent_startStreamFirmware s.fw s.bufs env.start k (s.streams k).queues bl
    generalize startStreamFirmware s.fw s.bufs env.start k (s.streams k).queues bl = r at hsent hlaunch ⊢
    obtain ⟨fw, q, bl', ret⟩ := r
    simp only [Bool.not_true, Bool.false_eq_true, if_false]
    split
    next hret => exact ⟨⟨rfl, rfl, hsent⟩, fun _ h => absurd h hret⟩
    next hret =>
    split
    next hen =>
      refine ⟨⟨rfl, rfl, hsent.trans ?_⟩, fun _ h => absurd h hen⟩
      exact .cmd (c := ⟨k, .streamFlush, .zero, env.sendFlush⟩) rfl rfl
    · exact ⟨⟨rfl, rfl, hsent⟩, fun _ _ => hlaunch (not_not.mp hret)⟩

theorem stays_streamStart (s : Isys) (env : StreamStartEnv) (i k : Nat) (bl : List Buffer) (error : Bool) :
    Stays k s (ipu6IsysStreamStart s env i k bl error).1 ∧
      ((ipu6IsysStreamStart s env i k bl error).2 = 0 →
        launched k (ipu6IsysStreamStart s env i k bl error).1.fw.cmds = true) := by
  obtain ⟨hset, hlaunch⟩ := stays_setStreaming s env.set i k true (some bl)
  unfold ipu6IsysStreamStart
  generalize ipu6IsysVideoSetStreaming s env.set i k true (some bl) = r at hset hlaunch ⊢
  obtain ⟨s₁, bl', ret⟩ := r
  dsimp only at hset hlaunch ⊢
  split
  next hret => exact ⟨⟨hset.streamsVc, hset.streamsAsd, hset.sent⟩, fun h => absurd h hret⟩
  next hret =>
    have hcap := onlyCaptures_captureLoop env.capture k (s₁.streams k).queues
      (sets s₁.bufs (s₁.streams k).queues) 0 s₁.fw s₁.bufs
    exact ⟨⟨hset.streamsVc, hset.streamsAsd, hset.sent.trans hcap.sent⟩,
      fun _ => (hcap.launched k).trans (hlaunch rfl (not_not.mp hret))⟩

theorem stays_bufQueue (s : Isys) (env : BufQueueEnv) (b : Buffer) :
    ∃ k, Stays k s (bufQueue s env b) ∧
      ((s.streams k).streaming = true → launched k (bufQueue s env b).fw.cmds = launched k s.fw.cmds) := by
  have hadd : ∃ k, Stays k s (s.addIncoming b) ∧
      ((s.streams k).streaming = true → launched k (s.addIncoming b).fw.cmds = launched k s.fw.cmds) :=
    ⟨0, ⟨rfl, rfl, .same rfl⟩, fun _ => rfl⟩
  rw [bufQueue_slot]
  cases env.slot s b with
  | none => exact hadd
  | some k =>
    dsimp only [Option.elim_some]
    unfold bufQueueStream
    dsimp only
    split
    · exact hadd
    split
    · exact ⟨k, ⟨rfl, rfl, .same rfl⟩, fun _ => rfl⟩
    next q bl _ =>
    split
    · exact ⟨k, ⟨rfl, rfl, .same rfl⟩, fun _ => rfl⟩
    split
    next hstr =>
      obtain ⟨hstart, -⟩ := stays_streamStart { s.addIncoming b with bufs := q } env.start b.queue k bl true
      refine ⟨k, ⟨hstart.streamsVc, hstart.streamsAsd, hstart.sent⟩, fun h => ?_⟩
      rw [show (s.addIncoming b).streams = s.streams from rfl, h] at hstr
      cases hstr
    · have hcap : OnlyCaptures k s.fw (ipu6FwIsysComplexCmd s.fw k .streamCapture
          (ipu6IsysBufToFwFrameBuf s.fw bl) env.send).1 := ⟨[_], rfl, by simp⟩
      exact ⟨k, ⟨rfl, rfl, hcap.sent⟩, fun _ => hcap.launched k⟩

theorem stays_cleanup (s : Isys) (i k : Nat) : Stays k s (ipu6IsysStreamCleanup s i) := by
  obtain ⟨refs, hclean⟩ := cleanup_eq s i
  rw [hclean]
  exact ⟨rfl, rfl, .same rfl⟩

theorem stays_fwPut (s : Isys) (k : Nat) (ret : Int) : Stays k s (ipu6IsysFwPut s ret) := by
  obtain ⟨fw, hput, hlog⟩ := fwPut_eq s ret
  rw [hput]
  exact ⟨rfl, rfl, .same hlog.cmds⟩

theorem stays_outPipelineStop (s : Isys) (i k : Nat) (ret : Int) :
    Stays k s (outPipelineStop s i ret).1 := by
  have hclean := stays_cleanup s i k
  exact ⟨hclean.streamsVc, hclean.streamsAsd, hclean.sent⟩

theorem stays_outFwClose (s : Isys) (env : StartEnv) (i k : Nat) (ret : Int) :
    Stays k s (outFwClose s env i ret).1 :=
  (stays_fwPut s k env.fwClose).trans (stays_outPipelineStop _ i k ret)

theorem stays_startJoined (s : Isys) (env : StartEnv) (i k : Nat) :
    Stays k s (startJoined s env i k).1 ∧
      ((startJoined s env i k).2 = 0 → (s.streams k).queues.Nodup →
        (s.streams k).nrStreaming = (s.streams k).nrQueues →
        (∀ j ∈ (s.streams k).queues, s.bufs.incoming j ≠ []) →
        launched k (startJoined s env i k).1.fw.cmds = true) := by
  unfold startJoined
  dsimp only
  split
  next hnr => exact ⟨.refl s, fun _ _ h => absurd h hnr⟩
  cases hget : bufferListGet s.bufs (s.streams k).queues [] with
  | mk q r =>
  cases r with
  | none =>
    refine ⟨⟨rfl, rfl, .same rfl⟩, fun _ hnd _ hall => ?_⟩
    obtain ⟨j, hj, hnil⟩ := bufferListGet_none hnd hget
    exact absurd hnil (hall j hj)
  | some bl =>
    obtain ⟨hstart, hlaunch⟩ := stays_streamStart { s with bufs := q } env.start i k bl false
    dsimp only
    generalize ipu6IsysStreamStart { s with bufs := q } env.start i k bl false = r at hstart hlaunch ⊢
    obtain ⟨s₁, ret⟩ := r
    have hstays : Stays k s s₁ := ⟨hstart.streamsVc, hstart.streamsAsd, hstart.sent⟩
    dsimp only at hlaunch ⊢
    split
    next hret => exact ⟨hstays, fun _ _ _ _ => hlaunch hret⟩
    next hret =>
      have hclose := stays_outFwClose (s₁.setStream k ((s₁.streams k).leave i)) env i k ret
      exact ⟨hstays.trans ⟨hclose.streamsVc, hclose.streamsAsd, hclose.sent⟩, fun h => absurd h hret⟩

theorem stays_stopStreaming (s : Isys) (env : StopEnv) (hst : (s.av i).stream = some k) :
    Stays k s (stopStreaming s env i) := by
  have hleave : ∀ s₁, Stays k s₁ (stopLeave s₁ env i k) := by
    intro s₁
    have hclean := stays_cleanup (s₁.setStream k { (s₁.streams k).leave i with streaming := false }) i k
    unfold stopLeave
    dsimp only
    generalize ipu6IsysStreamCleanup _ i = s₂ at hclean ⊢
    have hput := stays_fwPut { s₂ with bufs := returnBuffers s₂.bufs i .error } k env.fwClose
    exact ⟨hput.streamsVc.trans hclean.streamsVc, hput.streamsAsd.trans hclean.streamsAsd,
      hclean.sent.trans hput.sent⟩
  unfold stopStreaming
  rw [hst]
  dsimp only
  split
  · exact (stays_setStreaming s env.set i k false none).1.trans (hleave _)
  · exact hleave s

theorem stopStreaming_refs (s : Isys) (env : StopEnv) (hst : (s.av i).stream = some k) :
    (stopStreaming s env i).streamsRefCount =
      Function.update s.streamsRefCount k (s.streamsRefCount k - 1) := by
  have hleave : ∀ s₁ : Isys, (s₁.av i).stream = some k → s₁.streamsRefCount = s.streamsRefCount →
      (stopLeave s₁ env i k).streamsRefCount =
        Function.update s.streamsRefCount k (s.streamsRefCount k - 1) := by
    intro s₁ hst₁ hrefs
    have hclean : (ipu6IsysStreamCleanup (s₁.setStream k
        { (s₁.streams k).leave i with streaming := false }) i).streamsRefCount =
          Function.update s.streamsRefCount k (s.streamsRefCount k - 1) := by
      have hst₂ : ((s₁.setStream k { (s₁.streams k).leave i with streaming := false }).av i).stream =
          some k := hst₁
      rw [← hrefs]
      unfold ipu6IsysStreamCleanup ipu6IsysPutStream
      rw [hst₂]
      dsimp only
      split
      · rfl
      next hpos =>
        have hzero : s₁.streamsRefCount k = 0 := Nat.eq_zero_of_not_pos hpos
        rw [hzero, Nat.zero_sub, ← hzero, Function.update_eq_self]
        rfl
    unfold stopLeave
    obtain ⟨fw, hput, -⟩ := fwPut_eq { ipu6IsysStreamCleanup (s₁.setStream k
      { (s₁.streams k).leave i with streaming := false }) i with
        bufs := returnBuffers (ipu6IsysStreamCleanup (s₁.setStream k
          { (s₁.streams k).leave i with streaming := false }) i).bufs i .error } env.fwClose
    dsimp only at hput ⊢
    rw [hput]
    exact hclean
  unfold stopStreaming
  rw [hst]
  dsimp only
  split
  · obtain ⟨hrefs, -⟩ := sameRefs_setStreaming s env.set i k false none
    exact hleave _ ((hrefs.stream i).trans hst) hrefs.refs
  · exact hleave s hst rfl

theorem stays_restartStream (s : Isys) (env : RestartEnv) (hst : (s.av i).stream = some k) :
    Stays k s (restartStream s env i).1 ∧
      ((restartStream s env i).2 = 0 → launched k (restartStream s env i).1.fw.cmds = true) := by
  unfold restartStream
  rw [hst]
  dsimp only
  split
  · exact ⟨.refl s, by simp [ EIO]⟩
  obtain ⟨hoff, -⟩ := stays_setStreaming s env.stop i k false none
  generalize ipu6IsysVideoSetStreaming s env.stop i k false none = r at hoff ⊢
  obtain ⟨s₁, bl, ret⟩ := r
  dsimp only at hoff ⊢
  split
  next hret => exact ⟨hoff, fun h => absurd h hret⟩
  have hclose := fwClose_same s₁.fw env.fwClose
  unfold restartClosed
  generalize ipu6FwIsysClose s₁.fw env.fwClose = r at hclose ⊢
  obtain ⟨fw, ret⟩ := r
  have hclosed : Stays k s { s₁ with fw := fw } :=
    ⟨hoff.streamsVc, hoff.streamsAsd, hoff.sent.trans (.same hclose.cmds)⟩
  dsimp only
  split
  next hret => exact ⟨hclosed, fun h => absurd h hret⟩
  split
  next hreset => exact ⟨hclosed, fun h => absurd h hreset⟩
  have hopen := fwOpen_same fw env.fwOpen
  generalize ipu6FwIsysOpen fw env.fwOpen = r at hopen ⊢
  obtain ⟨fw', ret⟩ := r
  have hopened : Stays k s { s₁ with fw := fw' } :=
    ⟨hoff.streamsVc, hoff.streamsAsd, hclosed.sent.trans (.same hopen.cmds)⟩
  dsimp only
  split
  next hret => exact ⟨hopened, fun h => absurd h hret⟩
  unfold restartOpened
  dsimp only
  generalize bufferListGet s₁.bufs (s₁.streams k).queues [] = r
  obtain ⟨q, bl⟩ := r
  obtain ⟨hon, hlaunch⟩ := stays_setStreaming { s₁ with fw := fw', bufs := q } env.start i k true bl
  exact ⟨hopened.trans ⟨hon.streamsVc, hon.streamsAsd, hon.sent⟩, hlaunch rfl⟩

-- ---------------------------------------------------------------------------
-- The start of a node
-- ---------------------------------------------------------------------------

/-- A slot in use is for the same virtual channel of the same receiver as before. -/
def KeepsUsed (s s' : Isys) : Prop :=
  ∀ k, s.streamsRefCount k ≠ 0 → s'.streamsVc k = s.streamsVc k ∧ s'.streamsAsd k = s.streamsAsd k

theorem Stays.keepsUsed (h : Stays k s s') : KeepsUsed s s' :=
  fun k _ => ⟨congrFun h.streamsVc k, congrFun h.streamsAsd k⟩

/-- Slot `k` is for the channel of the receiver. If it was free, no other one was. -/
structure Finds (s : Isys) (vc asd k : Nat) (s' : Isys) : Prop where
  streamsVc : s'.streamsVc k = vc
  streamsAsd : s'.streamsAsd k = asd
  shared : s.streamsRefCount k ≠ 0 ∨ ∀ k' < IPU4_ISYS_MAX_STREAMS, s.streamsRefCount k' ≠ 0 →
    ¬ (s.streamsVc k' = vc ∧ s.streamsAsd k' = asd)

theorem getStream_finds (h : ipu6IsysGetStream s i asd = (s', r)) :
    KeepsUsed s s' ∧ ∀ k, r = some k → Finds s (s.vc i) asd k s' := by
  have hpool := pool_getStream s (fun _ => 0) i asd
  rw [h] at hpool
  dsimp only at hpool
  have hvc : ∀ p : Pool, p = s'.pool (fun _ => 0) → s'.streamsVc = p.vc ∧ s'.streamsAsd = p.asd := by
    rintro p rfl
    exact ⟨rfl, rfl⟩
  rcases getStream_cases (s.pool fun _ => 0) (s.vc i) asd with
    ⟨k, -, ⟨href, hkvc, hkasd⟩, hget⟩ | ⟨hnone, ⟨k, -, hfree, hget⟩ | ⟨-, hget⟩⟩
  · obtain ⟨hp, hr⟩ := Prod.mk.inj (hget.symm.trans hpool)
    obtain ⟨hvc, hasd⟩ := hvc _ hp
    refine ⟨fun k' _ => by rw [hvc, hasd]; exact ⟨rfl, rfl⟩, fun k' hk' => ?_⟩
    obtain rfl := Option.some.inj (hr.trans hk')
    refine ⟨by rw [hvc]; exact hkvc, by rw [hasd]; exact hkasd, .inl ?_⟩
    simpa [Isys.pool] using href
  · obtain ⟨hp, hr⟩ := Prod.mk.inj (hget.symm.trans hpool)
    obtain ⟨hvc, hasd⟩ := hvc _ hp
    replace hfree : s.streamsRefCount k = 0 := by simpa [Isys.pool] using hfree
    refine ⟨fun k' href => ?_, fun k' hk' => ?_⟩
    · have hne : k' ≠ k := by
        rintro rfl
        exact href hfree
      rw [hvc, hasd]
      exact ⟨Function.update_of_ne hne _ _, Function.update_of_ne hne _ _⟩
    · obtain rfl := Option.some.inj (hr.trans hk')
      refine ⟨by rw [hvc]; exact Function.update_self .., by rw [hasd]; exact Function.update_self ..,
        .inr fun k' hk' href => hnone k' hk' ?_⟩
      simpa [Isys.pool] using href
  · obtain ⟨hp, hr⟩ := Prod.mk.inj (hget.symm.trans hpool)
    obtain ⟨hvc, hasd⟩ := hvc _ hp
    refine ⟨fun k' _ => by rw [hvc, hasd]; exact ⟨rfl, rfl⟩, fun k' hk' => ?_⟩
    rw [← hr] at hk'
    cases hk'

theorem setupVideo_finds (h : ipu6IsysSetupVideo s env i = (s', r)) :
    KeepsUsed s s' ∧ ∀ k e n, r = .ok (k, e, n) → ∃ asd pad vc, env.remotePad = .ok (asd, pad) ∧
      pad ∈ env.routes ∧ env.channel = .ok vc ∧ Finds s vc asd k s' := by
  have hsame : ∀ {s₁ : Isys} {ret : Errno}, (s₁, Except.error ret) = (s', r) →
      s₁.streamsVc = s.streamsVc → s₁.streamsAsd = s.streamsAsd →
      KeepsUsed s s' ∧ ∀ k e n, r = .ok (k, e, n) → ∃ asd pad vc, env.remotePad = .ok (asd, pad) ∧
        pad ∈ env.routes ∧ env.channel = .ok vc ∧ Finds s vc asd k s' := by
    intro s₁ ret h hvc hasd
    obtain ⟨rfl, rfl⟩ := Prod.mk.inj h
    exact ⟨fun k _ => ⟨congrFun hvc k, congrFun hasd k⟩, fun k e n h => nomatch h⟩
  simp only [ipu6IsysSetupVideo] at h
  split at h
  · exact hsame h rfl rfl
  next asd pad hpad =>
  split at h
  · exact hsame h rfl rfl
  split at h
  · exact hsame h rfl rfl
  next hroute =>
  split at h
  · exact hsame h rfl rfl
  next vc hvc =>
  split at h
  · exact hsame h rfl rfl
  split at h
  next hget =>
    obtain rfl := getStream_none hget
    exact hsame h rfl rfl
  next k hget =>
    obtain ⟨hkeeps, hfinds⟩ := getStream_finds hget
    obtain ⟨rfl, rfl⟩ := Prod.mk.inj h
    refine ⟨hkeeps, fun k' e n hk' => ⟨asd, pad, vc, hpad, not_not.mp hroute, hvc, ?_⟩⟩
    obtain ⟨rfl, -⟩ := Prod.mk.inj (Except.ok.inj hk')
    have hfind := hfinds k rfl
    dsimp only at hfind
    rw [Function.update_self] at hfind
    exact ⟨hfind.streamsVc, hfind.streamsAsd, hfind.shared⟩

theorem startStreaming_setup (s : Isys) (env : StartEnv) (i : Nat) :
    (startStreaming s env i).1.streamsVc = (ipu6IsysSetupVideo s env.setup i).1.streamsVc ∧
      (startStreaming s env i).1.streamsAsd = (ipu6IsysSetupVideo s env.setup i).1.streamsAsd := by
  unfold startStreaming
  cases hsetup : ipu6IsysSetupVideo s env.setup i with
  | mk s₁ r =>
  cases r with
  | error ret => exact ⟨rfl, rfl⟩
  | ok t =>
    obtain ⟨k, e, n⟩ := t
    obtain ⟨-, -, rfl, -⟩ := setupVideo_ok hsetup
    have hstop : ∀ {s₂ : Isys} (ret : Int), Stays k s₁ s₂ →
        (outPipelineStop s₂ i ret).1.streamsVc = s₁.streamsVc ∧
          (outPipelineStop s₂ i ret).1.streamsAsd = s₁.streamsAsd := by
      intro s₂ ret h
      have hend := h.trans (stays_outPipelineStop s₂ i k ret)
      exact ⟨hend.streamsVc, hend.streamsAsd⟩
    dsimp only
    split
    · exact hstop _ (.refl s₁)
    cases hget : ipu6IsysFwGet s₁ env.get with
    | mk s₂ ret =>
    have hpowered : Stays k s₁ s₂ := by
      by_cases hret : ret = 0
      · obtain ⟨fw, rfl, hlog⟩ := fwGet_ok (hret ▸ hget)
        exact ⟨rfl, rfl, .same hlog.cmds⟩
      · obtain ⟨fw, rfl, hlog⟩ := fwGet_error hget hret
        exact ⟨rfl, rfl, .same hlog.cmds⟩
    dsimp only
    split
    · exact hstop _ hpowered
    obtain ⟨streams, ret', hprep, -⟩ := prepareFirst_spec s₂ env k e
    rw [hprep]
    have hprepared : Stays k s₁ { s₂ with streams := streams } :=
      ⟨hpowered.streamsVc, hpowered.streamsAsd, hpowered.sent⟩
    dsimp only
    split
    · have hend := hprepared.trans (stays_outFwClose _ env i k ret')
      exact ⟨hend.streamsVc, hend.streamsAsd⟩
    · obtain ⟨hjoin, -⟩ := stays_startJoined (({ s₂ with streams := streams } : Isys).setStream k
        ((streams k).join i)) env i k
      exact ⟨hjoin.streamsVc.trans hprepared.streamsVc, hjoin.streamsAsd.trans hprepared.streamsAsd⟩

theorem startStreaming_keepsUsed (s : Isys) (env : StartEnv) (i : Nat) :
    KeepsUsed s (startStreaming s env i).1 := by
  obtain ⟨hvc, hasd⟩ := startStreaming_setup s env i
  intro k href
  rw [hvc, hasd]
  exact (setupVideo_finds rfl).1 k href

theorem startStreaming_finds (hslot : env.slot s i = some (k, e)) :
    ∃ asd pad vc, env.setup.remotePad = .ok (asd, pad) ∧ pad ∈ env.setup.routes ∧
      env.setup.channel = .ok vc ∧ Finds s vc asd k (startStreaming s env i).1 := by
  obtain ⟨hvc, hasd⟩ := startStreaming_setup s env i
  unfold StartEnv.slot at hslot
  split at hslot
  · cases hslot
  next s₁ k' e' n hsetup =>
    split at hslot
    case isFalse => cases hslot
    obtain ⟨rfl, rfl⟩ := Prod.mk.inj (Option.some.inj hslot)
    obtain ⟨asd, pad, vc, hpad, hroute, hchannel, hfind⟩ := (setupVideo_finds hsetup).2 k' e' n rfl
    rw [hsetup] at hvc hasd
    refine ⟨asd, pad, vc, hpad, hroute, hchannel, ?_, ?_, hfind.shared⟩
    · rw [hvc]
      exact hfind.streamsVc
    · rw [hasd]
      exact hfind.streamsAsd

theorem Joined.sent (h : Joined s env i k e s₁) : Sent k s.fw (startJoined s₁ env i k).1.fw :=
  (Sent.same h.log.cmds).trans (stays_startJoined s₁ env i k).1.sent

theorem startStreaming_sent (hno : (s.av i).stream = none) (hslot : env.slot s i = some (k, e)) :
    Sent k s.fw (startStreaming s env i).1.fw := by
  rcases startStreaming_joins env hno with ⟨-, hlog, -⟩ | ⟨k', e', s₁, hjoined, heq⟩
  · exact .same hlog.cmds
  · obtain ⟨rfl, rfl⟩ := Prod.mk.inj (Option.some.inj (hslot.symm.trans hjoined.slot))
    rw [heq]
    exact hjoined.sent

theorem startStreaming_launched (hno : (s.av i).stream = none)
    (hnd : (i :: (s.streams k).queues).Nodup) (hslot : env.slot s i = some (k, e))
    (hcomp : env.completes s i k e) (hret : (startStreaming s env i).2 = 0) :
    launched k (startStreaming s env i).1.fw.cmds = true := by
  rcases startStreaming_joins env hno with ⟨hfail, -, -⟩ | ⟨k', e', s₁, hjoined, heq⟩
  · exact absurd hret hfail
  · obtain ⟨rfl, rfl⟩ := Prod.mk.inj (Option.some.inj (hslot.symm.trans hjoined.slot))
    rw [heq] at hret ⊢
    refine (stays_startJoined s₁ env i k).2 hret ?_ ?_ ?_
    · rw [hjoined.queues]
      exact hnd
    · rw [hjoined.nrStreaming, hjoined.stream]
      exact hcomp.1
    · rw [hjoined.queues, hjoined.bufs]
      exact hcomp.2

end

end Ipu4.Capture
