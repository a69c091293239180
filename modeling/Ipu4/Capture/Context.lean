import Mathlib.Data.Finset.Card
import Ipu4.Capture.OpenCount
import Ipu4.Capture.Calls

/-!
# No firmware call without a context

`isys->fwcom` is cleared by `ipu6_fw_isys_close` and set by `ipu6_fw_isys_open`.
A node that has a stream counts in `isys->ref_count`, and while that is not zero
the context must be there. The one place that breaks this is a silent reset that
has closed the firmware and does not get it back.
-/

namespace Ipu4.Capture

open Trace Runs

/-- A command and a close need a context. -/
def context : Monitor Side Call where
  next := Side.call
  allows t
    | .cmd _ | .fwClose _ => t.fwcom = true
    | _ => True

instance (t : Side) : (c : Call) → Decidable (context.allows t c)
  | .cmd _ | .fwClose _ => inferInstanceAs (Decidable (t.fwcom = true))
  | .getStream _ | .putStream _ | .fwPrepare _ | .getMsg _ | .putMsg | .cleanupMsgs => .isTrue trivial

def OpenResult.fwcom : OpenResult → Bool
  | .ok => true
  | .error _ fwcom => fwcom

/-- A silent reset that closes the firmware gets a context back. -/
def KeepsContext (s : Isys) : Op → Prop
  | .restart i env => ∀ k, (s.av i).stream = some k → env.stops s k → env.fwClose = 0 →
      env.busReset = 0 ∧ env.fwOpen.fwcom = true
  | _ => True

-- ---------------------------------------------------------------------------
-- `video_open`
-- ---------------------------------------------------------------------------

/-- The first other node that streams is restarted, and never a second one. -/
def restarted (s : Isys) (av : Nat) : Option Nat :=
  (List.range NR_OF_VIDEO_DEVICE).find? fun i =>
    i ≠ av ∧ (s.av i).stream ≠ none ∧ (s.av i).streaming = true

def ipu6IsysQueueRestartStreams (s : Isys) (env : RestartEnv) (av : Nat) : Isys × Int :=
  match restarted s av with
  | none => (s, 0)
  | some i => restartStream s env i

/-- What `video_open` meets: `need_reset` or the module parameter that stands
for it, the module parameter `silent_reset_enable`, the authentication of the
firmware and `v4l2_fh_open`. -/
structure VideoOpenEnv where
  needReset : Bool
  silentReset : Bool
  restart : RestartEnv
  authenticate : Int
  fhOpen : Int

def videoOpen (s : Isys) (env : VideoOpenEnv) (av : Nat) : Isys × Int :=
  let (s, ret) :=
    if env.needReset ∧ env.silentReset then ipu6IsysQueueRestartStreams s env.restart av else (s, 0)
  if env.needReset ∧ (ret ≠ 0 ∨ env.silentReset = false) then (s, - EIO)
  else if env.authenticate ≠ 0 then (s, env.authenticate)
  else (s, env.fhOpen)

/-- What happens to the driver: one of its operations, or an open of node `av`. -/
inductive Act where
  | step (st : Step)
  | videoOpen (av : Nat) (env : VideoOpenEnv) (init : InitEnv)

/-- The operation that an act comes to: an open without a silent reset is none. -/
def Act.asStep (s : Isys) : Act → Option Step
  | .step st => some st
  | .videoOpen av env init =>
    if env.needReset ∧ env.silentReset then
      (restarted s av).map fun i => ⟨.restart i env.restart, init⟩
    else none

def Act.next (s : Isys) : Act → Isys
  | .step st => Capture.next s st.op
  | .videoOpen av env _ => (Capture.videoOpen s env av).1

/-- The calls of an act. -/
def Act.calls (s : Isys) (a : Act) : List Call :=
  match a.asStep s with
  | none => []
  | some st => nextCalls s st

/-- The answers are such as the functions give. -/
def Act.Proper : Act → Prop
  | .step st => st.Proper
  | .videoOpen _ env init => env.restart.fwOpen = ipu6FwIsysInit init

/-- The silent resets of an act get a context back. -/
def Act.KeepsContext (s : Isys) (a : Act) : Prop :=
  ∀ st, a.asStep s = some st → Allowed s st.op → Capture.KeepsContext s st.op

theorem videoOpen_state (s : Isys) (env : VideoOpenEnv) (av : Nat) :
    (videoOpen s env av).1 =
      if env.needReset ∧ env.silentReset then (ipu6IsysQueueRestartStreams s env.restart av).1 else s := by
  have hfst : (videoOpen s env av).1 = (if env.needReset ∧ env.silentReset then
      ipu6IsysQueueRestartStreams s env.restart av else (s, 0)).1 := by
    unfold videoOpen
    generalize (if env.needReset ∧ env.silentReset then
      ipu6IsysQueueRestartStreams s env.restart av else (s, 0)) = r
    dsimp only
    split
    · rfl
    split
    · rfl
    · rfl
  rw [hfst]
  split
  · rfl
  · rfl

theorem restarted_allowed (h : restarted s av = some i) (env : RestartEnv) : Allowed s (.restart i env) := by
  have hi := List.find?_some h
  simp only [decide_eq_true_eq] at hi
  exact hi.2

/-- To the driver's state an open is nothing, or the restart of one node. -/
theorem Act.next_asStep (s : Isys) (a : Act) :
    a.next s = (a.asStep s).elim s fun st => Capture.next s st.op := by
  cases a with
  | step st => rfl
  | videoOpen av env init =>
    simp only [Act.next, Act.asStep, videoOpen_state]
    split
    · unfold ipu6IsysQueueRestartStreams
      cases hres : restarted s av with
      | none => rfl
      | some i =>
        rw [Option.map_some, Option.elim_some, Capture.next, if_pos (restarted_allowed hres env.restart)]
        rfl
    · rfl

theorem videoOpen_asStep (h : (Act.videoOpen av env init).asStep s = some st) :
    ∃ i, st = ⟨.restart i env.restart, init⟩ := by
  simp only [Act.asStep] at h
  split at h
  · obtain ⟨i, -, hst⟩ := Option.map_eq_some_iff.mp h
    exact ⟨i, hst.symm⟩
  · cases h

theorem Act.Proper.asStep (h : Act.Proper a) (hst : a.asStep s = some st) : st.Proper := by
  cases a with
  | step st' =>
    obtain rfl := Option.some.inj hst
    exact h
  | videoOpen av env init =>
    obtain ⟨i, rfl⟩ := videoOpen_asStep hst
    exact h

-- ---------------------------------------------------------------------------
-- Calls that leave the context alone
-- ---------------------------------------------------------------------------

def Call.keepsFwcom : Call → Bool
  | .fwPrepare _ | .fwClose _ => false
  | _ => true

theorem call_fwcom (hc : c.keepsFwcom = true) (t : Side) : (t.call c).fwcom = t.fwcom := by
  cases c with
  | fwPrepare _ => cases hc
  | fwClose _ => cases hc
  | putStream k =>
    simp only [Side.call]
    split
    · rfl
    · rfl
  | _ => rfl

/-- None of the calls is about the context. -/
structure Keeping (cs : List Call) : Prop where
  all : ∀ c ∈ cs, c.keepsFwcom = true

theorem Keeping.clean (hcs : Keeping cs) (ht : Side.fwcom t = true) :
    EndsIn context t cs (·.fwcom = true) := by
  refine EndsIn.of_invariant ht fun t' c ht' hc => ⟨?_, (call_fwcom (hcs.all c hc) t').trans ht'⟩
  cases c with
  | cmd _ => exact ht'
  | fwClose _ => cases hcs.all _ hc
  | _ => exact trivial

section
variable {s s' : Isys} {i k : Nat}

theorem Keeping.nil : Keeping [] := ⟨fun _ h => absurd h List.not_mem_nil⟩

theorem Keeping.cons (hc : Call.keepsFwcom c = true) (h : Keeping cs) : Keeping (c :: cs) :=
  ⟨List.forall_mem_cons.mpr ⟨hc, h.all⟩⟩

theorem Keeping.append (h : Keeping cs) (h' : Keeping cs') : Keeping (cs ++ cs') :=
  ⟨List.forall_mem_append.mpr ⟨h.all, h'.all⟩⟩

theorem Keeping.ite {p : Prop} [Decidable p] (h : Keeping cs) (h' : Keeping cs') :
    Keeping (if p then cs else cs') := by
  split
  · exact h
  · exact h'

theorem keeping_startOpened (env : FwStart) (k : Nat) (frame : Option FrameBuffSet) :
    Keeping (startOpenedCalls env k frame) := by
  refine .cons ?_ (.ite (.cons rfl .nil) .nil)
  cases frame <;> rfl

theorem keeping_startStreamFirmware (fw : Firmware) (env : FwStart) (k : Nat) (queues : List Nat)
    (bl : Option (List Buffer)) : Keeping (startStreamFirmwareCalls fw env k queues bl) := by
  refine .cons rfl (.ite .nil (.ite (.cons rfl .nil) (.cons rfl (.cons rfl (.ite .nil ?_)))))
  unfold openedCalls
  split
  · exact keeping_startOpened env k none
  · exact .cons rfl (.ite .nil (keeping_startOpened env k _))
  · exact .nil

theorem keeping_setStreaming (s : Isys) (env : SetEnv) (k : Nat) (state : Bool)
    (bl : Option (List Buffer)) : Keeping (setStreamingCalls s env k state bl) :=
  .ite .nil (.ite (.cons rfl (.ite .nil (.cons rfl .nil)))
    ((keeping_startStreamFirmware ..).append (.ite (.cons rfl .nil) .nil)))

theorem keeping_captureLoop (env : CaptureEnv) (k : Nat) (queues : List Nat) (n j : Nat)
    (fw : Firmware) (q : Bufs) : Keeping (captureLoopCalls env k queues n j fw q) := by
  induction n generalizing j fw q with
  | zero => exact .nil
  | succ n ih =>
    rw [captureLoopCalls]
    cases bufferListGet q queues [] with
    | mk q₁ r =>
    cases r with
    | none => exact .nil
    | some bl => exact .cons rfl (.ite .nil (.cons rfl (.ite .nil (ih ..))))

theorem keeping_streamStart (s : Isys) (env : StreamStartEnv) (i k : Nat) (bl : List Buffer) :
    Keeping (streamStartCalls s env i k bl) :=
  (keeping_setStreaming ..).append (.ite .nil (keeping_captureLoop ..))

theorem keeping_bufQueue (s : Isys) (env : BufQueueEnv) (b : Buffer) :
    Keeping (bufQueueCalls s env b) := by
  refine .ite .nil ?_
  cases ((s.addIncoming b).av b.queue).stream with
  | none => exact .nil
  | some k =>
    refine .ite .nil ?_
    cases bufferListGet (s.addIncoming b).bufs ((s.addIncoming b).streams k).queues [] with
    | mk q r =>
    cases r with
    | none => exact .nil
    | some bl => exact .cons rfl (.ite .nil (.ite (keeping_streamStart ..) (.cons rfl .nil)))

-- ---------------------------------------------------------------------------
-- The calls of one operation
-- ---------------------------------------------------------------------------

theorem fwPut_clean (ret : Int) (ht : Side.fwcom t = true) :
    EndsIn context t (fwPutCalls s ret) fun t => s.refCount - 1 ≠ 0 → t.fwcom = true := by
  unfold fwPutCalls
  split
  · exact .nil fun _ => ht
  next hcount => exact .cons ht (.nil fun h => absurd h hcount)

theorem cleanup_clean {P : Side → Prop} (hP : ∀ t c, Call.keepsFwcom c = true → P t → P (t.call c))
    (s : Isys) (i : Nat) (ht : P t) : EndsIn context t (cleanupCalls s i) P := by
  unfold cleanupCalls
  cases (s.av i).stream with
  | none => exact .nil ht
  | some k => exact .cons trivial (.nil (hP t (.putStream k) rfl ht))

theorem keeps_imp {p : Prop} (t : Side) (c : Call) (hc : c.keepsFwcom = true)
    (h : p → t.fwcom = true) : p → (t.call c).fwcom = true :=
  fun hp => (call_fwcom hc t).trans (h hp)

theorem outFwClose_clean (env : StartEnv) (i : Nat) (ht : Side.fwcom t = true) :
    EndsIn context t (outFwCloseCalls s env i) fun t => s.refCount - 1 ≠ 0 → t.fwcom = true :=
  (fwPut_clean env.fwClose ht).append fun _ h => cleanup_clean keeps_imp s i h

theorem startJoined_clean (s : Isys) (env : StartEnv) (i k : Nat) (ht : Side.fwcom t = true) :
    EndsIn context t (startJoinedCalls s env i k) fun t =>
      s.refCount - 1 ≠ 0 ∨ (startJoined s env i k).2 = 0 → t.fwcom = true := by
  unfold startJoinedCalls startJoined
  dsimp only
  split
  · exact .nil fun _ => ht
  cases bufferListGet s.bufs (s.streams k).queues [] with
  | mk q r =>
  cases r with
  | none => exact .nil fun _ => ht
  | some bl =>
    obtain ⟨-, hrefs⟩ := streamStart_replays { s with bufs := q } env.start i k bl false
    refine ((keeping_streamStart ..).clean ht).append fun t' ht' => ?_
    dsimp only
    generalize ipu6IsysStreamStart { s with bufs := q } env.start i k bl false = r at hrefs ⊢
    obtain ⟨s₁, ret⟩ := r
    have hcount : s₁.refCount = s.refCount := hrefs.refCount
    dsimp only
    split
    · exact .nil fun _ => ht'
    next hret =>
      refine (outFwClose_clean env i ht').imp fun t'' h hor => h ?_
      rcases hor with hor | hor
      · rwa [hcount]
      · exact absurd hor hret

theorem prepareFirst_refCount (s : Isys) (k e n : Nat) :
    (prepareFirst s k e n).1.refCount = s.refCount := by
  unfold prepareFirst ipu6IsysVideoPrepareStream
  split
  · split
    · rfl
    · dsimp only
      split
      · rfl
      · rfl
  · rfl

theorem startPowered_clean (s : Isys) (env : StartEnv) (i k e n : Nat) (ht : Side.fwcom t = true) :
    EndsIn context t (startPoweredCalls s env i k e n) fun t =>
      s.refCount - 1 ≠ 0 ∨
        (if (prepareFirst s k e n).2 ≠ 0 then
          outFwClose (prepareFirst s k e n).1 env i (prepareFirst s k e n).2
        else startJoined ((prepareFirst s k e n).1.setStream k
          (((prepareFirst s k e n).1.streams k).join i)) env i k).2 = 0 → t.fwcom = true := by
  have hcount := prepareFirst_refCount s k e n
  unfold startPoweredCalls
  generalize prepareFirst s k e n = r at hcount ⊢
  obtain ⟨s₁, ret⟩ := r
  dsimp only at hcount ⊢
  split
  next hret =>
    refine (outFwClose_clean env i ht).imp fun t' h hor => h ?_
    rcases hor with hor | hor
    · rwa [hcount]
    · exact absurd hor hret
  · have hjoin := startJoined_clean (s₁.setStream k ((s₁.streams k).join i)) env i k ht
    rw [← hcount]
    exact hjoin

theorem ipu6FwIsysInit_cases (init : InitEnv) :
    ipu6FwIsysInit init = .ok ∨ ∃ fwcom, ipu6FwIsysInit init = .error (- EIO) fwcom := by
  unfold ipu6FwIsysInit
  split
  · exact .inr ⟨_, rfl⟩
  split
  · exact .inr ⟨_, rfl⟩
  split
  · exact .inr ⟨_, rfl⟩
  · exact .inl rfl

theorem init_clean (init : InitEnv) (t : Side) :
    EndsIn context t (openCalls init) (·.fwcom = (ipu6FwIsysInit init).fwcom) := by
  obtain ⟨prepared, opened, ready, ret⟩ := init
  refine .cons trivial (.cons trivial ?_)
  cases prepared <;> cases opened <;> cases ready
  case true.true.false =>
    refine .cons rfl (.nil ?_)
    by_cases hret : ret = 0 <;> simp [context, Side.call, ipu6FwIsysInit, OpenResult.fwcom, hret]
  all_goals exact .nil rfl

theorem fwGet_clean (env : GetEnv) (hinit : env.fwOpen = ipu6FwIsysInit init)
    (hctx : s.refCount ≠ 0 → Side.fwcom t = true) :
    EndsIn context t (fwGetCalls s env init) fun t =>
      s.refCount ≠ 0 ∨ (ipu6IsysFwGet s env).2 = 0 → t.fwcom = true := by
  unfold fwGetCalls ipu6IsysFwGet
  by_cases hres : env.resume < 0
  · rw [if_pos (.inl hres), if_pos hres]
    refine .nil fun hor => ?_
    rcases hor with hor | hor
    · exact hctx hor
    · exact absurd hor (Int.ne_of_lt hres)
  by_cases hcount : s.refCount = 0
  case neg =>
    rw [if_pos (.inr hcount)]
    exact .nil fun _ => hctx hcount
  rw [if_neg (by simp [hres, hcount]), if_neg hres, if_neg (not_not.mpr hcount), hinit]
  refine (init_clean init t).imp fun t' ht' hor => ?_
  rcases hor with hor | hor
  · exact absurd hcount hor
  · rcases ipu6FwIsysInit_cases init with hok | ⟨fwcom, herr⟩
    · rw [ht', hok]
      rfl
    · rw [herr] at hor
      simp [ipu6FwIsysOpen, EIO] at hor

theorem startStreaming_clean (env : StartEnv) (hinit : env.get.fwOpen = ipu6FwIsysInit init)
    (hctx : s.refCount ≠ 0 → s.fw.fwcom = true) (i : Nat) :
    EndsIn context s.side (startStreamingCalls s env init i) fun t =>
      s.refCount ≠ 0 ∨ (startStreaming s env i).2 = 0 → t.fwcom = true := by
  unfold startStreamingCalls startStreaming
  cases hset : ipu6IsysSetupVideo s env.setup i with
  | mk s₁ r =>
  cases r with
  | error ret =>
    refine .nil fun hor => ?_
    rcases hor with hor | hor
    · exact hctx hor
    · exact absurd hor (Int.ne_of_lt ret.2)
  | ok r =>
    obtain ⟨k, e, n⟩ := r
    obtain ⟨hholds, -⟩ := setupVideo_ok hset
    rw [← hholds.refCount] at hctx ⊢
    dsimp only
    refine .cons trivial ?_
    have ht : s₁.refCount ≠ 0 → (s.side.call (.getStream k)).fwcom = true := hctx
    split
    next hfmt =>
      refine (cleanup_clean keeps_imp s₁ i ht).imp fun t h hor => h ?_
      rcases hor with hor | hor
      · exact hor
      · exact absurd hor hfmt
    refine (fwGet_clean env.get hinit ht).append fun t ht => ?_
    cases hget : ipu6IsysFwGet s₁ env.get with
    | mk s₂ ret =>
    rw [hget] at ht
    dsimp only at ht ⊢
    split
    next hret =>
      refine (cleanup_clean keeps_imp s₂ i ht).imp fun t h hor => h (.inl ?_)
      rcases hor with hor | hor
      · exact hor
      · exact absurd hor hret
    next hret =>
      obtain ⟨fw, rfl, -⟩ := fwGet_ok (not_not.mp hret ▸ hget)
      have hcount : s₁.refCount + 1 - 1 = s₁.refCount := by simp
      have hpow := startPowered_clean { s₁ with fw := fw, refCount := s₁.refCount + 1 } env i k e n
        (ht (.inr (not_not.mp hret)))
      dsimp only at hpow
      rw [hcount] at hpow
      exact hpow

theorem stopStreaming_clean (env : StopEnv) (i : Nat) (ht : s.fw.fwcom = true) :
    EndsIn context s.side (stopStreamingCalls s env i) fun t =>
      s.refCount - 1 ≠ 0 → t.fwcom = true := by
  unfold stopStreamingCalls
  cases (s.av i).stream with
  | none => exact .nil fun _ => ht
  | some k =>
    have hset : Keeping (if (s.streams k).nrStreaming = (s.streams k).nrQueues ∧
        (s.streams k).streaming = true then setStreamingCalls s env.set k false none else []) :=
      .ite (keeping_setStreaming ..) .nil
    refine (hset.clean ht).append fun t' ht' => .cons trivial ?_
    exact fwPut_clean env.fwClose ((call_fwcom rfl t').trans ht')

theorem restartClosed_clean (env : RestartEnv) (k : Nat) (hinit : env.fwOpen = ipu6FwIsysInit init)
    (hkeep : env.fwClose = 0 → env.busReset = 0 ∧ env.fwOpen.fwcom = true)
    (ht : Side.fwcom t = true) :
    EndsIn context t (restartClosedCalls s env init k) (·.fwcom = true) := by
  refine .cons ht ?_
  by_cases hclose : env.fwClose = 0
  case neg =>
    rw [if_pos (.inl hclose)]
    refine .nil ?_
    simp [context, Side.call, hclose, ht]
  obtain ⟨hreset, hopen⟩ := hkeep hclose
  rw [if_neg (by simp [hclose, hreset])]
  refine (init_clean init _).append fun t' ht' => ?_
  rw [← hinit, hopen] at ht'
  have hrest : Keeping (if (ipu6FwIsysOpen s.fw env.fwOpen).2 ≠ 0 then [] else
      setStreamingCalls { s with
        fw := (ipu6FwIsysOpen s.fw env.fwOpen).1
        bufs := (bufferListGet s.bufs (s.streams k).queues []).1 } env.start k true
        (bufferListGet s.bufs (s.streams k).queues []).2) :=
    .ite .nil (keeping_setStreaming ..)
  exact hrest.clean ht'

theorem restartStream_clean (env : RestartEnv) (hinit : env.fwOpen = ipu6FwIsysInit init)
    (hkeep : KeepsContext s (.restart i env)) (ht : s.fw.fwcom = true) :
    EndsIn context s.side (restartStreamCalls s env init i) (·.fwcom = true) := by
  unfold restartStreamCalls
  cases hst : (s.av i).stream with
  | none => exact .nil ht
  | some k =>
    dsimp only
    cases hact : noActiveBuffers s.bufs (s.streams k).queues with
    | false => exact .nil ht
    | true =>
      refine ((keeping_setStreaming s env.stop k false none).clean ht).append fun t' ht' => ?_
      have hoff := setStreaming_off s env.stop i k
      generalize ipu6IsysVideoSetStreaming s env.stop i k false none = r at hoff ⊢
      cases hoff with
      | failed hbad hm hret =>
        dsimp only
        rw [if_pos hret]
        exact .nil ht'
      | closed hsrc hroute hdis =>
        dsimp only
        rw [if_neg (not_not.mpr rfl)]
        exact restartClosed_clean env k hinit (hkeep k hst ⟨hact, hsrc, hroute, hdis⟩) ht'

-- ---------------------------------------------------------------------------
-- Runs
-- ---------------------------------------------------------------------------

/-- The nodes that have a stream. -/
def attached (s : Isys) : Finset Nat :=
  (Finset.range NR_OF_VIDEO_DEVICE).filter fun i => (s.av i).stream ≠ none

/-- `ref_count` counts the nodes with a stream, and with one there is a context. -/
structure Powered (s : Isys) : Prop where
  wf : Wf s
  nodes : ∀ i, (s.av i).stream ≠ none → i < NR_OF_VIDEO_DEVICE
  count : s.refCount = UInt32.ofNat (attached s).card
  opened : s.refCount ≠ 0 → s.fw.fwcom = true

theorem powered_initial : Powered initial where
  wf := wf_initial
  nodes := fun _ h => absurd rfl h
  count := rfl
  opened := fun h => absurd rfl h

theorem card_attached_lt (s : Isys) : (attached s).card + 1 < 2 ^ 32 := by
  have hle := Finset.card_filter_le (Finset.range NR_OF_VIDEO_DEVICE) fun i => (s.av i).stream ≠ none
  rw [Finset.card_range] at hle
  exact Nat.lt_of_le_of_lt (Nat.succ_le_succ hle) (by decide)

theorem Powered.mem (h : Powered s) (hst : (s.av i).stream ≠ none) : i ∈ attached s :=
  Finset.mem_filter.mpr ⟨Finset.mem_range.mpr (h.nodes i hst), hst⟩

theorem Powered.fwcom (h : Powered s) (hst : (s.av i).stream ≠ none) : s.fw.fwcom = true := by
  refine h.opened ?_
  rw [h.count]
  have := card_attached_lt s
  exact ofNat_ne_zero (Finset.card_pos.mpr ⟨i, h.mem hst⟩) (by omega)

theorem Powered.same (h : Powered s) (hw : Wf s') (hrefs : s'.refCount = s.refCount)
    (hst : ∀ i, (s'.av i).stream = (s.av i).stream)
    (hctx : s.refCount ≠ 0 → s'.fw.fwcom = true) : Powered s' where
  wf := hw
  nodes := fun i hi => h.nodes i (hst i ▸ hi)
  count := by
    have hatt : attached s' = attached s := Finset.filter_congr fun i _ => by rw [hst]
    rw [hrefs, h.count, hatt]
  opened := by rwa [hrefs]

theorem Powered.join (h : Powered s) (hw : Wf s') (hi : i < NR_OF_VIDEO_DEVICE)
    (hno : (s.av i).stream = none) (hrefs : s'.refCount = s.refCount + 1)
    (hnew : (s'.av i).stream ≠ none) (hst : ∀ j, j ≠ i → (s'.av j).stream = (s.av j).stream)
    (hctx : s'.fw.fwcom = true) : Powered s' where
  wf := hw
  nodes := fun j hj => by
    by_cases hji : j = i
    · exact hji ▸ hi
    · exact h.nodes j (hst j hji ▸ hj)
  count := by
    have hatt : attached s' = insert i (attached s) := by
      ext j
      by_cases hji : j = i
      · subst hji
        simp [attached, hnew, hi]
      · simp [attached, hst j hji, hji]
    rw [hrefs, h.count, hatt, Finset.card_insert_of_notMem (by simp [attached, hno]),
      UInt32.ofNat_add]
    rfl
  opened := fun _ => hctx

theorem Powered.leave (h : Powered s) (hw : Wf s') (hold : (s.av i).stream ≠ none)
    (hrefs : s'.refCount = s.refCount - 1) (hnone : (s'.av i).stream = none)
    (hst : ∀ j, j ≠ i → (s'.av j).stream = (s.av j).stream)
    (hctx : s.refCount - 1 ≠ 0 → s'.fw.fwcom = true) : Powered s' where
  wf := hw
  nodes := fun j hj => by
    by_cases hji : j = i
    · exact absurd (hji ▸ hnone) hj
    · exact h.nodes j (hst j hji ▸ hj)
  count := by
    have hatt : attached s' = (attached s).erase i := by
      ext j
      by_cases hji : j = i
      · subst hji
        simp [attached, hnone]
      · simp [attached, hst j hji, hji]
    have hcard := Finset.card_erase_add_one (h.mem hold)
    rw [hrefs, h.count, hatt, ← hcard, UInt32.ofNat_add]
    exact UInt32.add_sub_cancel _ 1
  opened := by rwa [hrefs]

theorem StartEnd.refs (h : StartEnd s env i s' ret) :
    (ret ≠ 0 ∧ s'.refCount = s.refCount ∧ ∀ j, (s'.av j).stream = (s.av j).stream) ∨
      (ret = 0 ∧ s'.refCount = s.refCount + 1 ∧ (s'.av i).stream ≠ none ∧
        ∀ j, j ≠ i → (s'.av j).stream = (s.av j).stream) := by
  have hback : ∀ {b}, Unwound s s' i b → s'.refCount = s.refCount ∧
      ∀ j, (s'.av j).stream = (s.av j).stream := fun hun =>
    ⟨hun.refCount, fun j => hun.av ▸ (update_streaming_same s i _ j).1⟩
  have hin : ∀ {k b}, Entered s s' i k b → (s'.av i).stream ≠ none ∧
      ∀ j, j ≠ i → (s'.av j).stream = (s.av j).stream := fun hent =>
    ⟨by simp [hent.av], fun j hj => by rw [hent.av, Function.update_of_ne hj]⟩
  cases h with
  | refused _ hret hun => exact .inl ⟨hret, hback hun⟩
  | unprepared _ _ _ hret hun => exact .inl ⟨hret, hback hun⟩
  | waiting _ _ _ _ _ hent hcount => exact .inr ⟨rfl, hcount, hin hent⟩
  | failed _ _ _ _ hret hun => exact .inl ⟨hret, hback hun⟩
  | lost _ _ _ _ _ hret hun => exact .inl ⟨hret, hback hun⟩
  | started _ _ _ _ _ _ _ hent hcount => exact .inr ⟨rfl, hcount, hin hent⟩

theorem stopStreaming_refCount (env : StopEnv) (hst : (s.av i).stream = some k) :
    (stopStreaming s env i).refCount = s.refCount - 1 := by
  have hleave : ∀ s : Isys, (stopLeave s env i k).refCount = s.refCount - 1 := by
    intro s
    obtain ⟨refs, hclean⟩ := cleanup_eq
      (s.setStream k { (s.streams k).leave i with streaming := false }) i
    simp only [stopLeave, hclean]
    generalize hs₁ : Isys.mk _ _ _ _ _ _ _ _ _ = s₁
    obtain ⟨fw, hput, -⟩ := fwPut_eq s₁ env.fwClose
    rw [hput, ← hs₁]
    rfl
  simp only [stopStreaming, hst]
  split
  · rw [hleave, (sameRefs_setStreaming s env.set i k false none).1.refCount]
  · exact hleave s

theorem fwcom_of_ends (hw : Wf s) (st : Step) (hok : Allowed s st.op) (hp : st.Proper) {p : Prop}
    (hend : EndsIn context s.side (applyCalls s st) fun t => p → t.fwcom = true) :
    Clean context s.side (applyCalls s st) ∧ (p → (apply s st.op).fw.fwcom = true) := by
  have hafter : (s.side.calls (applyCalls s st)).fwcom = (apply s st.op).fw.fwcom :=
    congrArg Side.fwcom (side_apply hw st hok hp)
  exact ⟨hend.1, hafter ▸ hend.2⟩

theorem Powered.next_apply (h : Powered s) (st : Step) (hok : Allowed s st.op) (hp : st.Proper)
    (hkeep : KeepsContext s st.op) :
    Clean context s.side (applyCalls s st) ∧ Powered (apply s st.op) := by
  have hw := h.wf.apply st.op hok
  have hends := @fwcom_of_ends s h.wf st hok hp
  obtain ⟨op, init⟩ := st
  cases op with
  | queue b env =>
    obtain ⟨-, hrefs⟩ := bufQueue_replays s env b
    cases hst : (s.av b.queue).stream with
    | none =>
      have hnone : bufQueueCalls s env b = [] := by
        rw [bufQueueCalls_slot]
        cases hslot : env.slot s b with
        | none => rfl
        | some k => cases hst.symm.trans (BufQueueEnv.slot_stream hslot)
      have hend : EndsIn context s.side (applyCalls s ⟨.queue b env, init⟩) fun t =>
          s.refCount ≠ 0 → t.fwcom = true := by
        show EndsIn context s.side (bufQueueCalls s env b) _
        rw [hnone]
        exact .nil h.opened
      obtain ⟨hclean, hctx⟩ := hends hend
      exact ⟨hclean, h.same hw hrefs.refCount hrefs.stream hctx⟩
    | some k =>
      have hcom : s.side.fwcom = true := h.fwcom (i := b.queue) (by simp [hst])
      obtain ⟨hclean, hctx⟩ := hends (((keeping_bufQueue s env b).clean hcom).imp fun t ht _ => ht)
      exact ⟨hclean, h.same hw hrefs.refCount hrefs.stream fun _ => hctx trivial⟩
  | start i env =>
    obtain ⟨hclean, hctx⟩ := hends (startStreaming_clean env hp.2 h.opened i)
    refine ⟨hclean, ?_⟩
    have hcalled := setCalled_stream (startStreaming s env i).1 i ((startStreaming s env i).2 = 0)
    rcases (h.wf.start_end hok env).refs with ⟨hret, hcount, hst⟩ | ⟨hret, hcount, hnew, hst⟩
    · exact h.same hw hcount (fun j => (hcalled j).trans (hst j)) fun hc => hctx (.inl hc)
    · exact h.join hw hp.1 (h.wf.stream_none hok) hcount (by rwa [← hcalled i] at hnew)
        (fun j hj => (hcalled j).trans (hst j hj)) (hctx (.inr hret))
  | stop i env =>
    obtain ⟨k, hst⟩ := h.wf.slot hok
    have hcom := h.fwcom (i := i) (by simp [hst])
    obtain ⟨hclean, hctx⟩ := hends (stopStreaming_clean env i hcom)
    refine ⟨hclean, ?_⟩
    have hcalled := setCalled_stream (stopStreaming s env i) i false
    have hleave : ∀ b, StopEnd s i k b (stopStreaming s env i) → Powered (apply s (.stop i env)) := by
      intro b hend
      refine h.leave hw (by simp [hst]) (stopStreaming_refCount env hst)
        ((hcalled i).trans (by simp [hend.av])) (fun j hj => ?_) hctx
      refine (hcalled j).trans ?_
      rw [hend.av, Function.update_of_ne hj]
    rcases stopStreaming_end s env hst with ⟨-, -, hend⟩ | ⟨-, -, -, hend⟩
    · exact hleave _ hend
    · exact hleave _ hend
  | restart i env =>
    have hcom := h.fwcom hok.1
    obtain ⟨hclean, hctx⟩ :=
      hends ((restartStream_clean env hp hkeep hcom).imp fun t ht (_ : True) => ht)
    have hrefs := sameRefs_restartStream s env i
    exact ⟨hclean, h.same hw hrefs.refCount hrefs.stream fun _ => hctx trivial⟩
  | ready k pin pinAddr errorCheck =>
    obtain ⟨hclean, hctx⟩ := hends (.nil h.opened)
    obtain ⟨hq, -⟩ := pinDataReady_quiet s k pin pinAddr errorCheck
    exact ⟨hclean, h.same hw hq.refCount (fun j => congrArg Video.stream (congrFun hq.av j)) hctx⟩

theorem Powered.next (h : Powered s) (st : Step) (hp : st.Proper)
    (hkeep : Allowed s st.op → KeepsContext s st.op) :
    Clean context s.side (nextCalls s st) ∧ Powered (next s st.op) := by
  unfold nextCalls Capture.next
  split
  next hok => exact h.next_apply st hok hp (hkeep hok)
  · exact ⟨clean_nil _, h⟩

theorem Powered.act (h : Powered s) (a : Act) (hp : a.Proper) (hkeep : a.KeepsContext s) :
    Clean context s.side (a.calls s) ∧ Powered (a.next s) ∧
      after context s.side (a.calls s) = (a.next s).side := by
  rw [Act.next_asStep]
  unfold Act.calls
  cases hst : a.asStep s with
  | none => exact ⟨clean_nil _, h, rfl⟩
  | some st =>
    obtain ⟨hclean, hnext⟩ := h.next st (hp.asStep hst) (hkeep st hst)
    exact ⟨hclean, hnext, side_next h.wf st (hp.asStep hst)⟩

/-- The calls of a run from `s`. -/
def actCalls : Isys → List Act → List Call
  | _, [] => []
  | s, a :: as => a.calls s ++ actCalls (a.next s) as

theorem Powered.run (h : Powered s) (acts : List Act) (hp : ∀ a ∈ acts, a.Proper)
    (hkeep : ∀ x ∈ visited Act.next s acts, x.2.KeepsContext x.1) :
    Clean context s.side (actCalls s acts) := by
  induction acts generalizing s with
  | nil => exact clean_nil _
  | cons a acts ih =>
    obtain ⟨ha, hacts⟩ := List.forall_mem_cons.mp hp
    rw [visited, List.forall_mem_cons] at hkeep
    obtain ⟨hclean, hnext, hside⟩ := h.act a ha hkeep.1
    refine (clean_append _ _ _).mpr ⟨hclean, ?_⟩
    rw [hside]
    exact ih hnext hacts hkeep.2

end

/-- In every run in which each silent reset that closes the firmware gets a
context back, every command and every close finds a context. -/
theorem fwcom_at_every_call (acts : List Act) (hp : ∀ a ∈ acts, a.Proper)
    (hkeep : ∀ x ∈ visited Act.next initial acts, x.2.KeepsContext x.1) :
    Clean context initial.side (actCalls initial acts) :=
  powered_initial.run acts hp hkeep

/-- A node streams and has got its buffer back. It is reset while another node is opened,
and stopped. -/
def resetActs (busReset : Int) : List Act :=
  let init : InitEnv := ⟨true, true, true, 0⟩
  [.step ⟨.queue ⟨0, 0, 4096⟩ plainQueue, init⟩, .step ⟨.start 0 (plainStart 1), init⟩,
    .step ⟨.ready 0 0 4096 false, init⟩,
    .videoOpen 1 ⟨true, true, ⟨plainSet, 0, busReset, .ok, plainSet⟩, 0, 0⟩ init,
    .step ⟨.stop 0 ⟨plainSet, 0⟩, init⟩]

theorem resetActs_proper (busReset : Int) : ∀ a ∈ resetActs busReset, a.Proper := by
  simp [resetActs, Act.Proper, Step.Proper, plainStart, ipu6FwIsysInit, NR_OF_VIDEO_DEVICE]

/-- The bus reset fails, and the stop then flushes the stream without a context. -/
theorem stop_after_failed_reset_without_context :
    (∀ a ∈ resetActs (-5), a.Proper) ∧
      (∀ x ∈ visited Act.next initial (resetActs (-5)), ∀ st ∈ x.2.asStep x.1, Allowed x.1 st.op) ∧
      ¬ Clean context initial.side (actCalls initial (resetActs (-5))) :=
  ⟨resetActs_proper (-5), by decide +kernel, by decide +kernel⟩

/-- A reset that succeeds. -/
theorem fwcom_at_every_call_reset :
    Clean context initial.side (actCalls initial (resetActs 0)) := by
  refine fwcom_at_every_call (resetActs 0) (resetActs_proper 0) fun x hx st hst _ => ?_
  simp only [resetActs, visited, List.mem_cons, List.not_mem_nil, or_false] at hx
  rcases hx with rfl | rfl | rfl | rfl | rfl
  · obtain rfl := Option.some.inj hst
    trivial
  · obtain rfl := Option.some.inj hst
    trivial
  · obtain rfl := Option.some.inj hst
    trivial
  · obtain ⟨i, rfl⟩ := videoOpen_asStep hst
    exact fun _ _ _ _ => ⟨rfl, rfl⟩
  · obtain rfl := Option.some.inj hst
    trivial

end Ipu4.Capture
