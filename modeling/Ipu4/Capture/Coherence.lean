import Ipu4.Capture.Wf

/-!
# Stream state coherence

Two counters, a list and two flags say how far a stream is. They agree in a run
exactly if no stream with several queues is ever started for real, no node joins
a stream that is complete, and no failure leaves a flag behind that a later start
meets.
-/

namespace Ipu4.Capture

open Runs

/-- The fields of one stream agree with each other and with the flags of its
nodes. -/
structure CoherentAt (st : Stream) (flag : Nat → Bool) : Prop where
  bounds : 0 ≤ st.nrStreaming ∧ (0 < st.nrStreaming → st.nrStreaming ≤ st.nrQueues)
  length : (st.queues.length : Int) = st.nrStreaming
  full : st.streaming = true → st.nrStreaming = st.nrQueues
  flags : ∀ i ∈ st.queues, flag i = true ↔ st.streaming = true

def Coherent (s : Isys) : Prop :=
  ∀ k, CoherentAt (s.streams k) fun i => (s.av i).streaming

/-- The step keeps the fields together: a start joins a stream that is not
complete, with a flag that is off unless the stream starts, and where a stream
starts for real it has one queue and the capture loop does not fail; a restart
that takes the stream down brings it up again. -/
def KeepsCoherent (s : Isys) : Op → Prop
  | .queue b env => ∀ k, env.slot s b = some k → QueueCompletes s b k → env.msg = true →
      (s.streams k).streaming = false → env.result s k = .started → (s.streams k).nrQueues = 1
  | .start i env => ∀ k e, env.slot s i = some (k, e) →
      (s.streams k).nrStreaming + 1 ≤ (env.stream s k e).nrQueues ∧
      (¬ env.completes s i k e → (s.av i).streaming = false) ∧
      (env.completes s i k e → env.result s i k e = .started →
        (env.stream s k e).nrQueues = 1 ∧ ¬ env.loses s i k)
  | .stop .. => True
  | .restart i env => ∀ k, (s.av i).stream = some k → env.stops s k →
      env.reopens ∧ env.result s k = .started
  | .ready .. => True

/-- What is kept besides: a stream that streams has one queue. -/
structure Single (s : Isys) : Prop where
  wf : Wf s
  coherent : Coherent s
  one : ∀ k, (s.streams k).streaming = true → (s.streams k).nrQueues = 1

section
variable {s s' : Isys} {env : StartEnv} {i k e : Nat}

theorem CoherentAt.congr (h : CoherentAt st flag) (hflag : ∀ i ∈ st.queues, flag' i = flag i) :
    CoherentAt st flag' :=
  ⟨h.bounds, h.length, h.full, fun i hi => hflag i hi ▸ h.flags i hi⟩

theorem coherent_update_iff (h : Coherent s)
    (hav : ∀ j, j ≠ i → (s'.av j).streaming = (s.av j).streaming)
    (hi : ∀ k', k' ≠ k → i ∉ (s.streams k').queues)
    (hst : s'.streams = Function.update s.streams k st) :
    Coherent s' ↔ CoherentAt st fun j => (s'.av j).streaming := by
  constructor
  · intro hs
    simpa [hst] using hs k
  · intro hk
    rw [Coherent, hst]
    refine (Function.forall_update_iff _ fun _ st => CoherentAt st _).mpr ⟨hk, fun k' hkk => ?_⟩
    refine (h k').congr fun j hj => hav j ?_
    rintro rfl
    exact hi k' hkk hj

theorem Quiet.coherent (hq : Quiet s s') (h : Coherent s) : Coherent s' := by
  intro k
  rw [hq.streams, hq.av]
  exact h k

theorem Quiet.single (hq : Quiet s s') (h : Single s) : Single s' :=
  ⟨hq.wf h.wf, hq.coherent h.coherent, hq.streams ▸ h.one⟩

theorem Wf.not_mem (h : Wf s) (hno : (s.av i).stream = none) (k : Nat) :
    i ∉ (s.streams k).queues := by
  rw [h.mem, hno]
  simp

theorem Wf.not_mem_other (h : Wf s) (hk : (s.av i).stream = some k) (k' : Nat) (hne : k' ≠ k) :
    i ∉ (s.streams k').queues := by
  rw [h.mem, hk]
  simpa using Ne.symm hne

theorem Single.not_streaming (h : Single s)
    (hnr : (s.streams k).nrStreaming + 1 ≤ (env.stream s k e).nrQueues) :
    (s.streams k).streaming = false := by
  by_contra hs
  rw [Bool.not_eq_false] at hs
  have hone := h.one k hs
  have hfull := (h.coherent k).full hs
  have hne : (s.streams k).nrStreaming ≠ 0 := by omega
  simp only [StartEnv.stream, hne, if_false] at hnr
  omega

-- ---------------------------------------------------------------------------
-- Starting
-- ---------------------------------------------------------------------------

theorem coherentAt_join_iff {st : Stream} (hlen : (st.queues.length : Int) = st.nrStreaming) :
    CoherentAt { st.join i with streaming := c } flag ↔
      st.nrStreaming + 1 ≤ st.nrQueues ∧ (c = true → st.nrStreaming + 1 = st.nrQueues) ∧
        ∀ j ∈ i :: st.queues, flag j = true ↔ c = true := by
  constructor
  · intro h
    exact ⟨h.bounds.2 (show 0 < st.nrStreaming + 1 by omega), h.full, h.flags⟩
  · rintro ⟨hnr, hfull, hflags⟩
    refine ⟨⟨?_, fun _ => hnr⟩, ?_, hfull, hflags⟩
    · show 0 ≤ st.nrStreaming + 1
      omega
    · show ((i :: st.queues).length : Int) = st.nrStreaming + 1
      simp [hlen]

theorem Single.entered_iff (h : Single s) (hno : (s.av i).stream = none)
    (hent : Entered s s' i k b) (hst : s'.streams = Function.update s.streams k
      { (env.stream s k e).join i with streaming := c }) :
    Coherent (s'.setCalled i true) ↔
      (s.streams k).nrStreaming + 1 ≤ (env.stream s k e).nrQueues ∧
        (c = true → (s.streams k).nrStreaming + 1 = (env.stream s k e).nrQueues) ∧
        (b = true ↔ c = true) ∧ ∀ j ∈ (s.streams k).queues, (s.av j).streaming = true ↔ c = true := by
  have hav : ∀ j, ((s'.setCalled i true).av j).streaming = if j = i then b else (s.av j).streaming := by
    intro j
    rw [hent.called_av]
    by_cases hj : j = i
    · subst hj
      simp
    · simp [hj]
  have hout := h.wf.not_mem hno
  rw [coherent_update_iff h.coherent (fun j hj => (hav j).trans (if_neg hj)) (fun k' _ => hout k')
    (show (s'.setCalled i true).streams = _ from hst), coherentAt_join_iff, stream_nrStreaming,
    stream_queues]
  · simp only [hav, List.forall_mem_cons, if_true]
    refine and_congr_right fun _ => and_congr_right fun _ => and_congr_right fun _ =>
      forall₂_congr fun j hj => ?_
    rw [if_neg]
    rintro rfl
    exact hout k hj
  · rw [stream_nrStreaming, stream_queues]
    exact (h.coherent k).length

theorem keepsCoherent_start_iff (hslot : env.slot s i = some (k, e)) :
    KeepsCoherent s (.start i env) ↔
      (s.streams k).nrStreaming + 1 ≤ (env.stream s k e).nrQueues ∧
      (¬ env.completes s i k e → (s.av i).streaming = false) ∧
      (env.completes s i k e → env.result s i k e = .started →
        (env.stream s k e).nrQueues = 1 ∧ ¬ env.loses s i k) :=
  forall_slot_source_iff hslot

theorem Single.unwound (h : Single s) (hc : (s.av i).called = false) (hw : Wf (s'.setCalled i false))
    (hun : Unwound s s' i b) (hst : ∀ k, (s'.streams k).queues = (s.streams k).queues ∧
      (s'.streams k).nrStreaming = (s.streams k).nrStreaming ∧
      (s'.streams k).streaming = (s.streams k).streaming ∧
      ((s.streams k).nrStreaming ≠ 0 → (s'.streams k).nrQueues = (s.streams k).nrQueues)) :
    Single (s'.setCalled i false) := by
  have hno := h.wf.stream_none hc
  have hrun : ∀ k, (s.streams k).streaming = true → (s.streams k).nrStreaming ≠ 0 := by
    intro k hs
    have := (h.coherent k).full hs
    have := h.one k hs
    omega
  refine ⟨hw, fun k => ?_, fun k hs => ?_⟩
  · obtain ⟨hq, hnr, hstr, hnrq⟩ := hst k
    have hk := h.coherent k
    show CoherentAt (s'.streams k) _
    refine ⟨⟨hnr ▸ hk.bounds.1, fun hpos => ?_⟩, hq ▸ hnr ▸ hk.length, fun hs => ?_, fun j hj => ?_⟩
    · rw [hnr] at hpos ⊢
      rw [hnrq (by omega)]
      exact hk.bounds.2 hpos
    · rw [hstr] at hs
      rw [hnr, hnrq (hrun k hs)]
      exact hk.full hs
    · rw [hq] at hj
      have hji : j ≠ i := by
        rintro rfl
        exact h.wf.not_mem hno k hj
      rw [hun.called_av hc, Function.update_of_ne hji, hstr]
      exact hk.flags j hj
  · obtain ⟨-, -, hstr, hnrq⟩ := hst k
    rw [show ((s'.setCalled i false).streams k).streaming = (s.streams k).streaming from hstr] at hs
    exact (hnrq (hrun k hs)).trans (h.one k hs)

theorem Single.queues_nil (h : Single s)
    (hcomp : (s.streams k).nrStreaming + 1 = (env.stream s k e).nrQueues)
    (hone : (env.stream s k e).nrQueues = 1) : (s.streams k).queues = [] :=
  h.wf.first (by omega)

theorem Single.one_update (h : Single s) (hone : st.streaming = true → Stream.nrQueues st = 1) :
    ∀ k', (Function.update s.streams k st k').streaming = true →
      (Function.update s.streams k st k').nrQueues = 1 :=
  (Function.forall_update_iff _ fun _ st => st.streaming = true → Stream.nrQueues st = 1).mpr
    ⟨hone, fun k' _ => h.one k'⟩

theorem Single.join (h : Single s) (hw : Wf (s'.setCalled i true))
    (hs : Coherent (s'.setCalled i true)) (hst : s'.streams = Function.update s.streams k
      { (env.stream s k e).join i with streaming := c })
    (hone : c = true → (env.stream s k e).nrQueues = 1) : Single (s'.setCalled i true) :=
  ⟨hw, hs, show ∀ k', (s'.streams k').streaming = true → (s'.streams k').nrQueues = 1 from
    hst ▸ h.one_update hone⟩

theorem Single.start (h : Single s) (hc : (s.av i).called = false) (env : StartEnv) :
    (KeepsCoherent s (.start i env) → Single (apply s (.start i env))) ∧
      (Coherent (apply s (.start i env)) → KeepsCoherent s (.start i env)) := by
  have hno := h.wf.stream_none hc
  have hend := h.wf.start_end hc env
  have hw := h.wf.start hc env
  simp only [apply] at hw ⊢
  generalize (startStreaming s env i).1 = s', (startStreaming s env i).2 = ret at hend hw
  cases hend with
  | refused hslot hret hun hst =>
    rw [decide_eq_false hret] at hw ⊢
    exact ⟨fun _ => h.unwound hc hw hun fun k => by simp [hst],
      fun _ k e hslot' => by simp [hslot] at hslot'⟩
  | unprepared _ hnr hq => exact absurd (h.wf.first hnr) hq
  | @waiting k e _ hslot _ _ _ hcomp hent _ hst =>
    replace hst : s'.streams = Function.update s.streams k
        { (env.stream s k e).join i with streaming := (s.streams k).streaming } := by
      rw [hst, ← stream_streaming env s k e]
      rfl
    have hiff := h.entered_iff hno hent hst
    rw [keepsCoherent_start_iff hslot]
    constructor
    · rintro ⟨hnr, hflag, -⟩
      have hoff := h.not_streaming hnr
      refine h.join hw (hiff.mpr ⟨hnr, ?_, ?_, (h.coherent k).flags⟩) hst ?_
      · simp [hoff]
      · simp [hoff, hflag hcomp]
      · simp [hoff]
    · intro hs
      obtain ⟨hnr, -, hflag, -⟩ := hiff.mp hs
      refine ⟨hnr, fun _ => ?_, fun hc => absurd hc hcomp⟩
      simpa [h.not_streaming hnr] using hflag
  | @failed k e _ _ hslot hfirst hcomp hres hret hun hst =>
    rw [decide_eq_false hret] at hw ⊢
    rw [keepsCoherent_start_iff hslot]
    refine ⟨fun _ => h.unwound hc hw hun fun k' => ?_,
      fun _ => ⟨hcomp.1.le, fun hc => absurd hcomp hc, fun _ hs => absurd hs hres⟩⟩
    obtain ⟨hstr, hnr, hq⟩ := update_stream_same env s k e k'
    rw [hst]
    refine ⟨hq, hnr, hstr, fun hne => ?_⟩
    by_cases hk : k' = k
    · subst hk
      simp [StartEnv.stream, hne]
    · rw [Function.update_of_ne hk]
  | @lost k e _ _ hslot _ hcomp hres hl hret hun hst =>
    rw [decide_eq_false hret] at hw ⊢
    rw [keepsCoherent_start_iff hslot]
    refine ⟨fun hkeep => absurd hl (hkeep.2.2 hcomp hres).2, fun hs => ?_⟩
    have hfull := (hs k).full
    change (s'.streams k).streaming = true → (s'.streams k).nrStreaming = (s'.streams k).nrQueues
      at hfull
    simp only [hst, Function.update_self, stream_nrStreaming, forall_const] at hfull
    have := hcomp.1
    omega
  | @started k e _ hslot _ _ hfirst hcomp hres hl hent _ hst =>
    have hiff := h.entered_iff hno hent hst
    rw [keepsCoherent_start_iff hslot]
    constructor
    · rintro ⟨hnr, -, hone⟩
      obtain ⟨hone, -⟩ := hone hcomp hres
      refine h.join hw (hiff.mpr ⟨hnr, fun _ => hcomp.1, Iff.rfl, ?_⟩) hst fun _ => hone
      simp [h.queues_nil hcomp.1 hone]
    · intro hs
      obtain ⟨hnr, -, -, hflags⟩ := hiff.mp hs
      refine ⟨hnr, fun hc => absurd hcomp hc, fun _ _ => ⟨?_, hl⟩⟩
      -- the flags of nodes that were there before are off
      have hoff := h.not_streaming hnr
      have hnil : (s.streams k).queues = [] := by
        refine List.eq_nil_iff_forall_not_mem.mpr fun j hj => ?_
        have hon := ((h.coherent k).flags j hj).mp ((hflags j hj).mpr rfl)
        rw [hoff] at hon
        cases hon
      rw [← hcomp.1, h.wf.count, hnil]
      rfl

-- ---------------------------------------------------------------------------
-- Stopping
-- ---------------------------------------------------------------------------

theorem CoherentAt.leave {st : Stream} (h : CoherentAt st flag) (hi : i ∈ st.queues)
    (hnd : st.queues.Nodup) (hone : st.streaming = true → st.nrQueues = 1)
    (hflag : ∀ j, j ≠ i → flag' j = flag j) :
    CoherentAt { st.leave i with streaming := false } flag' := by
  have hlen := h.length
  have hpos := List.length_pos_of_mem hi
  refine ⟨⟨?_, fun h0 => ?_⟩, ?_, fun hs => Bool.noConfusion hs, fun j hj => ?_⟩
  · show 0 ≤ st.nrStreaming - 1
    omega
  · change 0 < st.nrStreaming - 1 at h0
    show st.nrStreaming - 1 ≤ st.nrQueues
    have := h.bounds.2 (by omega)
    omega
  · show ((st.queues.erase i).length : Int) = st.nrStreaming - 1
    rw [List.length_erase_of_mem hi]
    omega
  · obtain ⟨hji, hj⟩ := hnd.mem_erase_iff.mp hj
    have hoff : st.streaming = false := by
      -- a stream that streams has no second node
      by_contra hs
      rw [Bool.not_eq_false] at hs
      have hfull := h.full hs
      have hq := hone hs
      obtain ⟨x, hx⟩ := List.length_eq_one_iff.mp (show st.queues.length = 1 by omega)
      rw [hx, List.mem_singleton] at hi hj
      exact hji (hj.trans hi.symm)
    rw [hflag j hji, h.flags j hj, hoff]

theorem Single.stop (h : Single s) (hc : (s.av i).called = true) (env : StopEnv) :
    Single (apply s (.stop i env)) := by
  obtain ⟨k, hk⟩ := h.wf.slot hc
  have hw := h.wf.stop hc env
  have hleave : ∀ b, StopEnd s i k b (stopStreaming s env i) → Single (apply s (.stop i env)) := by
    intro b hend
    have hst : (apply s (.stop i env)).streams = Function.update s.streams k
      { (s.streams k).leave i with streaming := false } := hend.streams
    have hav : ∀ j, j ≠ i → ((apply s (.stop i env)).av j).streaming = (s.av j).streaming := by
      intro j hj
      show (((stopStreaming s env i).setCalled i false).av j).streaming = _
      simp [Isys.setCalled, Isys.setAv, hend.av, hj]
    refine ⟨hw, (coherent_update_iff h.coherent hav (h.wf.not_mem_other hk) hst).mpr ?_,
      hst ▸ h.one_update fun hs => Bool.noConfusion hs⟩
    exact (h.coherent k).leave ((h.wf.mem i k).mpr hk) (h.wf.nodup k) (h.one k) hav
  rcases stopStreaming_end s env hk with ⟨-, -, hend⟩ | ⟨-, -, -, hend⟩
  · exact hleave _ hend
  · exact hleave _ hend

-- ---------------------------------------------------------------------------
-- Queueing and restarting
-- ---------------------------------------------------------------------------

theorem Single.queue (h : Single s) (hb : b ∉ s.bufs.held) (env : BufQueueEnv) :
    (KeepsCoherent s (.queue b env) → Single (apply s (.queue b env))) ∧
      (Coherent (apply s (.queue b env)) → KeepsCoherent s (.queue b env)) := by
  have hend := h.wf.queue_end hb env
  have hw := h.wf.queue hb env
  change Wf (bufQueue s env b) at hw
  show (_ → Single (bufQueue s env b)) ∧ (Coherent (bufQueue s env b) → _)
  cases hend with
  | added hno hq =>
    exact ⟨fun _ => hq.single h, fun _ k hk hcomp => absurd hcomp (hno k hk)⟩
  | dropped hk _ hmsg hq =>
    exact ⟨fun _ => hq.single h, fun _ _ _ _ hm => by simp [hmsg] at hm⟩
  | captured hk _ _ hstr hq =>
    rw [KeepsCoherent, forall_slot_iff hk]
    exact ⟨fun _ => hq.single h, fun _ _ _ hs => by simp [hstr] at hs⟩
  | failed hk _ _ _ hres hq =>
    rw [KeepsCoherent, forall_slot_iff hk]
    exact ⟨fun _ => hq.single h, fun _ _ _ _ hs => absurd hs hres⟩
  | @started k _ hk hcomp hmsg hstr hres hav hst =>
    have hin := BufQueueEnv.slot_stream hk
    have hmem := (h.wf.mem b.queue k).mpr hin
    have hlen := (h.coherent k).length
    have hnr := hcomp.1
    have hkeep : KeepsCoherent s (.queue b env) ↔ (s.streams k).nrQueues = 1 := by
      rw [KeepsCoherent, forall_slot_iff hk, imp_iff_right hcomp, imp_iff_right hmsg,
        imp_iff_right hstr, imp_iff_right hres]
    have hflag : ∀ j, j ≠ b.queue → ((bufQueue s env b).av j).streaming = (s.av j).streaming := by
      intro j hj
      rw [hav, Function.update_of_ne hj]
    have hiff := coherent_update_iff h.coherent hflag (h.wf.not_mem_other hin) hst
    rw [hkeep]
    constructor
    · intro hone
      obtain ⟨x, hx⟩ := List.length_eq_one_iff.mp
        (show (s.streams k).queues.length = 1 by omega)
      obtain rfl := List.mem_singleton.mp (hx ▸ hmem)
      refine ⟨hw, hiff.mpr ⟨(h.coherent k).bounds, hlen, fun _ => hnr, fun j hj => ?_⟩,
        hst ▸ h.one_update fun _ => hone⟩
      obtain rfl := List.mem_singleton.mp (hx ▸ hj)
      simp [hav]
    · intro hs
      have hflags := (hiff.mp hs).flags
      -- every other node still has its flag off
      have honly : ∀ j ∈ (s.streams k).queues, j = b.queue := by
        intro j hj
        by_contra hne
        have hon := (hflags j hj).mpr rfl
        rw [hflag j hne, (h.coherent k).flags j hj, hstr] at hon
        cases hon
      have hle := (List.subperm_of_subset (h.wf.nodup k) fun j hj =>
        List.mem_singleton.mpr (honly j hj)).length_le
      have hpos := List.length_pos_of_mem hmem
      simp only [List.length_singleton] at hle
      omega

theorem Single.restart (h : Single s) (hk : (s.av i).stream = some k)
    (hon : (s.av i).streaming = true) (env : RestartEnv) :
    (KeepsCoherent s (.restart i env) → Single (apply s (.restart i env))) ∧
      (Coherent (apply s (.restart i env)) → KeepsCoherent s (.restart i env)) := by
  have hmem := (h.wf.mem i k).mpr hk
  have hend := h.wf.restart_end hk env
  have hstr := ((h.coherent k).flags i hmem).mp hon
  rw [KeepsCoherent, forall_slot_iff hk]
  show (_ → Single (restartStream s env i).1) ∧ (Coherent (restartStream s env i).1 → _)
  cases hend with
  | kept hno hq => exact ⟨fun _ => hq.single h, fun _ hs => absurd hs hno⟩
  | closed hs hno hav hst =>
    refine ⟨fun hkeep => absurd (hkeep hs).1 hno, fun hco => ?_⟩
    have hflag := (hco k).flags i (hst ▸ hmem)
    simp [hav, hst, hstr] at hflag
  | restarted hs hr hav hst =>
    constructor
    · intro hkeep
      have hsame : (restartStream s env i).1.av = s.av := by
        rw [hav, decide_eq_true (hkeep hs).2, ← hon]
        exact Function.update_eq_self i s.av
      exact ⟨h.wf.restart hk env, fun k => hst ▸ hsame ▸ h.coherent k, hst ▸ h.one⟩
    · intro hco
      have hflag := (hco k).flags i (hst ▸ hmem)
      simp only [hav, hst, hstr, Function.update_self, decide_eq_true_eq, iff_true] at hflag
      exact fun _ => ⟨hr, hflag⟩

theorem Single.next (h : Single s) (op : Op) :
    ((Allowed s op → KeepsCoherent s op) → Single (next s op)) ∧
      (Coherent (next s op) → Allowed s op → KeepsCoherent s op) := by
  unfold Capture.next
  split
  case isFalse hno => exact ⟨fun _ => h, fun _ hok => absurd hok hno⟩
  case isTrue hok =>
    suffices (KeepsCoherent s op → Single (apply s op)) ∧
        (Coherent (apply s op) → KeepsCoherent s op) from
      ⟨fun hkeep => this.1 (hkeep hok), fun hs _ => this.2 hs⟩
    cases op with
    | queue b env => exact h.queue hok env
    | start i env => exact h.start hok env
    | stop i env => exact ⟨fun _ => h.stop hok env, fun _ => trivial⟩
    | restart i env =>
      obtain ⟨k, hk⟩ := Option.ne_none_iff_exists'.mp hok.1
      exact h.restart hk hok.2 env
    | ready k pin pinAddr errorCheck =>
      exact ⟨fun _ => (pinDataReady_quiet s k pin pinAddr errorCheck).1.single h, fun _ => trivial⟩

theorem single_initial : Single initial where
  wf := wf_initial
  coherent := fun k => ⟨by simp [initial], rfl, by simp [initial], by simp [initial]⟩
  one := by simp [initial]

end

/-- In a run of any calls with any answers, the state of every stream is coherent
after every operation exactly if every operation keeps it so. -/
theorem coherence_iff (ops : List Op) :
    (∀ x ∈ visited next initial ops, Coherent (next x.1 x.2)) ↔
      ∀ x ∈ visited next initial ops, Allowed x.1 x.2 → KeepsCoherent x.1 x.2 :=
  forall_visited_iff (I := Single) (P := fun s op => Coherent (next s op))
    (C := fun s op => Allowed s op → KeepsCoherent s op) single_initial
    (fun _ op h => ⟨(h.next op).2, fun hkeep => ((h.next op).1 hkeep).coherent⟩)
    fun _ op h => (h.next op).1

-- ---------------------------------------------------------------------------
-- A stream with two nodes
-- ---------------------------------------------------------------------------

/-- Two nodes, each with a buffer, on the two routes of one receiver. -/
def twoNodesRun : List Op := [
  .queue ⟨0, 0, 4096⟩ plainQueue,
  .queue ⟨1, 0, 8192⟩ plainQueue,
  .start 0 (plainStart 2),
  .start 1 { plainStart 2 with
    setup := { (plainStart 2).setup with remotePad := .ok (0, 2) } }]

/-- Only the node that is started last has its flag set. -/
theorem second_start_leaves_flag :
    ((run twoNodesRun).streams 0).streaming = true ∧
      ((run twoNodesRun).streams 0).queues = [1, 0] ∧
      ((run twoNodesRun).av 0).streaming = false ∧ ¬ Coherent (run twoNodesRun) := by
  have hstr : ((run twoNodesRun).streams 0).streaming = true := by decide +kernel
  have hq : ((run twoNodesRun).streams 0).queues = [1, 0] := by decide +kernel
  have hflag : ((run twoNodesRun).av 0).streaming = false := by decide +kernel
  refine ⟨hstr, hq, hflag, fun h => ?_⟩
  have := (h 0).flags 0 (by simp [hq])
  simp [hstr, hflag] at this

end Ipu4.Capture
