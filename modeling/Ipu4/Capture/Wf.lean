import Ipu4.Capture.Ops

/-!
# What every run keeps

Whatever the kernel and the firmware answer, a node is in the queue list of the
slot it points to and nowhere else, and `nr_streaming` is the length of that
list. This is the ground on which the results about whole runs stand.
-/

namespace Ipu4.Capture

open Runs

structure Wf (s : Isys) : Prop where
  nodup : ∀ k, (s.streams k).queues.Nodup
  mem : ∀ i k, i ∈ (s.streams k).queues ↔ (s.av i).stream = some k
  called : ∀ i, (s.av i).called = true ↔ (s.av i).stream ≠ none
  count : ∀ k, (s.streams k).nrStreaming = (s.streams k).queues.length
  ready : ∀ k, (s.streams k).queues ≠ [] →
    (s.streams k).sourceEntity ≠ none ∧ 1 ≤ (s.streams k).nrQueues

theorem wf_initial : Wf initial where
  nodup := fun _ => .nil
  mem := by simp [initial]
  called := by simp [initial]
  count := fun _ => rfl
  ready := fun _ h => absurd rfl h

section
variable {s s' : Isys} {env : StartEnv} {i k e : Nat}

theorem Wf.stream_none (h : Wf s) (hi : (s.av i).called = false) : (s.av i).stream = none := by
  by_contra hne
  rw [(h.called i).mpr hne] at hi
  cases hi

theorem Wf.nodup_cons (h : Wf s) (hno : (s.av i).stream = none) (k : Nat) :
    (i :: (s.streams k).queues).Nodup := by
  refine List.nodup_cons.mpr ⟨fun hmem => ?_, h.nodup k⟩
  rw [(h.mem i k).mp hmem] at hno
  cases hno

theorem Wf.first (h : Wf s) (hnr : (s.streams k).nrStreaming = 0) : (s.streams k).queues = [] := by
  rw [h.count k] at hnr
  exact List.length_eq_zero_iff.mp (by omega)

theorem Wf.slot (h : Wf s) (hc : (s.av i).called = true) : ∃ k, (s.av i).stream = some k :=
  Option.ne_none_iff_exists'.mp ((h.called i).mp hc)

theorem Wf.queues_ne_nil (h : Wf s) (hst : (s.av i).stream = some k) : (s.streams k).queues ≠ [] :=
  List.ne_nil_of_mem ((h.mem i k).mpr hst)

theorem Wf.start_end (h : Wf s) (hc : (s.av i).called = false) (env : StartEnv) :
    StartEnd s env i (startStreaming s env i).1 (startStreaming s env i).2 :=
  startStreaming_end env (h.stream_none hc) (h.nodup_cons (h.stream_none hc))

theorem Wf.queue_end (h : Wf s) (hb : b ∉ s.bufs.held) (env : BufQueueEnv) :
    QueueEnd s env b (bufQueue s env b) :=
  bufQueue_end env hb h.nodup fun k => (h.mem b.queue k).mpr

theorem Wf.restart_end (h : Wf s) (hst : (s.av i).stream = some k) (env : RestartEnv) :
    RestartEnd s env i k (restartStream s env i).1 :=
  restartStream_end env hst (h.nodup k) (h.queues_ne_nil hst)

/-- The fields of a stream that the invariant reads, for streams with nodes. -/
structure SameQueues (st st' : Stream) : Prop where
  queues : st'.queues = st.queues
  nrStreaming : st'.nrStreaming = st.nrStreaming
  ready : st.queues ≠ [] → st'.sourceEntity = st.sourceEntity ∧ st'.nrQueues = st.nrQueues

theorem SameQueues.refl (st : Stream) : SameQueues st st := ⟨rfl, rfl, fun _ => ⟨rfl, rfl⟩⟩

theorem Wf.keep (h : Wf s)
    (hav : ∀ j, (s'.av j).stream = (s.av j).stream ∧ (s'.av j).called = (s.av j).called)
    (hst : ∀ k, SameQueues (s.streams k) (s'.streams k)) : Wf s' where
  nodup := fun k => (hst k).queues ▸ h.nodup k
  mem := fun i k => by rw [(hst k).queues, (hav i).1, h.mem]
  called := fun i => by rw [(hav i).1, (hav i).2, h.called]
  count := fun k => by rw [(hst k).nrStreaming, (hst k).queues, h.count]
  ready := fun k hq => by
    rw [(hst k).queues] at hq
    rw [((hst k).ready hq).1, ((hst k).ready hq).2]
    exact h.ready k hq

theorem Wf.join (h : Wf s) (hno : (s.av i).stream = none)
    (hav : s'.av = Function.update s.av i ⟨some k, b, true⟩)
    (hother : ∀ k', k' ≠ k → s'.streams k' = s.streams k')
    (hq : (s'.streams k).queues = i :: (s.streams k).queues)
    (hnr : (s'.streams k).nrStreaming = (s.streams k).nrStreaming + 1)
    (hready : (s'.streams k).sourceEntity ≠ none ∧ 1 ≤ (s'.streams k).nrQueues) : Wf s' where
  nodup := fun k' => by
    by_cases hk : k' = k
    · subst hk
      rw [hq]
      exact h.nodup_cons hno k'
    · exact hother k' hk ▸ h.nodup k'
  mem := fun j k' => by
    have hmem := h.mem j k'
    by_cases hj : j = i
    · subst hj
      rw [hav, Function.update_self]
      by_cases hk : k' = k
      · subst hk
        simp [hq]
      · rw [hother k' hk, hmem, hno]
        simp [Ne.symm hk]
    · rw [hav, Function.update_of_ne hj, ← hmem]
      by_cases hk : k' = k
      · subst hk
        simp [hq, hj]
      · rw [hother k' hk]
  called := fun j => by
    by_cases hj : j = i
    · subst hj
      simp [hav]
    · rw [hav, Function.update_of_ne hj]
      exact h.called j
  count := fun k' => by
    by_cases hk : k' = k
    · subst hk
      rw [hnr, hq, h.count, List.length_cons]
      rfl
    · rw [hother k' hk, h.count]
  ready := fun k' hne => by
    by_cases hk : k' = k
    · exact hk ▸ hready
    · rw [hother k' hk] at hne ⊢
      exact h.ready k' hne

theorem Wf.leave (h : Wf s) (hin : (s.av i).stream = some k)
    (hav : s'.av = Function.update s.av i ⟨none, b, false⟩)
    (hst : s'.streams = Function.update s.streams k { (s.streams k).leave i with streaming := c }) :
    Wf s' where
  nodup := fun k' => by
    by_cases hk : k' = k
    · subst hk
      rw [hst, Function.update_self]
      exact (h.nodup k').erase i
    · rw [hst, Function.update_of_ne hk]
      exact h.nodup k'
  mem := fun j k' => by
    have hmem := h.mem j k'
    by_cases hk : k' = k
    · subst hk
      rw [hst, Function.update_self]
      show j ∈ (s.streams k').queues.erase i ↔ _
      rw [(h.nodup k').mem_erase_iff, hmem, hav]
      by_cases hj : j = i
      · simp [hj]
      · simp [hj]
    · rw [hst, Function.update_of_ne hk, hmem, hav]
      by_cases hj : j = i
      · subst hj
        simp [hin, Ne.symm hk]
      · rw [Function.update_of_ne hj]
  called := fun j => by
    by_cases hj : j = i
    · subst hj
      simp [hav]
    · rw [hav, Function.update_of_ne hj]
      exact h.called j
  count := fun k' => by
    by_cases hk : k' = k
    · subst hk
      rw [hst, Function.update_self]
      show (s.streams k').nrStreaming - 1 = ((s.streams k').queues.erase i).length
      have hmem := (h.mem i k').mpr hin
      have := List.length_pos_of_mem hmem
      rw [List.length_erase_of_mem hmem, h.count]
      omega
    · rw [hst, Function.update_of_ne hk, h.count]
  ready := fun k' hne => by
    by_cases hk : k' = k
    · subst hk
      rw [hst, Function.update_self]
      exact h.ready k' (List.ne_nil_of_mem ((h.mem i k').mpr hin))
    · rw [hst, Function.update_of_ne hk] at hne ⊢
      exact h.ready k' hne

-- ---------------------------------------------------------------------------
-- One step
-- ---------------------------------------------------------------------------

theorem Unwound.called_av (h : Unwound s s' i b) (hc : (s.av i).called = false) :
    (s'.setCalled i false).av = Function.update s.av i { s.av i with streaming := b } := by
  show Function.update s'.av i { s'.av i with called := false } = _
  rw [h.av, Function.update_idem, Function.update_self]
  simp only [hc]

theorem Entered.called_av (h : Entered s s' i k b) :
    (s'.setCalled i true).av = Function.update s.av i ⟨some k, b, true⟩ := by
  show Function.update s'.av i { s'.av i with called := true } = _
  rw [h.av, Function.update_idem, Function.update_self]

theorem update_streaming_same (s : Isys) (i : Nat) (b : Bool) (j : Nat) :
    (Function.update s.av i { s.av i with streaming := b } j).stream = (s.av j).stream ∧
      (Function.update s.av i { s.av i with streaming := b } j).called = (s.av j).called := by
  by_cases hj : j = i
  · subst hj
    simp
  · simp [hj]

theorem stream_same (h : (s.streams k).nrStreaming = 0 → (s.streams k).queues = []) :
    SameQueues (s.streams k) (env.stream s k e) where
  queues := stream_queues env s k e
  nrStreaming := stream_nrStreaming env s k e
  ready := fun hq => by
    have hnr := mt h hq
    simp [StartEnv.stream, hnr]

theorem SameQueues.streaming (h : SameQueues st st') (b : Bool) :
    SameQueues st { st' with streaming := b } :=
  ⟨h.queues, h.nrStreaming, h.ready⟩

theorem Wf.stream_ready (h : Wf s) (hroutes : 0 < env.setup.routes.length) :
    (env.stream s k e).sourceEntity ≠ none ∧ 1 ≤ (env.stream s k e).nrQueues := by
  simp only [StartEnv.stream]
  split
  · refine ⟨by simp, ?_⟩
    show (1 : Int) ≤ env.setup.routes.length
    omega
  next hnr =>
    refine h.ready k fun hq => hnr ?_
    rw [h.count, hq]
    rfl

theorem sameQueues_update (hst : SameQueues (s.streams k) st) (k' : Nat) :
    SameQueues (s.streams k') (Function.update s.streams k st k') := by
  revert k'
  exact (Function.forall_update_iff _ fun k' => SameQueues (s.streams k')).mpr
    ⟨hst, fun k' _ => .refl _⟩

theorem Wf.entered (h : Wf s) (hno : (s.av i).stream = none)
    (hroutes : 0 < env.setup.routes.length) (hent : Entered s s' i k b)
    (hst : s'.streams = Function.update s.streams k
      { (env.stream s k e).join i with streaming := c }) : Wf (s'.setCalled i true) := by
  refine h.join hno hent.called_av (fun k' hk => ?_) ?_ ?_ ?_
  all_goals simp only [Isys.setCalled, Isys.setAv, hst]
  · exact Function.update_of_ne hk _ _
  · rw [Function.update_self, ← stream_queues env s k e]
    rfl
  · rw [Function.update_self, ← stream_nrStreaming env s k e]
    rfl
  · rw [Function.update_self]
    exact h.stream_ready hroutes

theorem Wf.start (h : Wf s) (hc : (s.av i).called = false) (env : StartEnv) :
    Wf (apply s (.start i env)) := by
  have hno := h.stream_none hc
  have hend := h.start_end hc env
  simp only [apply]
  generalize (startStreaming s env i).1 = s', (startStreaming s env i).2 = ret at hend
  have hback : ∀ b, Unwound s s' i b → ∀ j, ((s'.setCalled i false).av j).stream = (s.av j).stream ∧
      ((s'.setCalled i false).av j).called = (s.av j).called := by
    intro b hun j
    rw [hun.called_av hc]
    exact update_streaming_same s i b j
  cases hend with
  | refused _ hret hun hst =>
    rw [decide_eq_false hret]
    exact h.keep (hback _ hun) fun k => (congrFun hst k) ▸ .refl _
  | unprepared _ hnr hq => exact absurd (h.first hnr) hq
  | waiting _ _ hroutes _ _ hent _ hst => exact h.entered hno hroutes hent hst
  | failed _ hfirst _ _ hret hun hst =>
    rw [decide_eq_false hret]
    exact h.keep (hback _ hun) fun k' => (congrFun hst k') ▸ sameQueues_update (stream_same hfirst) k'
  | lost _ hfirst _ _ _ hret hun hst =>
    rw [decide_eq_false hret]
    exact h.keep (hback _ hun) fun k' => (congrFun hst k') ▸
      sameQueues_update ((stream_same hfirst).streaming true) k'
  | started _ _ hroutes _ _ _ _ hent _ hst => exact h.entered hno hroutes hent hst

theorem Wf.stop (h : Wf s) (hc : (s.av i).called = true) (env : StopEnv) :
    Wf (apply s (.stop i env)) := by
  obtain ⟨k, hk⟩ := h.slot hc
  have hleave : ∀ b, StopEnd s i k b (stopStreaming s env i) → Wf (apply s (.stop i env)) := by
    intro b hend
    refine h.leave hk ?_ hend.streams (b := b)
    show Function.update _ i _ = _
    rw [hend.av, Function.update_idem, Function.update_self]
  rcases stopStreaming_end s env hk with ⟨-, -, hend⟩ | ⟨-, -, -, hend⟩
  · exact hleave _ hend
  · exact hleave _ hend

theorem Wf.quiet (h : Wf s) (hav : s'.av = Function.update s.av i { s.av i with streaming := b })
    (hst : ∀ k, SameQueues (s.streams k) (s'.streams k)) : Wf s' :=
  h.keep (fun j => hav ▸ update_streaming_same s i b j) hst

theorem Quiet.wf (hq : Quiet s s') (h : Wf s) : Wf s' :=
  h.keep (fun _ => hq.av ▸ ⟨rfl, rfl⟩) fun _ => hq.streams ▸ .refl _

theorem Wf.queue (h : Wf s) (hb : b ∉ s.bufs.held) (env : BufQueueEnv) :
    Wf (apply s (.queue b env)) := by
  have hend := h.queue_end hb env
  show Wf (bufQueue s env b)
  cases hend with
  | added _ hq => exact hq.wf h
  | dropped _ _ _ hq => exact hq.wf h
  | captured _ _ _ _ hq => exact hq.wf h
  | failed _ _ _ _ _ hq => exact hq.wf h
  | started _ _ _ _ _ hav hst =>
    exact h.quiet hav fun k' => hst ▸ sameQueues_update ((SameQueues.refl _).streaming true) k'

theorem Wf.restart (h : Wf s) (hst : (s.av i).stream = some k) (env : RestartEnv) :
    Wf (apply s (.restart i env)) := by
  have hend := h.restart_end hst env
  show Wf (restartStream s env i).1
  cases hend with
  | kept _ hq => exact hq.wf h
  | closed _ _ hav hst => exact h.quiet hav fun _ => hst ▸ .refl _
  | restarted _ _ hav hst => exact h.quiet hav fun _ => hst ▸ .refl _

theorem pinDataReady_quiet (s : Isys) (k pin pinAddr : Nat) (errorCheck : Bool) :
    Quiet s (pinDataReady s k pin pinAddr errorCheck) ∧
      (pinDataReady s k pin pinAddr errorCheck).fw = s.fw ∧
      (Accounted s.bufs [] → Accounted (pinDataReady s k pin pinAddr errorCheck).bufs []) := by
  unfold pinDataReady
  split
  · exact ⟨.refl s, rfl, id⟩
  · split
    · exact ⟨.refl s, rfl, id⟩
    · exact ⟨⟨rfl, rfl, rfl, rfl⟩, rfl, fun h => h.bufReady _ _ _⟩

theorem Wf.apply (h : Wf s) (op : Op) (hok : Allowed s op) : Wf (apply s op) := by
  cases op with
  | queue b env => exact h.queue hok env
  | start i env => exact h.start hok env
  | stop i env => exact h.stop hok env
  | restart i env =>
    obtain ⟨k, hk⟩ := Option.ne_none_iff_exists'.mp hok.1
    exact h.restart hk env
  | ready k pin pinAddr errorCheck => exact (pinDataReady_quiet s k pin pinAddr errorCheck).1.wf h

theorem Wf.next (h : Wf s) (op : Op) : Wf (next s op) := by
  unfold Capture.next
  split
  next hok => exact h.apply op hok
  · exact h

end

/-- The states of all runs. -/
def run (ops : List Op) : Isys := ops.foldl next initial

theorem wf_run (ops : List Op) : Wf (run ops) := by
  have hall : ∀ s, Wf s → Wf (ops.foldl next s) := by
    induction ops with
    | nil => exact fun _ h => h
    | cons op ops ih => exact fun s h => ih _ (h.next op)
  exact hall initial wf_initial

-- ---------------------------------------------------------------------------
-- Answers that put nothing in the way
-- ---------------------------------------------------------------------------

def plainFwStart : FwStart := ⟨true, fun _ => 0, fun _ => 0, true, .done, true, true, .done, true⟩

def plainSet : SetEnv := ⟨0, true, 0, true, plainFwStart, 0⟩

def plainStreamStart : StreamStartEnv := ⟨plainSet, fun _ => true, fun _ => true⟩

/-- A node on the first source pad of receiver 0, which has `n` routes. -/
def plainStart (n : Nat) : StartEnv where
  setup := ⟨.ok (0, 1), some 0, (List.range n).map (· + 1), .ok 0, none⟩
  linkFmt := 0
  get := ⟨0, .ok⟩
  start := plainStreamStart
  fwClose := 0

def plainQueue : BufQueueEnv := ⟨true, true, plainStreamStart, true⟩

end Ipu4.Capture
