import Ipu4.Capture.Start

/-!
# How the other operations can end

`buf_queue`, `stop_streaming` and `restart_stream`, in the manner of `StartEnd`:
which answers lead to which end, and the state each end leaves.
-/

namespace Ipu4.Capture

structure Quiet (s s' : Isys) : Prop where
  av : s'.av = s.av
  streams : s'.streams = s.streams
  refs : s'.streamsRefCount = s.streamsRefCount
  refCount : s'.refCount = s.refCount

theorem Quiet.refl (s : Isys) : Quiet s s := ⟨rfl, rfl, rfl, rfl⟩

-- ---------------------------------------------------------------------------
-- `buf_queue`
-- ---------------------------------------------------------------------------

/-- The stream that `buf_queue` looks at. -/
def BufQueueEnv.slot (env : BufQueueEnv) (s : Isys) (b : Buffer) : Option Nat :=
  if env.mediaPipe = true ∧ (s.av b.queue).called = true then (s.av b.queue).stream else none

theorem BufQueueEnv.slot_stream {env : BufQueueEnv} (h : env.slot s b = some k) :
    (s.av b.queue).stream = some k := by
  unfold BufQueueEnv.slot at h
  split at h
  · exact h
  · cases h

theorem bufQueue_slot (s : Isys) (env : BufQueueEnv) (b : Buffer) : bufQueue s env b =
    (env.slot s b).elim (s.addIncoming b) (bufQueueStream (s.addIncoming b) env b.queue) := by
  simp only [bufQueue, BufQueueEnv.slot, show (s.addIncoming b).av = s.av from rfl]
  cases env.mediaPipe with
  | false => rfl
  | true =>
    cases (s.av b.queue).called with
    | false => rfl
    | true => cases (s.av b.queue).stream <;> rfl

/-- The stream has all its nodes, and with `b` every queue has a buffer. -/
def QueueCompletes (s : Isys) (b : Buffer) (k : Nat) : Prop :=
  (s.streams k).nrStreaming = (s.streams k).nrQueues ∧
    ∀ j ∈ (s.streams k).queues, j ≠ b.queue → s.bufs.incoming j ≠ []

def BufQueueEnv.result (env : BufQueueEnv) (s : Isys) (k : Nat) : SetResult :=
  env.start.set.result (s.streams k).sourceEntity.isSome (s.streams k).queues true

def BufQueueEnv.loses (env : BufQueueEnv) (s : Isys) (b : Buffer) (k : Nat) : Prop :=
  env.start.capture.Fails 0 (sets (s.addIncoming b).bufs (s.streams k).queues - 1)

inductive QueueEnd (s : Isys) (env : BufQueueEnv) (b : Buffer) : Isys → Prop
  | added : (∀ k, env.slot s b = some k → ¬ QueueCompletes s b k) → Quiet s s' → s'.fw = s.fw →
      (Accounted s.bufs [] → Accounted s'.bufs []) → QueueEnd s env b s'
  | dropped : env.slot s b = some k → QueueCompletes s b k → env.msg = false → Quiet s s' →
      s'.fw = s.fw → (Accounted s.bufs [] → Missing s'.bufs) → QueueEnd s env b s'
  | captured : env.slot s b = some k → QueueCompletes s b k → env.msg = true →
      (s.streams k).streaming = true → Quiet s s' → Captures s.fw s'.fw →
      (Accounted s.bufs [] → Accounted s'.bufs []) → QueueEnd s env b s'
  | failed : env.slot s b = some k → QueueCompletes s b k → env.msg = true →
      (s.streams k).streaming = false → env.result s k ≠ .started → Quiet s s' →
      Moves k (env.result s k).counted (env.result s k).left s.fw s'.fw →
      (Accounted s.bufs [] →
        if (env.result s k).queued = false then Leaked s'.bufs else Accounted s'.bufs []) →
      QueueEnd s env b s'
  | started : env.slot s b = some k → QueueCompletes s b k → env.msg = true →
      (s.streams k).streaming = false → env.result s k = .started →
      s'.av = Function.update s.av b.queue { s.av b.queue with streaming := true } →
      s'.streams = Function.update s.streams k { s.streams k with streaming := true } →
      s'.streamsRefCount = s.streamsRefCount → s'.refCount = s.refCount →
      Moves k true true s.fw s'.fw →
      (Accounted s.bufs [] → (env.loses s b k → Missing s'.bufs) ∧
        (¬ env.loses s b k → Accounted s'.bufs [])) → QueueEnd s env b s'

section
variable {s : Isys} {b : Buffer} {k : Nat}

theorem Accounted.addIncoming (h : Accounted s.bufs []) (hb : b ∉ s.bufs.held) :
    Accounted (s.addIncoming b).bufs [] :=
  (h.handOver hb).push

theorem incoming_addIncoming (s : Isys) (b : Buffer) (j : Nat) :
    (s.addIncoming b).bufs.incoming j =
      if j = b.queue then b :: s.bufs.incoming j else s.bufs.incoming j := by
  by_cases hj : j = b.queue
  · subst hj
    simp [Isys.addIncoming, Bufs.setIncoming]
  · simp [Isys.addIncoming, Bufs.setIncoming, hj]

theorem queueCompletes_iff (hnd : (s.streams k).queues.Nodup)
    (hget : bufferListGet (s.addIncoming b).bufs (s.streams k).queues [] = (q, r)) :
    r.isSome ↔ ∀ j ∈ (s.streams k).queues, j ≠ b.queue → s.bufs.incoming j ≠ [] := by
  cases r with
  | none =>
    obtain ⟨j, hj, hnil⟩ := bufferListGet_none hnd hget
    rw [incoming_addIncoming] at hnil
    split at hnil
    · simp at hnil
    next hne => simpa using ⟨j, hj, hne, hnil⟩
  | some bl =>
    obtain ⟨-, -, hless⟩ := bufferListGet_some hnd hget
    refine iff_of_true rfl fun j hj hne hnil => ?_
    have := hless j hj
    rw [incoming_addIncoming, if_neg hne, hnil] at this
    simp at this

theorem bufQueueStream_end (env : BufQueueEnv) (hslot : env.slot s b = some k)
    (hb : b ∉ s.bufs.held) (hnd : (s.streams k).queues.Nodup) (hq : b.queue ∈ (s.streams k).queues) :
    QueueEnd s env b (bufQueueStream (s.addIncoming b) env b.queue k) := by
  have hne : (s.streams k).queues ≠ [] := List.ne_nil_of_mem hq
  simp only [bufQueueStream, show (s.addIncoming b).streams = s.streams from rfl]
  have hk : ¬ QueueCompletes s b k → ∀ k', env.slot s b = some k' → ¬ QueueCompletes s b k' := by
    intro h k' hk'
    obtain rfl := Option.some.inj (hslot.symm.trans hk')
    exact h
  by_cases hnr : (s.streams k).nrStreaming = (s.streams k).nrQueues
  case neg =>
    rw [if_pos hnr]
    exact .added (hk fun h => hnr h.1) ⟨rfl, rfl, rfl, rfl⟩ rfl fun h => h.addIncoming hb
  rw [if_neg (not_not.mpr hnr)]
  cases hget : bufferListGet (s.addIncoming b).bufs (s.streams k).queues [] with
  | mk q r =>
  have hiff := queueCompletes_iff hnd hget
  cases r with
  | none =>
    exact .added (hk fun h => by simpa using hiff.mpr h.2) ⟨rfl, rfl, rfl, rfl⟩ rfl
      fun h => (h.addIncoming hb).get hget
  | some bl =>
    have hcomp : QueueCompletes s b k := ⟨hnr, hiff.mp rfl⟩
    obtain ⟨hlen, -, hless⟩ := bufferListGet_some hnd hget
    have hbl : bl ≠ [] := by
      rintro rfl
      exact hne (List.length_eq_zero_iff.mp (by simpa using hlen.symm))
    have hacc : Accounted s.bufs [] → Accounted q bl := fun h => (h.addIncoming hb).get hget
    dsimp only
    cases hmsg : env.msg with
    | false =>
      exact .dropped hslot hcomp hmsg ⟨rfl, rfl, rfl, rfl⟩ rfl fun h => (hacc h).missing hbl
    | true =>
      cases hstr : (s.streams k).streaming with
      | true =>
        exact .captured hslot hcomp hmsg hstr ⟨rfl, rfl, rfl, rfl⟩
          ((Captures.refl _).send (by simp [Cmd.neutral])) fun h => (hacc h).queue .active
      | false =>
        have hsets : sets q (s.streams k).queues =
            sets (s.addIncoming b).bufs (s.streams k).queues - 1 := by
          have hpos : 0 < sets (s.addIncoming b).bufs (s.streams k).queues :=
            (lt_sets_iff _ hne 0).mpr fun j hj => by
              have := hless j hj
              omega
          exact sets_eq_of_less hne (by omega) hless
        have hstart := streamStart_spec { s.addIncoming b with bufs := q } env.start b.queue k bl true
          hnd hne
        change StreamStart _ env.start b.queue k bl true (env.result s k) _ at hstart
        show QueueEnd s env b
          (ipu6IsysStreamStart { s.addIncoming b with bufs := q } env.start b.queue k bl true).1
        generalize ipu6IsysStreamStart { s.addIncoming b with bufs := q } env.start b.queue k bl true =
          r at hstart ⊢
        generalize hres : env.result s k = res at hstart
        cases hstart with
        | failed hres' hret hm hend =>
          exact .failed hslot hcomp hmsg hstr (hres ▸ hres') ⟨rfl, rfl, rfl, rfl⟩ (hres ▸ hm)
            fun h => by simpa [hres] using hend (hacc h) hbl
        | @started ret fw q' hret hm hend =>
          replace hret : ret ≠ 0 ↔ env.loses s b k := by
            rw [hret, BufQueueEnv.loses, ← hsets]
            rfl
          refine .started hslot hcomp hmsg hstr hres rfl rfl rfl rfl hm fun h =>
            ⟨fun hl => ?_, fun hl => ?_⟩
          · have hmiss := hend (hacc h)
            rwa [if_neg (hret.mpr hl)] at hmiss
          · have hok := hend (hacc h)
            rwa [if_pos (not_not.mp (mt hret.mp hl))] at hok

theorem bufQueue_end (env : BufQueueEnv) (hb : b ∉ s.bufs.held)
    (hnd : ∀ k, (s.streams k).queues.Nodup)
    (hq : ∀ k, (s.av b.queue).stream = some k → b.queue ∈ (s.streams k).queues) :
    QueueEnd s env b (bufQueue s env b) := by
  rw [bufQueue_slot]
  cases hslot : env.slot s b with
  | none => exact .added (by simp [hslot]) ⟨rfl, rfl, rfl, rfl⟩ rfl fun h => h.addIncoming hb
  | some k => exact bufQueueStream_end env hslot hb (hnd k) (hq k (BufQueueEnv.slot_stream hslot))

end

-- ---------------------------------------------------------------------------
-- `stop_streaming`
-- ---------------------------------------------------------------------------

/-- The node takes the whole stream down. -/
def Switches (s : Isys) (k : Nat) : Prop :=
  (s.streams k).nrStreaming = (s.streams k).nrQueues ∧ (s.streams k).streaming = true

def SetEnv.switches (env : SetEnv) (s : Isys) (k : Nat) : Prop :=
  (s.streams k).sourceEntity ≠ none ∧ env.route = 0 ∧ env.disable = 0

theorem not_switches {env : SetEnv} {s : Isys}
    (h : (s.streams k).sourceEntity = none ∨ env.route ≠ 0 ∨ env.disable ≠ 0) :
    ¬ env.switches s k := by
  rintro ⟨hsrc, hroute, hdis⟩
  rcases h with h | h | h
  · exact hsrc h
  · exact h hroute
  · exact h hdis

/-- What `stop_streaming` leaves, up to the firmware: `b` is the node's flag. -/
structure StopEnd (s : Isys) (i k : Nat) (b : Bool) (s' : Isys) : Prop where
  av : s'.av = Function.update s.av i { s.av i with stream := none, streaming := b }
  streams : s'.streams = Function.update s.streams k
    { (s.streams k).leave i with streaming := false }
  bufs : Accounted s.bufs [] → Accounted s'.bufs []

theorem cleanup_eq (s : Isys) (i : Nat) : ∃ refs, ipu6IsysStreamCleanup s i =
    ({ s with streamsRefCount := refs }).setAv i { s.av i with stream := none } := by
  unfold ipu6IsysStreamCleanup
  cases (s.av i).stream with
  | none => exact ⟨_, rfl⟩
  | some k =>
    dsimp only
    unfold ipu6IsysPutStream
    split
    · exact ⟨_, rfl⟩
    · exact ⟨_, rfl⟩

theorem stopLeave_spec (s : Isys) (env : StopEnv) (i k : Nat) :
    SameLog s.fw (stopLeave s env i k).fw ∧ StopEnd s i k (s.av i).streaming (stopLeave s env i k) := by
  obtain ⟨refs, hclean⟩ := cleanup_eq
    (s.setStream k { (s.streams k).leave i with streaming := false }) i
  simp only [stopLeave, hclean]
  generalize hs₁ : Isys.mk _ _ _ _ _ _ _ _ _ = s₁
  obtain ⟨fw, hput, hlog⟩ := fwPut_eq s₁ env.fwClose
  subst hs₁
  rw [hput]
  exact ⟨hlog, rfl, rfl, fun h => h.returnBuffers i .error⟩

theorem stopStreaming_end (s : Isys) (env : StopEnv) (hst : (s.av i).stream = some k) :
    (¬ (Switches s k ∧ env.set.switches s k) ∧ Moves k false false s.fw (stopStreaming s env i).fw ∧
      StopEnd s i k (s.av i).streaming (stopStreaming s env i)) ∨
    (Switches s k ∧ env.set.switches s k ∧
      SameLog (switchedOff s.fw env.set k) (stopStreaming s env i).fw ∧
      StopEnd s i k false (stopStreaming s env i)) := by
  simp only [stopStreaming, hst]
  by_cases hsw : Switches s k
  case neg =>
    rw [if_neg (by exact hsw)]
    obtain ⟨hlog, hend⟩ := stopLeave_spec s env i k
    exact .inl ⟨fun h => hsw h.1, hlog.moves k, hend⟩
  rw [if_pos (by exact hsw)]
  have hoff := setStreaming_off s env.set i k
  generalize ipu6IsysVideoSetStreaming s env.set i k false none = r at hoff ⊢
  cases hoff with
  | @failed fw ret hbad hm hret =>
    obtain ⟨hlog, hend⟩ := stopLeave_spec { s with fw := fw } env i k
    exact .inl ⟨fun h => not_switches hbad h.2, hm.trans_same hlog, hend.av, hend.streams, hend.bufs⟩
  | closed hsrc hroute hdis =>
    obtain ⟨hlog, hend⟩ := stopLeave_spec (({ s with fw := switchedOff s.fw env.set k }).setAv i
      { s.av i with streaming := false }) env i k
    refine .inr ⟨hsw, ⟨hsrc, hroute, hdis⟩, hlog, hend.av.trans ?_, hend.streams, hend.bufs⟩
    show Function.update (Function.update s.av i _) i _ = _
    simp [Isys.setAv]

-- ---------------------------------------------------------------------------
-- `restart_stream`
-- ---------------------------------------------------------------------------

def RestartEnv.stops (env : RestartEnv) (s : Isys) (k : Nat) : Prop :=
  noActiveBuffers s.bufs (s.streams k).queues = true ∧ env.stop.switches s k

/-- The firmware comes up again. -/
def RestartEnv.reopens (env : RestartEnv) : Prop :=
  env.fwClose = 0 ∧ env.busReset = 0 ∧ ∀ ret fwcom, env.fwOpen = .error ret fwcom → ret = 0

/-- There is a set of buffers to start with. -/
def Waiting (s : Isys) (k : Nat) : Prop :=
  ∀ j ∈ (s.streams k).queues, s.bufs.incoming j ≠ []

instance (s : Isys) (k : Nat) : Decidable (Waiting s k) :=
  inferInstanceAs (Decidable (∀ j ∈ (s.streams k).queues, s.bufs.incoming j ≠ []))

def RestartEnv.result (env : RestartEnv) (s : Isys) (k : Nat) : SetResult :=
  env.start.result (s.streams k).sourceEntity.isSome (s.streams k).queues (decide (Waiting s k))

inductive RestartEnd (s : Isys) (env : RestartEnv) (i k : Nat) : Isys → Prop
  | kept : ¬ env.stops s k → Quiet s s' → Moves k false false s.fw s'.fw → s'.bufs = s.bufs →
      RestartEnd s env i k s'
  | closed : env.stops s k → ¬ env.reopens →
      s'.av = Function.update s.av i { s.av i with streaming := false } →
      s'.streams = s.streams → SameLog (switchedOff s.fw env.stop k) s'.fw → s'.bufs = s.bufs →
      RestartEnd s env i k s'
  | restarted : env.stops s k → env.reopens →
      s'.av = Function.update s.av i { s.av i with streaming := env.result s k = .started } →
      s'.streams = s.streams →
      Moves k (env.result s k).counted (env.result s k).left (switchedOff s.fw env.stop k) s'.fw →
      (Accounted s.bufs [] →
        if Waiting s k ∧ (env.result s k).queued = false then Missing s'.bufs
        else Accounted s'.bufs []) → RestartEnd s env i k s'

section
variable {s s₁ : Isys} {env : RestartEnv} {i k : Nat}

theorem waiting_iff (hnd : (s.streams k).queues.Nodup)
    (hget : bufferListGet s.bufs (s.streams k).queues [] = (q, r)) : r.isSome = decide (Waiting s k) := by
  cases r with
  | none =>
    obtain ⟨j, hj, hnil⟩ := bufferListGet_none hnd hget
    exact (decide_eq_false (show ¬ Waiting s k from fun h => h j hj hnil)).symm
  | some bl =>
    obtain ⟨-, -, hless⟩ := bufferListGet_some hnd hget
    have hwait : Waiting s k := fun j hj hnil => by
      have := hless j hj
      simp [hnil] at this
    exact (decide_eq_true hwait).symm

theorem Accounted.activate (h : Accounted q (bl.getD [])) : Accounted (activate q bl) [] := by
  cases bl with
  | none => exact h
  | some bl => exact h.queue .active

theorem Accounted.got (h : Accounted s.bufs []) (hnd : (s.streams k).queues.Nodup)
    (hq : (s.streams k).queues ≠ [])
    (hget : bufferListGet s.bufs (s.streams k).queues [] = (q, bl)) :
    if Waiting s k then Missing q else Accounted q [] := by
  have hwait := waiting_iff hnd hget
  cases bl with
  | none =>
    rw [if_neg (by simpa using hwait.symm)]
    exact h.get hget
  | some bl =>
    rw [if_pos (by simpa using hwait.symm)]
    obtain ⟨hlen, -, -⟩ := bufferListGet_some hnd hget
    refine (h.get hget).missing ?_
    rintro rfl
    exact hq (List.length_eq_zero_iff.mp (by simpa using hlen.symm))

theorem restartOpened_end (hnd : (s.streams k).queues.Nodup) (hq : (s.streams k).queues ≠ [])
    (hstop : env.stops s k) (hopen : env.reopens)
    (hav : s₁.av = Function.update s.av i { s.av i with streaming := false })
    (hstreams : s₁.streams = s.streams) (hlog : SameLog (switchedOff s.fw env.stop k) s₁.fw)
    (hbufs : s₁.bufs = s.bufs) : RestartEnd s env i k (restartOpened s₁ env i k).1 := by
  simp only [restartOpened, hstreams, hbufs]
  cases hget : bufferListGet s.bufs (s.streams k).queues [] with
  | mk q bl =>
  have hon := setStreaming_on { s₁ with bufs := q } env.start i k bl
  dsimp only at hon ⊢
  rw [hstreams, waiting_iff hnd hget] at hon
  change SetOn _ i k bl (env.result s k) _ at hon
  generalize ipu6IsysVideoSetStreaming _ env.start i k true bl = r at hon ⊢
  generalize hres : env.result s k = res at hon
  have hnot : ∀ r, res = r → r ≠ .started →
      s₁.av = Function.update s.av i { s.av i with streaming := env.result s k = .started } := by
    rintro r rfl hr
    rw [hav, hres, decide_eq_false hr]
  cases hon with
  | refused hm hret =>
    refine .restarted hstop hopen (hnot _ rfl (by decide)) rfl (hres ▸ hlog.trans_moves hm) fun h => ?_
    have hgot := h.got hnd hq hget
    simpa [hres, SetResult.queued] using hgot
  | unanswered hm hret =>
    refine .restarted hstop hopen (hnot _ rfl (by decide)) rfl (hres ▸ hlog.trans_moves hm) fun h => ?_
    have hgot := h.got hnd hq hget
    simpa [hres, SetResult.queued] using hgot
  | unstarted hm hret =>
    refine .restarted hstop hopen (hnot _ rfl (by decide)) rfl (hres ▸ hlog.trans_moves hm) fun h => ?_
    simpa [hres, SetResult.queued] using (h.get hget).activate
  | undone hm hret =>
    refine .restarted hstop hopen (hnot _ rfl (by decide)) rfl (hres ▸ hlog.trans_moves hm) fun h => ?_
    simpa [hres, SetResult.queued] using (h.get hget).activate
  | started hm =>
    refine .restarted hstop hopen ?_ rfl (hres ▸ hlog.trans_moves hm) fun h => ?_
    · show Function.update s₁.av i { s₁.av i with streaming := true } = _
      rw [hav, Function.update_idem, Function.update_self, hres]
      rfl
    · simpa [hres, SetResult.queued, Isys.setAv] using (h.get hget).activate

theorem restartClosed_end (hnd : (s.streams k).queues.Nodup) (hq : (s.streams k).queues ≠ [])
    (hstop : env.stops s k)
    (hav : s₁.av = Function.update s.av i { s.av i with streaming := false })
    (hstreams : s₁.streams = s.streams) (hfw : s₁.fw = switchedOff s.fw env.stop k)
    (hbufs : s₁.bufs = s.bufs) : RestartEnd s env i k (restartClosed s₁ env i k).1 := by
  unfold restartClosed
  by_cases hclose : env.fwClose = 0
  case neg =>
    simp only [ipu6FwIsysClose, hclose, ne_eq, not_false_eq_true, if_true]
    exact .closed hstop (fun h => hclose h.1) hav hstreams (hfw ▸ .refl _) hbufs
  by_cases hreset : env.busReset = 0
  case neg =>
    simp only [ipu6FwIsysClose, hclose, hreset, ne_eq, not_true, not_false_eq_true, if_true, if_false]
    exact .closed hstop (fun h => hreset h.2.1) hav hstreams (hfw ▸ ⟨rfl, rfl, rfl⟩) hbufs
  simp only [ipu6FwIsysClose, hclose, hreset, ne_eq, not_true, if_false]
  cases hopen : env.fwOpen with
  | ok =>
    simp only [ipu6FwIsysOpen, not_true, if_false]
    exact restartOpened_end hnd hq hstop ⟨hclose, hreset, by simp [hopen]⟩ hav hstreams
      (hfw ▸ ⟨rfl, rfl, rfl⟩) hbufs
  | error ret fwcom =>
    by_cases hret : ret = 0
    · subst hret
      simp only [ipu6FwIsysOpen, not_true, if_false]
      refine restartOpened_end hnd hq hstop ⟨hclose, hreset, ?_⟩ hav hstreams
        (hfw ▸ ⟨rfl, rfl, rfl⟩) hbufs
      rintro ret' fwcom' h
      rw [hopen, OpenResult.error.injEq] at h
      exact h.1.symm
    · simp only [ipu6FwIsysOpen, hret, not_false_eq_true, if_true]
      exact .closed hstop (fun h => hret (h.2.2 ret fwcom hopen)) hav hstreams
        (hfw ▸ ⟨rfl, rfl, rfl⟩) hbufs

theorem restartStream_end (env : RestartEnv) (hst : (s.av i).stream = some k)
    (hnd : (s.streams k).queues.Nodup) (hq : (s.streams k).queues ≠ []) :
    RestartEnd s env i k (restartStream s env i).1 := by
  simp only [restartStream, hst]
  cases hact : noActiveBuffers s.bufs (s.streams k).queues with
  | false =>
    exact .kept (fun h => Bool.false_ne_true (hact.symm.trans h.1)) (.refl s)
      ((SameLog.refl s.fw).moves k) rfl
  | true =>
    have hoff := setStreaming_off s env.stop i k
    simp only [Bool.not_true, Bool.false_eq_true, if_false]
    generalize ipu6IsysVideoSetStreaming s env.stop i k false none = r at hoff ⊢
    cases hoff with
    | failed hbad hm hret =>
      simp only [ne_eq, hret, not_false_eq_true, if_true]
      exact .kept (fun h => not_switches hbad h.2) ⟨rfl, rfl, rfl, rfl⟩ hm rfl
    | closed hsrc hroute hdis =>
      simp only [ne_eq, not_true, if_false]
      exact restartClosed_end hnd hq ⟨hact, hsrc, hroute, hdis⟩ rfl rfl rfl rfl

end

end Ipu4.Capture
