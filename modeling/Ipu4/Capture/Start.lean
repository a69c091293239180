import Ipu4.Capture.Outcome

/-!
# How `start_streaming` can end

The node gets a slot and a powered firmware or is refused; it joins the stream
of its slot; and if it completes the stream, the stream is started for real.
`StartEnd` lists the ends with the state each leaves.
-/

namespace Ipu4.Capture

-- ---------------------------------------------------------------------------
-- Getting a slot and the firmware
-- ---------------------------------------------------------------------------

section
variable {s s' : Isys} {i k : Nat}

/-- What the search for a slot changes when it finds one. -/
structure Holds (s s' : Isys) (k : Nat) : Prop where
  slot : k < IPU4_ISYS_MAX_STREAMS
  streams : s'.streams = s.streams
  refs : s'.streamsRefCount = Function.update s.streamsRefCount k (s.streamsRefCount k + 1)
  refCount : s'.refCount = s.refCount
  fw : s'.fw = s.fw
  bufs : s'.bufs = s.bufs

theorem getStream_some (h : ipu6IsysGetStream s i asd = (s', some k)) :
    Holds s s' k ∧ s'.av = s.av := by
  simp only [ipu6IsysGetStream] at h
  split at h
  next hfind =>
    simp only [Prod.mk.injEq, Option.some.injEq] at h
    obtain ⟨rfl, rfl⟩ := h
    exact ⟨⟨List.mem_range.mp (List.mem_of_find?_eq_some hfind), rfl, rfl, rfl, rfl, rfl⟩, rfl⟩
  · split at h
    next hfind =>
      simp only [Prod.mk.injEq, Option.some.injEq] at h
      obtain ⟨rfl, rfl⟩ := h
      exact ⟨⟨List.mem_range.mp (List.mem_of_find?_eq_some hfind), rfl, rfl, rfl, rfl, rfl⟩, rfl⟩
    · simp at h

theorem getStream_none (h : ipu6IsysGetStream s i asd = (s', none)) : s' = s := by
  simp only [ipu6IsysGetStream] at h
  split at h
  · simp at h
  · split at h
    · simp at h
    · simpa using h.symm

/-- What stays as it was for everybody but the streams. -/
structure Same (s s' : Isys) : Prop where
  av : s'.av = s.av
  refs : s'.streamsRefCount = s.streamsRefCount
  refCount : s'.refCount = s.refCount

theorem setAv_stream_none (hno : (s.av i).stream = none) :
    (s.setAv i { s.av i with stream := none }).av = s.av := by
  show Function.update s.av i _ = _
  rw [← hno]
  exact Function.update_eq_self i s.av

theorem setupVideo_error (hno : (s.av i).stream = none)
    (h : ipu6IsysSetupVideo s env i = (s', .error ret)) :
    Same s s' ∧ s'.streams = s.streams ∧ s'.fw = s.fw ∧ s'.bufs = s.bufs := by
  have hleft : ∀ {s₁ : Isys} {r : Except Errno (Nat × Nat × Nat)}, (s₁, r) = (s', .error ret) →
      Same s s₁ ∧ s₁.streams = s.streams ∧ s₁.fw = s.fw ∧ s₁.bufs = s.bufs →
      Same s s' ∧ s'.streams = s.streams ∧ s'.fw = s.fw ∧ s'.bufs = s.bufs := by
    rintro s₁ r h hs
    obtain ⟨rfl, -⟩ := Prod.mk.inj h
    exact hs
  simp only [ipu6IsysSetupVideo] at h
  split at h
  · exact hleft h ⟨⟨rfl, rfl, rfl⟩, rfl, rfl, rfl⟩
  split at h
  · exact hleft h ⟨⟨rfl, rfl, rfl⟩, rfl, rfl, rfl⟩
  split at h
  · exact hleft h ⟨⟨rfl, rfl, rfl⟩, rfl, rfl, rfl⟩
  split at h
  · exact hleft h ⟨⟨rfl, rfl, rfl⟩, rfl, rfl, rfl⟩
  split at h
  · exact hleft h ⟨⟨rfl, rfl, rfl⟩, rfl, rfl, rfl⟩
  split at h
  next hget =>
    obtain rfl := getStream_none hget
    exact hleft h ⟨⟨setAv_stream_none hno, rfl, rfl⟩, rfl, rfl, rfl⟩
  · simp at h

theorem setupVideo_ok (h : ipu6IsysSetupVideo s env i = (s', .ok (k, e, n))) :
    Holds s s' k ∧ s'.av = Function.update s.av i { s.av i with stream := some k } ∧
      n = env.routes.length ∧ 0 < n := by
  simp only [ipu6IsysSetupVideo] at h
  split at h
  · simp at h
  split at h
  · simp at h
  split at h
  · simp at h
  next hroute =>
  split at h
  · simp at h
  split at h
  · simp at h
  split at h
  · simp at h
  next hget =>
    simp only [Prod.mk.injEq, Except.ok.injEq] at h
    obtain ⟨rfl, rfl, -, rfl⟩ := h
    obtain ⟨hh, hav⟩ := getStream_some hget
    refine ⟨⟨hh.slot, hh.streams, hh.refs, hh.refCount, hh.fw, hh.bufs⟩, ?_, rfl,
      List.length_pos_of_mem (not_not.mp hroute)⟩
    show Function.update _ i _ = _
    rw [hav]

theorem fwOpen_same (fw : Firmware) (r : OpenResult) : SameLog fw (ipu6FwIsysOpen fw r).1 := by
  cases r <;> exact ⟨rfl, rfl, rfl⟩

theorem fwClose_same (fw : Firmware) (ret : Int) : SameLog fw (ipu6FwIsysClose fw ret).1 := by
  unfold ipu6FwIsysClose
  split <;> exact ⟨rfl, rfl, rfl⟩

theorem fwGet_error (h : ipu6IsysFwGet s env = (s', ret)) (hret : ret ≠ 0) :
    ∃ fw, s' = { s with fw := fw } ∧ SameLog s.fw fw := by
  simp only [ipu6IsysFwGet] at h
  split at h
  · simp only [Prod.mk.injEq] at h
    exact ⟨s.fw, h.1.symm, .refl _⟩
  split at h
  · simp only [Prod.mk.injEq] at h
    exact absurd h.2.symm hret
  split at h
  · simp only [Prod.mk.injEq] at h
    exact ⟨_, h.1.symm, fwOpen_same _ _⟩
  · simp only [Prod.mk.injEq] at h
    exact absurd h.2.symm hret

theorem fwGet_ok (h : ipu6IsysFwGet s env = (s', 0)) :
    ∃ fw, s' = { s with fw := fw, refCount := s.refCount + 1 } ∧ SameLog s.fw fw := by
  simp only [ipu6IsysFwGet] at h
  split at h
  next hneg =>
    simp only [Prod.mk.injEq] at h
    omega
  split at h
  · simp only [Prod.mk.injEq] at h
    exact ⟨s.fw, h.1.symm, .refl _⟩
  split at h
  next hneg =>
    simp only [Prod.mk.injEq] at h
    omega
  · simp only [Prod.mk.injEq] at h
    exact ⟨_, h.1.symm, fwOpen_same _ _⟩

theorem fwPut_eq (s : Isys) (ret : Int) :
    ∃ fw, ipu6IsysFwPut s ret = { s with fw := fw, refCount := s.refCount - 1 } ∧
      SameLog s.fw fw := by
  simp only [ipu6IsysFwPut]
  split
  · exact ⟨s.fw, rfl, .refl _⟩
  · exact ⟨_, rfl, fwClose_same _ _⟩

-- ---------------------------------------------------------------------------
-- The way out
-- ---------------------------------------------------------------------------

/-- Node `i` holds slot `k`, and nothing else has changed for the nodes and the
slots since `s`; `b` is the node's streaming flag. -/
structure Entered (s s₁ : Isys) (i k : Nat) (b : Bool) : Prop where
  av : s₁.av = Function.update s.av i { s.av i with stream := some k, streaming := b }
  refs : s₁.streamsRefCount = Function.update s.streamsRefCount k (s.streamsRefCount k + 1)

theorem Entered.cleanup (h : Entered s s₁ i k b) (hno : (s.av i).stream = none) :
    (ipu6IsysStreamCleanup s₁ i).av = Function.update s.av i { s.av i with streaming := b } ∧
      (ipu6IsysStreamCleanup s₁ i).streamsRefCount = s.streamsRefCount ∧
      (ipu6IsysStreamCleanup s₁ i).streams = s₁.streams ∧
      (ipu6IsysStreamCleanup s₁ i).refCount = s₁.refCount ∧
      (ipu6IsysStreamCleanup s₁ i).fw = s₁.fw ∧ (ipu6IsysStreamCleanup s₁ i).bufs = s₁.bufs := by
  have hst : s₁.av i = { s.av i with stream := some k, streaming := b } := by simp [h.av]
  have hpos : s₁.streamsRefCount k = s.streamsRefCount k + 1 := by simp [h.refs]
  simp only [ipu6IsysStreamCleanup, ipu6IsysPutStream, hst, hpos, Nat.succ_pos, if_true, Isys.setAv,
    Nat.add_sub_cancel, and_true]
  constructor
  · rw [h.av, Function.update_idem, hno]
  · rw [h.refs, Function.update_idem, Function.update_eq_self]

/-- The state a failed start leaves, up to the streams: `b` is the flag of the
node. -/
structure Unwound (s s' : Isys) (i : Nat) (b : Bool) : Prop where
  av : s'.av = Function.update s.av i { s.av i with streaming := b }
  refs : s'.streamsRefCount = s.streamsRefCount
  refCount : s'.refCount = s.refCount

theorem Entered.outPipelineStop (h : Entered s s₁ i k b) (hno : (s.av i).stream = none)
    (hrc : s₁.refCount = s.refCount) (ret : Int) :
    ∃ s', outPipelineStop s₁ i ret = (s', ret) ∧ Unwound s s' i b ∧ s'.streams = s₁.streams ∧
      s'.fw = s₁.fw ∧ s'.bufs = returnBuffers s₁.bufs i .queued := by
  obtain ⟨hav, hrefs, hstreams, hcount, hfw, hbufs⟩ := h.cleanup hno
  refine ⟨_, rfl, ⟨hav, hrefs, hcount.trans hrc⟩, hstreams, hfw, ?_⟩
  show returnBuffers _ i .queued = _
  rw [hbufs]

theorem Entered.outFwClose (h : Entered s s₁ i k b) (hno : (s.av i).stream = none)
    (hrc : s₁.refCount = s.refCount + 1) (env : StartEnv) (ret : Int) :
    ∃ s', outFwClose s₁ env i ret = (s', ret) ∧ Unwound s s' i b ∧ s'.streams = s₁.streams ∧
      SameLog s₁.fw s'.fw ∧ s'.bufs = returnBuffers s₁.bufs i .queued := by
  obtain ⟨fw, hput, hlog⟩ := fwPut_eq s₁ env.fwClose
  have h₁ : Entered s { s₁ with fw := fw, refCount := s₁.refCount - 1 } i k b := ⟨h.av, h.refs⟩
  obtain ⟨s', hrun, hun, hstreams, hfw, hbufs⟩ :=
    h₁.outPipelineStop hno (by simp [hrc]) ret
  refine ⟨s', ?_, hun, hstreams, hfw ▸ hlog, hbufs⟩
  rw [← hrun, ← hput]
  rfl

theorem Entered.outStreamStart (h : Entered s s₁ i k b) (hno : (s.av i).stream = none)
    (hrc : s₁.refCount = s.refCount + 1) (hst : s₁.streams = Function.update s.streams k st)
    (env : StartEnv) (ret : Int) :
    ∃ s', outStreamStart s₁ env i k ret = (s', ret) ∧ Unwound s s' i b ∧
      s'.streams = Function.update s.streams k (st.leave i) ∧ SameLog s₁.fw s'.fw ∧
      s'.bufs = returnBuffers s₁.bufs i .queued := by
  have h₁ : Entered s (s₁.setStream k ((s₁.streams k).leave i)) i k b := ⟨h.av, h.refs⟩
  obtain ⟨s', hrun, hun, hstreams, hlog, hbufs⟩ := h₁.outFwClose hno hrc env ret
  refine ⟨s', hrun, hun, hstreams.trans ?_, hlog, hbufs⟩
  show Function.update s₁.streams k _ = _
  rw [hst, Function.update_idem, Function.update_self]

end

-- ---------------------------------------------------------------------------
-- The ends
-- ---------------------------------------------------------------------------

theorem forall_slot_iff {P : α → Prop} {slot : Option α} (h : slot = some a) :
    (∀ x, slot = some x → P x) ↔ P a := by
  simp [h]

theorem forall_slot_source_iff {P : α → β → Prop} {slot : Option (α × β)} (h : slot = some (a, b)) :
    (∀ x y, slot = some (x, y) → P x y) ↔ P a b :=
  Prod.forall'.symm.trans (forall_slot_iff h)

def StartEnv.slot (env : StartEnv) (s : Isys) (i : Nat) : Option (Nat × Nat) :=
  match ipu6IsysSetupVideo s env.setup i with
  | (_, .error _) => none
  | (s, .ok (k, e, _)) =>
    if env.linkFmt = 0 ∧ (ipu6IsysFwGet s env.get).2 = 0 then some (k, e) else none

/-- The stream of the slot as the node finds it, prepared if it is the first. -/
def StartEnv.stream (env : StartEnv) (s : Isys) (k e : Nat) : Stream :=
  let st := s.streams k
  if st.nrStreaming = 0 then
    { st with nrQueues := env.setup.routes.length, sourceEntity := some e }
  else st

/-- The node completes the stream, and every queue has a buffer. -/
def StartEnv.completes (env : StartEnv) (s : Isys) (i k e : Nat) : Prop :=
  (s.streams k).nrStreaming + 1 = (env.stream s k e).nrQueues ∧
    ∀ j ∈ i :: (s.streams k).queues, s.bufs.incoming j ≠ []

/-- How the start of the completed stream ends. -/
def StartEnv.result (env : StartEnv) (s : Isys) (i k e : Nat) : SetResult :=
  env.start.set.result (env.stream s k e).sourceEntity.isSome (i :: (s.streams k).queues) true

def StartEnv.loses (env : StartEnv) (s : Isys) (i k : Nat) : Prop :=
  env.start.capture.Fails 0 (sets s.bufs (i :: (s.streams k).queues) - 1)

inductive StartEnd (s : Isys) (env : StartEnv) (i : Nat) : Isys → Int → Prop
  | refused : env.slot s i = none → ret ≠ 0 → Unwound s s' i (s.av i).streaming →
      s'.streams = s.streams → SameLog s.fw s'.fw → s'.bufs = returnBuffers s.bufs i .queued →
      StartEnd s env i s' ret
  | unprepared : env.slot s i = some (k, e) → (s.streams k).nrStreaming = 0 →
      (s.streams k).queues ≠ [] → ret ≠ 0 → Unwound s s' i (s.av i).streaming →
      s'.streams = Function.update s.streams k
        { s.streams k with nrQueues := env.setup.routes.length } →
      SameLog s.fw s'.fw → s'.bufs = returnBuffers s.bufs i .queued → StartEnd s env i s' ret
  | waiting : env.slot s i = some (k, e) → k < IPU4_ISYS_MAX_STREAMS → 0 < env.setup.routes.length →
      ((s.streams k).nrStreaming = 0 → (s.streams k).queues = []) → ¬ env.completes s i k e →
      Entered s s' i k (s.av i).streaming → s'.refCount = s.refCount + 1 →
      s'.streams = Function.update s.streams k ((env.stream s k e).join i) →
      SameLog s.fw s'.fw → (Accounted s.bufs [] → Accounted s'.bufs []) → StartEnd s env i s' 0
  | failed : env.slot s i = some (k, e) →
      ((s.streams k).nrStreaming = 0 → (s.streams k).queues = []) → env.completes s i k e →
      env.result s i k e ≠ .started → ret ≠ 0 → Unwound s s' i (s.av i).streaming →
      s'.streams = Function.update s.streams k (env.stream s k e) →
      Moves k (env.result s i k e).counted (env.result s i k e).left s.fw s'.fw →
      (Accounted s.bufs [] → Accounted s'.bufs []) → StartEnd s env i s' ret
  | lost : env.slot s i = some (k, e) →
      ((s.streams k).nrStreaming = 0 → (s.streams k).queues = []) → env.completes s i k e →
      env.result s i k e = .started → env.loses s i k → ret ≠ 0 → Unwound s s' i true →
      s'.streams = Function.update s.streams k { env.stream s k e with streaming := true } →
      Moves k true true s.fw s'.fw → (Accounted s.bufs [] → Missing s'.bufs) →
      StartEnd s env i s' ret
  | started : env.slot s i = some (k, e) → k < IPU4_ISYS_MAX_STREAMS → 0 < env.setup.routes.length →
      ((s.streams k).nrStreaming = 0 → (s.streams k).queues = []) → env.completes s i k e →
      env.result s i k e = .started → ¬ env.loses s i k → Entered s s' i k true →
      s'.refCount = s.refCount + 1 →
      s'.streams = Function.update s.streams k
        { (env.stream s k e).join i with streaming := true } →
      Moves k true true s.fw s'.fw → (Accounted s.bufs [] → Accounted s'.bufs []) →
      StartEnd s env i s' 0

section
variable {s s₁ : Isys} {env : StartEnv} {i k e : Nat}

/-- The node has joined the stream of its slot. -/
structure Joined (s : Isys) (env : StartEnv) (i k e : Nat) (s₁ : Isys) : Prop where
  slot : env.slot s i = some (k, e)
  bound : k < IPU4_ISYS_MAX_STREAMS
  routes : 0 < env.setup.routes.length
  first : (s.streams k).nrStreaming = 0 → (s.streams k).queues = []
  entered : Entered s s₁ i k (s.av i).streaming
  refCount : s₁.refCount = s.refCount + 1
  streams : s₁.streams = Function.update s.streams k ((env.stream s k e).join i)
  log : SameLog s.fw s₁.fw
  bufs : s₁.bufs = s.bufs

theorem stream_nrStreaming (env : StartEnv) (s : Isys) (k e : Nat) :
    (env.stream s k e).nrStreaming = (s.streams k).nrStreaming := by
  simp only [StartEnv.stream]
  split <;> rfl

theorem stream_queues (env : StartEnv) (s : Isys) (k e : Nat) :
    (env.stream s k e).queues = (s.streams k).queues := by
  simp only [StartEnv.stream]
  split <;> rfl

theorem stream_streaming (env : StartEnv) (s : Isys) (k e : Nat) :
    (env.stream s k e).streaming = (s.streams k).streaming := by
  simp only [StartEnv.stream]
  split <;> rfl

theorem update_stream_same (env : StartEnv) (s : Isys) (k e k' : Nat) :
    (Function.update s.streams k (env.stream s k e) k').streaming = (s.streams k').streaming ∧
      (Function.update s.streams k (env.stream s k e) k').nrStreaming =
        (s.streams k').nrStreaming ∧
      (Function.update s.streams k (env.stream s k e) k').queues = (s.streams k').queues := by
  by_cases hk : k' = k
  · subst hk
    rw [Function.update_self]
    exact ⟨stream_streaming env s k' e, stream_nrStreaming env s k' e, stream_queues env s k' e⟩
  · rw [Function.update_of_ne hk]
    exact ⟨rfl, rfl, rfl⟩

theorem leave_join (st : Stream) (i : Nat) : (st.join i).leave i = st := by
  simp [Stream.join, Stream.leave]

theorem leave_join_streaming (st : Stream) (i : Nat) (b : Bool) :
    ({ st.join i with streaming := b }).leave i = { st with streaming := b } := by
  simp [Stream.join, Stream.leave]

theorem Joined.stream (h : Joined s env i k e s₁) : s₁.streams k = (env.stream s k e).join i := by
  simp [h.streams]

theorem Joined.queues (h : Joined s env i k e s₁) :
    (s₁.streams k).queues = i :: (s.streams k).queues := by
  rw [h.stream, ← stream_queues env s k e]
  rfl

theorem Joined.nrStreaming (h : Joined s env i k e s₁) :
    (s₁.streams k).nrStreaming = (s.streams k).nrStreaming + 1 := by
  rw [h.stream, ← stream_nrStreaming env s k e]
  rfl

theorem Joined.end (h : Joined s env i k e s₁) (hno : (s.av i).stream = none)
    (hnd : (i :: (s.streams k).queues).Nodup) :
    StartEnd s env i (startJoined s₁ env i k).1 (startJoined s₁ env i k).2 := by
  have hnrq : (s₁.streams k).nrQueues = (env.stream s k e).nrQueues := by rw [h.stream]; rfl
  have hsrc : (s₁.streams k).sourceEntity = (env.stream s k e).sourceEntity := by rw [h.stream]; rfl
  simp only [startJoined, h.queues, h.nrStreaming, hnrq, h.bufs]
  by_cases hnr : (s.streams k).nrStreaming + 1 = (env.stream s k e).nrQueues
  case neg =>
    rw [if_pos hnr]
    exact .waiting h.slot h.bound h.routes h.first (fun hc => hnr hc.1) h.entered h.refCount
      h.streams h.log (fun hacc => h.bufs ▸ hacc)
  case pos =>
    rw [if_neg (not_not.mpr hnr)]
    cases hget : bufferListGet s.bufs (i :: (s.streams k).queues) [] with
    | mk q r =>
    cases r with
    | none =>
      obtain ⟨j, hj, hnil⟩ := bufferListGet_none hnd hget
      exact .waiting h.slot h.bound h.routes h.first (fun hc => hc.2 j hj hnil)
        ⟨h.entered.av, h.entered.refs⟩ h.refCount h.streams h.log (fun hacc => hacc.get hget)
    | some bl =>
      obtain ⟨hlen, -, hless⟩ := bufferListGet_some hnd hget
      have hbl : bl ≠ [] := by
        rintro rfl
        simp at hlen
      have hcomp : env.completes s i k e := ⟨hnr, fun j hj hnil => by
        have := hless j hj
        simp [hnil] at this⟩
      have hsets : sets q (i :: (s.streams k).queues) =
          sets s.bufs (i :: (s.streams k).queues) - 1 := by
        have hpos : 0 < sets s.bufs (i :: (s.streams k).queues) :=
          (lt_sets_iff s.bufs (by simp) 0).mpr fun j hj => List.length_pos_iff.mpr (hcomp.2 j hj)
        exact sets_eq_of_less (by simp) (by omega) hless
      have hstart := streamStart_spec { s₁ with bufs := q } env.start i k bl false
        (h.queues ▸ hnd) (by rw [h.queues]; simp)
      simp only [h.queues, hsrc] at hstart
      dsimp only
      generalize ipu6IsysStreamStart { s₁ with bufs := q } env.start i k bl false = r at hstart ⊢
      change StreamStart _ env.start i k bl false (env.result s i k e) r at hstart
      generalize hres : env.result s i k e = res at hstart
      cases hstart with
      | @failed _ ret fw q' hres' hret hm hacc =>
        simp only [hret, if_false]
        have h₂ : Entered s { s₁ with fw := fw, bufs := q' } i k (s.av i).streaming :=
          ⟨h.entered.av, h.entered.refs⟩
        obtain ⟨s', hrun, hun, hstreams, hlog, hbufs⟩ :=
          h₂.outStreamStart hno h.refCount h.streams env ret
        rw [hrun]
        rw [leave_join] at hstreams
        refine .failed h.slot h.first hcomp (hres ▸ hres') hret hun hstreams
          (hres ▸ (h.log.trans_moves hm).trans_same hlog) fun hs => ?_
        have hacc := hacc (hs.get hget) hbl
        simp only [Bool.false_eq_true, false_and, if_false] at hacc
        exact hbufs ▸ hacc.returnBuffers i .queued
      | @started ret fw q' hret hm hacc =>
        simp only [h.queues, hsets] at hret
        have hm := h.log.trans_moves hm
        have hst : Function.update s₁.streams k { s₁.streams k with streaming := true } =
            Function.update s.streams k { (env.stream s k e).join i with streaming := true } := by
          rw [h.streams, Function.update_idem, Function.update_self]
        have hav : Function.update s₁.av i { s₁.av i with streaming := true } =
            Function.update s.av i { s.av i with stream := some k, streaming := true } := by
          rw [h.entered.av, Function.update_idem, Function.update_self]
        by_cases hzero : ret = 0
        · subst hzero
          simp only [if_true]
          refine .started h.slot h.bound h.routes h.first hcomp hres
            (fun hl => hret.mpr hl rfl) ⟨hav, h.entered.refs⟩ h.refCount hst hm
            fun hs => ?_
          exact hacc (hs.get hget)
        · simp only [hzero, if_false]
          have h₂ : Entered s ((({ s₁ with fw := fw, bufs := q' }).setAv i
              { s₁.av i with streaming := true }).setStream k
                { s₁.streams k with streaming := true }) i k true := ⟨hav, h.entered.refs⟩
          obtain ⟨s', hrun, hun, hstreams, hlog, hbufs⟩ :=
            h₂.outStreamStart hno h.refCount hst env ret
          rw [leave_join_streaming] at hstreams
          rw [hrun]
          refine .lost h.slot h.first hcomp hres (hret.mp hzero) hzero hun hstreams
            (hm.trans_same hlog) fun hs => ?_
          have hmiss := hacc (hs.get hget)
          rw [if_neg hzero] at hmiss
          exact hbufs ▸ hmiss.returnBuffers i .queued

theorem prepareFirst_spec (s : Isys) (env : StartEnv) (k e : Nat) :
    ∃ streams ret, prepareFirst s k e env.setup.routes.length = ({ s with streams := streams }, ret) ∧
      ((ret ≠ 0 ∧ (s.streams k).nrStreaming = 0 ∧ (s.streams k).queues ≠ [] ∧
        streams = Function.update s.streams k
          { s.streams k with nrQueues := env.setup.routes.length }) ∨
      (ret = 0 ∧ ((s.streams k).nrStreaming = 0 → (s.streams k).queues = []) ∧
        streams = Function.update s.streams k (env.stream s k e))) := by
  simp only [prepareFirst, ipu6IsysVideoPrepareStream, StartEnv.stream]
  by_cases hnr : (s.streams k).nrStreaming = 0
  case neg => exact ⟨s.streams, 0, by simp [hnr], .inr ⟨rfl, by simp [hnr], by simp [hnr]⟩⟩
  by_cases hq : (s.streams k).queues = []
  · refine ⟨_, 0, ?_, .inr ⟨rfl, fun _ => hq, rfl⟩⟩
    simp [hnr, hq, Isys.setStream]
  · refine ⟨_, -EINVAL, ?_, .inl ⟨by decide, hnr, hq, rfl⟩⟩
    simp [hnr, hq, Isys.setStream]

theorem startStreaming_joins (env : StartEnv) (hno : (s.av i).stream = none) :
    ((startStreaming s env i).2 ≠ 0 ∧ SameLog s.fw (startStreaming s env i).1.fw ∧
      StartEnd s env i (startStreaming s env i).1 (startStreaming s env i).2) ∨
    ∃ k e s₁, Joined s env i k e s₁ ∧ startStreaming s env i = startJoined s₁ env i k := by
  have hself : Function.update s.av i { s.av i with streaming := (s.av i).streaming } = s.av :=
    Function.update_eq_self i s.av
  unfold startStreaming
  cases hsetup : ipu6IsysSetupVideo s env.setup i with
  | mk s₁ r =>
  cases r with
  | error ret =>
    obtain ⟨hsame, hstreams, hfw, hbufs⟩ := setupVideo_error hno hsetup
    have hlog : SameLog s.fw s₁.fw := hfw ▸ .refl _
    exact .inl ⟨Int.ne_of_lt ret.property, hlog, .refused (by simp [StartEnv.slot, hsetup])
      (Int.ne_of_lt ret.property) ⟨hsame.av.trans hself.symm, hsame.refs, hsame.refCount⟩ hstreams hlog
      (congrArg (returnBuffers · i .queued) hbufs)⟩
  | ok t =>
    obtain ⟨k, e, n⟩ := t
    obtain ⟨hh, hav, rfl, hroutes⟩ := setupVideo_ok hsetup
    have hent : Entered s s₁ i k (s.av i).streaming := ⟨hav, hh.refs⟩
    dsimp only
    by_cases hlink : env.linkFmt = 0
    case neg =>
      rw [if_pos hlink]
      obtain ⟨s', hrun, hun, hstreams, hfw, hbufs⟩ :=
        hent.outPipelineStop hno hh.refCount env.linkFmt
      rw [hrun]
      have hlog : SameLog s.fw s'.fw := hfw ▸ hh.fw ▸ .refl _
      exact .inl ⟨hlink, hlog, .refused (by simp [StartEnv.slot, hsetup, hlink]) hlink hun
        (hstreams.trans hh.streams) hlog (hbufs.trans (by rw [hh.bufs]))⟩
    rw [if_neg (not_not.mpr hlink)]
    cases hget : ipu6IsysFwGet s₁ env.get with
    | mk s₂ ret =>
    by_cases hret : ret = 0
    case neg =>
      obtain ⟨fw, rfl, hlog⟩ := fwGet_error hget hret
      dsimp only
      rw [if_pos hret]
      have hent₂ : Entered s { s₁ with fw := fw } i k (s.av i).streaming := ⟨hav, hh.refs⟩
      obtain ⟨s', hrun, hun, hstreams, hfw, hbufs⟩ := hent₂.outPipelineStop hno hh.refCount ret
      rw [hrun]
      replace hlog : SameLog s.fw s'.fw := hfw ▸ hh.fw ▸ hlog
      exact .inl ⟨hret, hlog, .refused (by simp [StartEnv.slot, hsetup, hget, hret]) hret hun
        (hstreams.trans hh.streams) hlog (hbufs.trans (by rw [hh.bufs]))⟩
    subst hret
    obtain ⟨fw, rfl, hlog⟩ := fwGet_ok hget
    rw [hh.fw] at hlog
    have hslot : env.slot s i = some (k, e) := by simp [StartEnv.slot, hsetup, hget, hlink]
    dsimp only
    rw [if_neg (not_not.mpr rfl)]
    obtain ⟨streams, ret, hprep, hcases⟩ := prepareFirst_spec
      { s₁ with fw := fw, refCount := s₁.refCount + 1 } env k e
    rw [hprep]
    dsimp only
    rcases hcases with ⟨hret, hnr, hq, hst⟩ | ⟨rfl, hfirst, hst⟩
    · have hent₂ : Entered s { s₁ with fw := fw, refCount := s₁.refCount + 1, streams := streams } i k
          (s.av i).streaming := ⟨hav, hh.refs⟩
      obtain ⟨s', hrun, hun, hstreams, hlog', hbufs⟩ :=
        hent₂.outFwClose hno (congrArg (· + 1) hh.refCount) env ret
      rw [if_pos hret, hrun]
      rw [hh.streams] at hnr hq hst
      replace hlog : SameLog s.fw s'.fw := ⟨hlog'.cmds.trans hlog.cmds, hlog'.opened.trans hlog.opened,
        hlog'.wrapped.trans hlog.wrapped⟩
      exact .inl ⟨hret, hlog, .unprepared hslot hnr hq hret hun (hstreams.trans hst) hlog
        (hbufs.trans (congrArg (returnBuffers · i .queued) hh.bufs))⟩
    · rw [if_neg (not_not.mpr rfl)]
      rw [hh.streams] at hfirst hst
      replace hst : streams = Function.update s.streams k (env.stream s k e) := hst
      refine .inr ⟨k, e, ({ s₁ with fw := fw, refCount := s₁.refCount + 1, streams := streams }).setStream k
        ((streams k).join i), ⟨hslot, hh.slot, hroutes, hfirst, ⟨hav, hh.refs⟩,
        congrArg (· + 1) hh.refCount, ?_, hlog, hh.bufs⟩, rfl⟩
      show Function.update streams k ((streams k).join i) = _
      rw [hst, Function.update_idem, Function.update_self]

theorem startStreaming_end (env : StartEnv) (hno : (s.av i).stream = none)
    (hnd : ∀ k, (i :: (s.streams k).queues).Nodup) :
    StartEnd s env i (startStreaming s env i).1 (startStreaming s env i).2 := by
  rcases startStreaming_joins env hno with ⟨-, -, hend⟩ | ⟨k, e, s₁, hjoined, heq⟩
  · exact hend
  · rw [heq]
    exact hjoined.end hno (hnd k)

end

end Ipu4.Capture
