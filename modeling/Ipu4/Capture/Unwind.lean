import Ipu4.Capture.Wf

/-!
# A failed stream start

`start_streaming` undoes what it has done when it fails, except where the
firmware has accepted `STREAM_OPEN` and one of the steps after it fails that do
not lead to `out_stream_close`.
-/

namespace Ipu4.Capture

/-- Counters, lists and references are as they were, and every stream that has
been opened since has had its `STREAM_CLOSE` sent. -/
structure NoTrace (s s' : Isys) : Prop where
  opened : s'.fw.streamOpened = s.fw.streamOpened
  streams : ∀ k, (s'.streams k).streaming = (s.streams k).streaming ∧
    (s'.streams k).nrStreaming = (s.streams k).nrStreaming ∧
    (s'.streams k).queues = (s.streams k).queues
  refs : s'.streamsRefCount = s.streamsRefCount
  refCount : s'.refCount = s.refCount
  closed : ∃ new, s'.fw.cmds = new ++ s.fw.cmds ∧ ∀ h, stillOpen h new = false

/-- If the node completes its stream: `STREAM_OPEN` is refused or else answered
and followed by a message for the buffers; a stream that has started can be
enabled at the sub-device; and the capture loop has a message for every set. -/
def Unwinds (s : Isys) (env : StartEnv) (i : Nat) : Prop :=
  ∀ k e, env.slot s i = some (k, e) → env.completes s i k e →
    env.result s i k e ≠ .unanswered ∧ env.result s i k e ≠ .undone ∧
      (env.result s i k e = .started → ¬ env.loses s i k)

section
variable {s s' : Isys} {env : StartEnv} {i k e : Nat}

theorem Moves.not_noTrace (h : Moves k counted true s.fw s'.fw) : ¬ NoTrace s s' := by
  intro hno
  obtain ⟨new, hnew, hopen⟩ := h.cmds
  obtain ⟨new', hnew', hclosed⟩ := hno.closed
  obtain rfl := List.append_cancel_right (hnew.symm.trans hnew')
  simpa [hclosed] using hopen k

theorem Unwound.noTrace (h : Unwound s s' i b) (hm : Moves k false false s.fw s'.fw)
    (hst : ∀ k, (s'.streams k).streaming = (s.streams k).streaming ∧
      (s'.streams k).nrStreaming = (s.streams k).nrStreaming ∧
      (s'.streams k).queues = (s.streams k).queues) : NoTrace s s' where
  opened := by simpa using hm.opened
  streams := hst
  refs := h.refs
  refCount := h.refCount
  closed := by
    obtain ⟨new, hnew, hopen⟩ := hm.cmds
    exact ⟨new, hnew, by simpa using hopen⟩

theorem unwinds_iff (hslot : env.slot s i = some (k, e)) (hcomp : env.completes s i k e) :
    Unwinds s env i ↔ env.result s i k e ≠ .unanswered ∧ env.result s i k e ≠ .undone ∧
      (env.result s i k e = .started → ¬ env.loses s i k) := by
  rw [Unwinds, forall_slot_source_iff hslot, imp_iff_right hcomp]

theorem StartEnd.noTrace_iff (hw : Wf s) (hend : StartEnd s env i s' ret) :
    (ret ≠ 0 → NoTrace s s') ↔ Unwinds s env i := by
  cases hend with
  | refused hslot hret hun hst hlog =>
    refine iff_of_true (fun _ => hun.noTrace (hlog.moves 0) fun k => ?_) fun k e h => ?_
    · simp [hst]
    · simp [hslot] at h
  | unprepared _ hnr hq => exact absurd (hw.first hnr) hq
  | @waiting k e _ hslot _ _ _ hcomp =>
    rw [Unwinds, forall_slot_source_iff hslot]
    exact iff_of_true (fun h => absurd rfl h) fun hc => absurd hc hcomp
  | failed hslot _ hcomp hres hret hun hst hm =>
    rw [unwinds_iff hslot hcomp]
    generalize env.result s i _ _ = r at hres hm
    cases r with
    | started => exact absurd rfl hres
    | unanswered => exact iff_of_false (fun h => Moves.not_noTrace hm (h hret)) (by simp)
    | undone => exact iff_of_false (fun h => Moves.not_noTrace hm (h hret)) (by simp)
    | refused =>
      exact iff_of_true (fun _ => hun.noTrace hm fun k => hst ▸ update_stream_same ..) (by simp)
    | unstarted =>
      exact iff_of_true (fun _ => hun.noTrace hm fun k => hst ▸ update_stream_same ..) (by simp)
  | lost hslot _ hcomp hres hl hret _ _ hm =>
    rw [unwinds_iff hslot hcomp, hres]
    exact iff_of_false (fun h => Moves.not_noTrace hm (h hret)) fun h => h.2.2 rfl hl
  | started hslot _ _ _ hcomp hres hl =>
    rw [unwinds_iff hslot hcomp, hres]
    exact iff_of_true (fun h => absurd rfl h) ⟨by simp, by simp, fun _ => hl⟩

end

/-- In any state of any run, whatever a start meets: if it fails, it leaves no
trace, exactly if it does not fail in one of the steps named by `Unwinds`. -/
theorem startStreaming_noTrace_iff (ops : List Op) (i : Nat) (env : StartEnv)
    (hc : ((run ops).av i).called = false) :
    ((startStreaming (run ops) env i).2 ≠ 0 →
      NoTrace (run ops) (startStreaming (run ops) env i).1) ↔ Unwinds (run ops) env i :=
  ((wf_run ops).start_end hc env).noTrace_iff (wf_run ops)

def oneBuffer : List Op := [.queue ⟨0, 0, 4096⟩ plainQueue]

/-- A start that meets no obstacle up to what `set` says. -/
def startWith (set : SetEnv) : StartEnv :=
  { plainStart 1 with start := ⟨set, fun _ => true, fun _ => true⟩ }

/-- The firmware has opened and started the stream, and the sub-device cannot be
enabled: the stream is only flushed. -/
theorem startStreaming_leaves_stream_open :
    ((run oneBuffer).av 0).called = false ∧
      (startStreaming (run oneBuffer) (startWith { plainSet with enable := -5 }) 0).2 = -5 ∧
      (startStreaming (run oneBuffer) (startWith { plainSet with enable := -5 }) 0).1.fw.streamOpened
        = (run oneBuffer).fw.streamOpened + 1 ∧
      ¬ NoTrace (run oneBuffer)
        (startStreaming (run oneBuffer) (startWith { plainSet with enable := -5 }) 0).1 := by
  have hopened : (startStreaming (run oneBuffer) (startWith { plainSet with enable := -5 }) 0).1.fw.streamOpened
        = (run oneBuffer).fw.streamOpened + 1 := by decide +kernel
  refine ⟨by decide +kernel, by decide +kernel, hopened, fun h => ?_⟩
  have hsame := h.opened
  rw [hopened] at hsame
  revert hsame
  decide +kernel

/-- The firmware does not answer `STREAM_START`. -/
theorem startStreaming_noTrace_iff_unstarted :
    (startStreaming (run oneBuffer)
      (startWith { plainSet with start := { plainFwStart with startWait := .timeout } }) 0).2 =
        -ETIMEDOUT ∧
    NoTrace (run oneBuffer) (startStreaming (run oneBuffer)
      (startWith { plainSet with start := { plainFwStart with startWait := .timeout } }) 0).1 := by
  have hret : (startStreaming (run oneBuffer)
      (startWith { plainSet with start := { plainFwStart with startWait := .timeout } }) 0).2 =
        -ETIMEDOUT := by decide +kernel
  refine ⟨hret, (startStreaming_noTrace_iff oneBuffer 0 _ (by decide +kernel)).mpr ?_ ?_⟩
  · intro k e hslot hcomp
    have hres : (startWith { plainSet with start := { plainFwStart with startWait := .timeout } }).result
        (run oneBuffer) 0 0 0 = .unstarted := by decide +kernel
    have hkey : (startWith { plainSet with start := { plainFwStart with startWait := .timeout } }).slot
        (run oneBuffer) 0 = some (0, 0) := by decide +kernel
    rw [hkey, Option.some.injEq, Prod.mk.injEq] at hslot
    obtain ⟨rfl, rfl⟩ := hslot
    rw [hres]
    exact ⟨by decide, by decide, by simp⟩
  · rw [hret]
    decide

end Ipu4.Capture
