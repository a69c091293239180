import Ipu4.Capture.Wf

/-!
# Buffer ownership

Between operations every buffer that vb2 has handed over is in one list of its
queue. The driver loses buffers where a list that it has taken off the queues is
dropped, and keeps buffers it has given back where a list is put back and given
back at once; a run is free of both exactly if no step takes one of these ways.
-/

namespace Ipu4.Capture

open Runs

/-- A buffer that vb2 has handed over and not been given back is once in one of
its queue's lists, and any other buffer is in no list. -/
structure Conserved (q : Bufs) : Prop where
  held : ∀ b ∈ q.held, (q.incoming b.queue).count b + (q.active b.queue).count b = 1
  others : ∀ b i, b ∉ q.held ∨ i ≠ b.queue → b ∉ q.incoming i ∧ b ∉ q.active i

theorem conserved_iff (q : Bufs) : Conserved q ↔ Accounted q [] := by
  constructor
  · intro h i b
    rw [List.count_nil, ite_self, Nat.add_zero]
    by_cases hin : b.queue = i ∧ b ∈ q.held
    · rw [if_pos hin, ← hin.1]
      exact h.held b hin.2
    · rw [if_neg hin]
      have hout : b ∉ q.held ∨ i ≠ b.queue := by
        by_cases hb : b ∈ q.held
        · exact .inr fun hi => hin ⟨hi.symm, hb⟩
        · exact .inl hb
      obtain ⟨h₁, h₂⟩ := h.others b i hout
      simp [Bufs.place, List.count_eq_zero.mpr h₁, List.count_eq_zero.mpr h₂]
  · refine fun h => ⟨fun b hb => ?_, fun b i hout => ?_⟩
    · have := h b.queue b
      simpa [Bufs.place, hb] using this
    · have hno : ¬ (b.queue = i ∧ b ∈ q.held) := by
        rintro ⟨rfl, hb⟩
        rcases hout with h | h
        · exact h hb
        · exact h rfl
      exact ⟨fun hmem => hno (h.mem (.inl hmem)), fun hmem => hno (h.mem (.inr hmem))⟩

/-- The step loses no list and gives none back twice: `buf_queue` has a message
for a complete set and, if it starts the stream, gets as far as queueing the set;
no capture loop runs out of messages; and a restart that has taken a set gets as
far as queueing it. -/
def Keeps (s : Isys) : Op → Prop
  | .queue b env => ∀ k, env.slot s b = some k → QueueCompletes s b k → env.msg = true ∧
      ((s.streams k).streaming = false → (env.result s k).queued = true ∧
        (env.result s k = .started → ¬ env.loses s b k))
  | .start i env => ∀ k e, env.slot s i = some (k, e) → env.completes s i k e →
      env.result s i k e = .started → ¬ env.loses s i k
  | .stop .. => True
  | .restart i env => ∀ k, (s.av i).stream = some k → env.stops s k → env.reopens → Waiting s k →
      (env.result s k).queued = true
  | .ready .. => True

section
variable {s : Isys} {b : Buffer} {i k : Nat}

theorem queue_keeps (hw : Wf s) (h : Accounted s.bufs []) (hb : b ∉ s.bufs.held)
    (env : BufQueueEnv) : Accounted (apply s (.queue b env)).bufs [] ↔ Keeps s (.queue b env) := by
  have hend := hw.queue_end hb env
  show Accounted (bufQueue s env b).bufs [] ↔ _
  have hone : ∀ k, env.slot s b = some k → QueueCompletes s b k →
      (Keeps s (.queue b env) ↔ env.msg = true ∧
        ((s.streams k).streaming = false → (env.result s k).queued = true ∧
          (env.result s k = .started → ¬ env.loses s b k))) := by
    intro k hk hcomp
    rw [Keeps, forall_slot_iff hk, imp_iff_right hcomp]
  cases hend with
  | added hno _ _ hacc =>
    exact iff_of_true (hacc h) fun k hk hcomp => absurd hcomp (hno k hk)
  | dropped hk hcomp hmsg _ _ hmiss =>
    rw [hone _ hk hcomp, hmsg]
    exact iff_of_false (hmiss h).not_accounted (by simp)
  | captured hk hcomp hmsg hstr _ _ hacc =>
    rw [hone _ hk hcomp, hmsg, hstr]
    exact iff_of_true (hacc h) (by simp)
  | failed hk hcomp hmsg hstr hres _ _ hacc =>
    rw [hone _ hk hcomp, hmsg, hstr]
    replace hacc := hacc h
    split at hacc
    next hq => exact iff_of_false hacc.not_accounted (by simp [hq])
    next hq => exact iff_of_true hacc (by simpa [hres] using hq)
  | @started k _ hk hcomp hmsg hstr hres _ _ _ _ _ hacc =>
    rw [hone _ hk hcomp, hmsg, hstr, hres]
    obtain ⟨hlost, hkept⟩ := hacc h
    by_cases hl : env.loses s b k
    · exact iff_of_false (hlost hl).not_accounted (by simp [hl])
    · exact iff_of_true (hkept hl) (by simp [hl, SetResult.queued])

theorem start_keeps (hw : Wf s) (h : Accounted s.bufs []) (hc : (s.av i).called = false)
    (env : StartEnv) : Accounted (apply s (.start i env)).bufs [] ↔ Keeps s (.start i env) := by
  have hend := hw.start_end hc env
  show Accounted (startStreaming s env i).1.bufs [] ↔ _
  generalize (startStreaming s env i).1 = s', (startStreaming s env i).2 = ret at hend
  cases hend with
  | refused hslot _ _ _ _ hbufs =>
    exact iff_of_true (hbufs ▸ h.returnBuffers i .queued) (by simp [Keeps, hslot])
  | unprepared _ hnr hq => exact absurd (hw.first hnr) hq
  | waiting hslot _ _ _ hcomp _ _ _ _ hacc =>
    rw [Keeps, forall_slot_source_iff hslot]
    exact iff_of_true (hacc h) fun hc => absurd hc hcomp
  | failed hslot _ _ hres _ _ _ _ hacc =>
    rw [Keeps, forall_slot_source_iff hslot]
    exact iff_of_true (hacc h) fun _ hc => absurd hc hres
  | lost hslot _ hcomp hres hl _ _ _ _ hmiss =>
    rw [Keeps, forall_slot_source_iff hslot]
    exact iff_of_false (hmiss h).not_accounted fun hkeep => hkeep hcomp hres hl
  | started hslot _ _ _ _ _ hl _ _ _ _ hacc =>
    rw [Keeps, forall_slot_source_iff hslot]
    exact iff_of_true (hacc h) fun _ _ => hl

theorem restart_keeps (hw : Wf s) (h : Accounted s.bufs []) (hst : (s.av i).stream = some k)
    (env : RestartEnv) : Accounted (apply s (.restart i env)).bufs [] ↔ Keeps s (.restart i env) := by
  have hend := hw.restart_end hst env
  show Accounted (restartStream s env i).1.bufs [] ↔ _
  rw [Keeps, forall_slot_iff hst]
  cases hend with
  | kept hno _ _ hbufs => exact iff_of_true (hbufs ▸ h) fun hs => absurd hs hno
  | closed _ hno _ _ _ hbufs => exact iff_of_true (hbufs ▸ h) fun _ hr => absurd hr hno
  | restarted hs hr _ _ _ hacc =>
    replace hacc := hacc h
    split at hacc
    next hlost =>
      exact iff_of_false hacc.not_accounted fun hkeep => by simp [hkeep hs hr hlost.1] at hlost
    next hkept =>
      refine iff_of_true hacc fun _ _ hwait => ?_
      by_contra hq
      exact hkept ⟨hwait, by simpa using hq⟩

theorem apply_keeps (hw : Wf s) (h : Accounted s.bufs []) (hok : Allowed s op) :
    Accounted (apply s op).bufs [] ↔ Keeps s op := by
  cases op with
  | queue b env => exact queue_keeps hw h hok env
  | start i env => exact start_keeps hw h hok env
  | stop i env =>
    obtain ⟨k, hk⟩ := hw.slot hok
    refine iff_of_true ?_ trivial
    rcases stopStreaming_end s env hk with ⟨-, -, hend⟩ | ⟨-, -, -, hend⟩
    · exact hend.bufs h
    · exact hend.bufs h
  | restart i env =>
    obtain ⟨k, hk⟩ := Option.ne_none_iff_exists'.mp hok.1
    exact restart_keeps hw h hk env
  | ready k pin pinAddr errorCheck =>
    exact iff_of_true ((pinDataReady_quiet s k pin pinAddr errorCheck).2.2 h) trivial

theorem next_keeps (hw : Wf s) (h : Accounted s.bufs []) (op : Op) :
    Accounted (next s op).bufs [] ↔ (Allowed s op → Keeps s op) := by
  unfold next
  split
  next hok => rw [apply_keeps hw h hok, imp_iff_right hok]
  next hno => exact iff_of_true h fun hok => absurd hok hno

end

/-- In a run of any calls with any answers, ownership is conserved after every
operation exactly if every operation keeps it. -/
theorem ownership_conserved_iff (ops : List Op) :
    (∀ x ∈ visited next initial ops, Conserved (next x.1 x.2).bufs) ↔
      ∀ x ∈ visited next initial ops, Allowed x.1 x.2 → Keeps x.1 x.2 := by
  have hstart : Accounted initial.bufs [] := fun i b => by simp [initial, Bufs.place]
  refine forall_visited_iff (I := fun s => Wf s ∧ Accounted s.bufs [])
    (P := fun s op => Conserved (next s op).bufs) (C := fun s op => Allowed s op → Keeps s op)
    ⟨wf_initial, hstart⟩ ?_ ?_
  · rintro s op ⟨hw, h⟩
    rw [conserved_iff, next_keeps hw h]
  · rintro s op ⟨hw, h⟩ hkeep
    exact ⟨hw.next op, (next_keeps hw h op).mpr hkeep⟩

-- ---------------------------------------------------------------------------
-- A buffer that is lost
-- ---------------------------------------------------------------------------

/-- With a stream running, a buffer is queued for which there is no message. -/
def noMessageRun : List Op := [
  .queue ⟨0, 0, 4096⟩ plainQueue,
  .start 0 (plainStart 1),
  .queue ⟨0, 1, 8192⟩ { plainQueue with msg := false }]

theorem bufQueue_loses_buffer :
    (run noMessageRun).bufs.incoming 0 = [] ∧ (run noMessageRun).bufs.active 0 = [⟨0, 0, 4096⟩] ∧
      ⟨0, 1, 8192⟩ ∈ (run noMessageRun).bufs.held ∧ ¬ Conserved (run noMessageRun).bufs := by
  have hin : (run noMessageRun).bufs.incoming 0 = [] := by decide +kernel
  have hact : (run noMessageRun).bufs.active 0 = [⟨0, 0, 4096⟩] := by decide +kernel
  have hheld : ⟨0, 1, 8192⟩ ∈ (run noMessageRun).bufs.held := by decide +kernel
  refine ⟨hin, hact, hheld, fun h => ?_⟩
  have := h.held _ hheld
  simp [hin, hact] at this

end Ipu4.Capture
