import Mathlib.Algebra.BigOperators.Group.Finset.Basic
import Mathlib.Algebra.Group.Int.Defs
import Mathlib.Algebra.GroupWithZero.Nat
import Mathlib.Algebra.Order.BigOperators.Group.Finset
import Ipu4.Capture.Wf

/-!
# Counting the open streams

`stream_opened` keeps the system from being suspended. It is the number of slots
that stream, as long as every stream that was opened is closed by the call that
clears its flag.
-/

namespace Ipu4.Capture

open Runs

/-- An open stream refuses to suspend. -/
def isysSuspend (s : Isys) : Int := if s.fw.streamOpened ≠ 0 then -EBUSY else 0

/-- The counter has never gone below zero, and with no node started it is zero
and the system can be suspended. -/
structure OpenCounted (s : Isys) : Prop where
  unwrapped : s.fw.wrapped = false
  idle : (∀ i, (s.av i).called = false) → s.fw.streamOpened = 0
  suspend : isysSuspend s ≠ 0 → ∃ i, (s.av i).called = true

/-- The step opens and closes alike: a stream that has started in the firmware
can be enabled at the sub-device, and its capture loop does not fail; a stream
that streams is stopped by the node that makes up its number, gets past the
sub-device and has its `STREAM_CLOSE` accepted; and a restart closes a stream only
if one is open, and exactly if it opens it again. -/
def KeepsCount (s : Isys) : Op → Prop
  | .queue b env => ∀ k, env.slot s b = some k → QueueCompletes s b k → env.msg = true →
      (s.streams k).streaming = false → env.result s k ≠ .undone
  | .start i env => ∀ k e, env.slot s i = some (k, e) → env.completes s i k e →
      env.result s i k e ≠ .undone ∧ (env.result s i k e = .started → ¬ env.loses s i k)
  | .stop i env => ∀ k, (s.av i).stream = some k → (s.streams k).streaming = true →
      (s.streams k).nrStreaming = (s.streams k).nrQueues ∧ env.set.switches s k ∧
        env.set.sendClose = true
  | .restart i env => ∀ k, (s.av i).stream = some k → env.stops s k →
      (env.stop.sendClose = true → s.fw.streamOpened ≠ 0) ∧
        (env.stop.sendClose = true ↔ env.reopens ∧ (env.result s k).counted = true)
  | .ready .. => True

-- ---------------------------------------------------------------------------
-- The counter
-- ---------------------------------------------------------------------------

structure Counts (n : Nat) (fw : Firmware) : Prop where
  opened : fw.streamOpened = UInt32.ofNat n
  unwrapped : fw.wrapped = false

theorem Counts.same (h : Counts n fw) (hlog : SameLog fw fw') : Counts n fw' :=
  ⟨hlog.opened.trans h.opened, hlog.wrapped.trans h.unwrapped⟩

theorem Counts.captures (h : Counts n fw) (hc : Captures fw fw') : Counts n fw' :=
  ⟨hc.opened.trans h.opened, hc.wrapped.trans h.unwrapped⟩

theorem ofNat_ne_zero (hpos : 0 < n) (hn : n < 2 ^ 32) : UInt32.ofNat n ≠ 0 := by
  intro h
  have := congrArg UInt32.toNat h
  rw [UInt32.toNat_ofNat_of_lt' hn, UInt32.toNat_zero] at this
  omega

theorem Counts.moves (h : Counts n fw) (hn : n + 1 < 2 ^ 32) (hm : Moves k counted left fw fw') :
    Counts (n + counted.toNat) fw' where
  opened := by
    rw [hm.opened, h.opened]
    cases counted with
    | false => simp
    | true => simp [UInt32.ofNat_add]
  unwrapped := by
    by_contra hw
    rw [Bool.not_eq_false] at hw
    rcases hm.wrapped hw with hw | hw
    · rw [h.unwrapped] at hw
      cases hw
    · rw [h.opened, ← UInt32.ofNat_one, ← UInt32.ofNat_add] at hw
      exact ofNat_ne_zero (Nat.succ_pos n) hn hw

theorem switchedOff_sent (fw : Firmware) (k : Nat) (hsend : env.sendClose = true) :
    (switchedOff fw env k).streamOpened = fw.streamOpened - 1 ∧
      (switchedOff fw env k).wrapped = (fw.wrapped || fw.streamOpened == 0) := by
  simp [switchedOff, closeStreamingFirmware, ipu6FwIsysSimpleCmd, ipu6FwIsysComplexCmd, hsend,
    putStreamOpened, stopStreamingFirmware]

theorem switchedOff_unsent (fw : Firmware) (k : Nat) (hsend : env.sendClose = false) :
    (switchedOff fw env k).streamOpened = fw.streamOpened ∧
      (switchedOff fw env k).wrapped = fw.wrapped := by
  simp [switchedOff, closeStreamingFirmware, ipu6FwIsysSimpleCmd, ipu6FwIsysComplexCmd, hsend,
    stopStreamingFirmware, EBUSY]

theorem Counts.off (h : Counts (n + 1) fw) (hn : n + 1 < 2 ^ 32) (hsend : env.sendClose = true) :
    Counts n (switchedOff fw env k) where
  opened := by
    rw [(switchedOff_sent fw k hsend).1, h.opened]
    simp
  unwrapped := by
    rw [(switchedOff_sent fw k hsend).2, h.opened, h.unwrapped, Bool.false_or, beq_eq_false_iff_ne]
    exact ofNat_ne_zero (Nat.succ_pos n) hn

theorem Counts.off_unsent (h : Counts n fw) (hsend : env.sendClose = false) :
    Counts n (switchedOff fw env k) :=
  ⟨(switchedOff_unsent fw k hsend).1.trans h.opened,
    (switchedOff_unsent fw k hsend).2.trans h.unwrapped⟩

def openCount (streams : Nat → Stream) : Nat :=
  ∑ k ∈ Finset.range IPU4_ISYS_MAX_STREAMS, (streams k).streaming.toNat

theorem openCount_le (streams : Nat → Stream) : openCount streams ≤ IPU4_ISYS_MAX_STREAMS := by
  have := Finset.sum_le_card_nsmul (Finset.range IPU4_ISYS_MAX_STREAMS)
    (fun k => (streams k).streaming.toNat) 1 fun k _ => Bool.toNat_le _
  simpa [openCount] using this

theorem openCount_lt (streams : Nat → Stream) : openCount streams + 1 < 2 ^ 32 := by
  have := openCount_le streams
  simp only [IPU4_ISYS_MAX_STREAMS] at this
  omega

theorem openCount_update (streams : Nat → Stream) (hk : k < IPU4_ISYS_MAX_STREAMS) (st : Stream) :
    openCount (Function.update streams k st) + (streams k).streaming.toNat =
      openCount streams + st.streaming.toNat := by
  have hmem := Finset.mem_range.mpr hk
  have hrest : ∑ j ∈ (Finset.range IPU4_ISYS_MAX_STREAMS).erase k,
      (Function.update streams k st j).streaming.toNat =
      ∑ j ∈ (Finset.range IPU4_ISYS_MAX_STREAMS).erase k, (streams j).streaming.toNat := by
    refine Finset.sum_congr rfl fun j hj => ?_
    rw [Function.update_of_ne (Finset.ne_of_mem_erase hj)]
  unfold openCount
  rw [← Finset.add_sum_erase _ _ hmem, ← Finset.add_sum_erase _ (fun j => (streams j).streaming.toNat)
    hmem, hrest, Function.update_self]
  omega

theorem openCount_congr (h : ∀ k, (streams' k).streaming = (streams k).streaming) :
    openCount streams' = openCount streams :=
  Finset.sum_congr rfl fun k _ => congrArg Bool.toNat (h k)

-- ---------------------------------------------------------------------------
-- One step
-- ---------------------------------------------------------------------------

/-- A stream that streams has all its nodes. -/
structure SlotOk (k : Nat) (st : Stream) : Prop where
  bound : st.queues ≠ [] → k < IPU4_ISYS_MAX_STREAMS
  full : st.streaming = true → 1 ≤ st.nrQueues ∧ st.nrQueues ≤ st.nrStreaming

structure Balanced (s : Isys) : Prop where
  wf : Wf s
  slots : ∀ k, SlotOk k (s.streams k)
  counts : Counts (openCount s.streams) s.fw

section
variable {s s' : Isys} {env : StartEnv} {b : Buffer} {i k e : Nat}

theorem Balanced.openCounted (h : Balanced s) : OpenCounted s := by
  have hidle : (∀ i, (s.av i).called = false) → s.fw.streamOpened = 0 := by
    intro hno
    have hzero : openCount s.streams = 0 := by
      refine Finset.sum_eq_zero fun k _ => ?_
      have hnil : (s.streams k).queues = [] := by
        refine List.eq_nil_iff_forall_not_mem.mpr fun i hi => ?_
        rw [h.wf.mem, h.wf.stream_none (hno i)] at hi
        cases hi
      have hnr := h.wf.count k
      cases hs : (s.streams k).streaming with
      | false => rfl
      | true =>
        have := (h.slots k).full hs
        simp only [hnil, List.length_nil] at hnr
        omega
    rw [h.counts.opened, hzero]
    rfl
  refine ⟨h.counts.unwrapped, hidle, fun hbusy => ?_⟩
  by_contra hno
  simp only [not_exists, Bool.not_eq_true] at hno
  exact hbusy (by simp [isysSuspend, hidle hno])

theorem Balanced.quiet (h : Balanced s) (hq : Quiet s s')
    (hc : Counts (openCount s.streams) s'.fw) : Balanced s' :=
  ⟨hq.wf h.wf, hq.streams ▸ h.slots, hq.streams ▸ hc⟩

theorem Balanced.slots_update (h : Balanced s) (hok : SlotOk k st) :
    ∀ k', SlotOk k' (Function.update s.streams k st k') :=
  (Function.forall_update_iff _ SlotOk).mpr ⟨hok, fun k' _ => h.slots k'⟩

theorem Balanced.update (h : Balanced s) (hw : Wf s') (hk : k < IPU4_ISYS_MAX_STREAMS)
    (hst : s'.streams = Function.update s.streams k st) (hok : SlotOk k st)
    (hc : ∀ n, n + (s.streams k).streaming.toNat = openCount s.streams + st.streaming.toNat →
      Counts n s'.fw) : Balanced s' :=
  ⟨hw, hst ▸ h.slots_update hok, hst ▸ hc _ (openCount_update s.streams hk st)⟩

theorem SlotOk.stream (h : SlotOk k (s.streams k)) (env : StartEnv) (e : Nat) :
    SlotOk k (env.stream s k e) := by
  simp only [StartEnv.stream]
  split
  next hnr =>
    refine ⟨h.bound, fun hs => ?_⟩
    have := h.full hs
    omega
  · exact h

theorem SlotOk.not_streaming (h : SlotOk k (s.streams k))
    (hcomp : (s.streams k).nrStreaming + 1 = (env.stream s k e).nrQueues) :
    (s.streams k).streaming = false := by
  by_contra hs
  rw [Bool.not_eq_false, ← stream_streaming env s k e] at hs
  have := (h.stream env e).full hs
  rw [stream_nrStreaming] at this
  omega

theorem counted_eq_false (hres : res ≠ .started) (hundone : res ≠ .undone) :
    SetResult.counted res = false := by
  cases res with
  | started => exact absurd rfl hres
  | undone => exact absurd rfl hundone
  | refused => rfl
  | unanswered => rfl
  | unstarted => rfl

theorem Balanced.start (h : Balanced s) (hc : (s.av i).called = false) (env : StartEnv)
    (hkeep : KeepsCount s (.start i env)) : Balanced (apply s (.start i env)) := by
  have hend := h.wf.start_end hc env
  have hw := h.wf.start hc env
  simp only [apply] at hw ⊢
  generalize (startStreaming s env i).1 = s', (startStreaming s env i).2 = ret at hend hw
  have hok : ∀ {k e}, SlotOk k (env.stream s k e) := (h.slots _).stream env _
  cases hend with
  | refused _ _ _ hst hlog => exact ⟨hw, hst ▸ h.slots, hst ▸ h.counts.same hlog⟩
  | unprepared _ hnr hq => exact absurd (h.wf.first hnr) hq
  | @waiting k e _ _ hk _ _ _ _ _ hst hlog =>
    refine h.update hw hk hst ⟨fun _ => hk, fun hs => ?_⟩ fun n hn => ?_
    · change (env.stream s k e).streaming = true at hs
      obtain ⟨hone, hle⟩ := hok.full hs
      refine ⟨hone, hle.trans ?_⟩
      show _ ≤ (env.stream s k e).nrStreaming + 1
      omega
    · rw [show ((env.stream s k e).join i).streaming = (env.stream s k e).streaming from rfl,
        stream_streaming, Nat.add_right_cancel_iff] at hn
      exact hn ▸ h.counts.same hlog
  | @failed k e _ _ hslot _ hcomp hres _ _ hst hm =>
    have hm := h.counts.moves (openCount_lt _) hm
    rw [counted_eq_false hres (hkeep k e hslot hcomp).1] at hm
    refine ⟨hw, hst ▸ h.slots_update hok, ?_⟩
    rwa [show openCount ((s'.setCalled i _).streams) = openCount s.streams from
      openCount_congr fun k' => hst ▸ (update_stream_same env s k e k').1]
  | lost hslot _ hcomp hres hl => exact absurd hl ((hkeep _ _ hslot hcomp).2 hres)
  | @started k e _ hslot hk hroutes _ hcomp _ _ _ _ hst hm =>
    have hoff := (h.slots k).not_streaming hcomp.1
    refine h.update hw hk hst ⟨fun _ => hk, fun _ => ?_⟩ fun n hn => ?_
    · refine ⟨(h.wf.stream_ready hroutes).2, ?_⟩
      show (env.stream s k e).nrQueues ≤ (env.stream s k e).nrStreaming + 1
      rw [stream_nrStreaming]
      exact hcomp.1.ge
    · rw [hoff] at hn
      obtain rfl : n = openCount s.streams + 1 := hn
      exact h.counts.moves (openCount_lt _) hm

theorem Balanced.stop (h : Balanced s) (hc : (s.av i).called = true) (env : StopEnv)
    (hkeep : KeepsCount s (.stop i env)) : Balanced (apply s (.stop i env)) := by
  obtain ⟨k, hk⟩ := h.wf.slot hc
  have hw := h.wf.stop hc env
  have hbound := (h.slots k).bound (h.wf.queues_ne_nil hk)
  have hok : SlotOk k { (s.streams k).leave i with streaming := false } :=
    ⟨fun _ => hbound, fun hs => Bool.noConfusion hs⟩
  cases hs : (s.streams k).streaming with
  | false =>
    rcases stopStreaming_end s env hk with ⟨-, hm, hend⟩ | ⟨hsw, -⟩
    · refine h.update hw hbound hend.streams hok fun n hn => ?_
      rw [hs] at hn
      obtain rfl : n = openCount s.streams := hn
      exact h.counts.moves (openCount_lt _) hm
    · rw [hsw.2] at hs
      cases hs
  | true =>
    obtain ⟨hnr, hsw, hsend⟩ := hkeep k hk hs
    rcases stopStreaming_end s env hk with ⟨hno, -⟩ | ⟨-, -, hlog, hend⟩
    · exact absurd ⟨⟨hnr, hs⟩, hsw⟩ hno
    · refine h.update hw hbound hend.streams hok fun n hn => ?_
      rw [hs] at hn
      have hn : openCount s.streams = n + 1 := hn.symm
      have hlt := openCount_lt s.streams
      have hcounts := h.counts
      rw [hn] at hcounts hlt
      exact (hcounts.off (Nat.lt_of_succ_lt hlt) hsend).same hlog

theorem Balanced.queue (h : Balanced s) (hb : b ∉ s.bufs.held) (env : BufQueueEnv)
    (hkeep : KeepsCount s (.queue b env)) : Balanced (apply s (.queue b env)) := by
  have hend := h.wf.queue_end hb env
  have hw := h.wf.queue hb env
  change Wf (bufQueue s env b) at hw
  show Balanced (bufQueue s env b)
  cases hend with
  | added _ hq hfw => exact h.quiet hq (hfw ▸ h.counts)
  | dropped _ _ _ hq hfw => exact h.quiet hq (hfw ▸ h.counts)
  | captured _ _ _ _ hq hc => exact h.quiet hq (h.counts.captures hc)
  | @failed k _ hk hcomp hmsg hstr hres hq hm =>
    have hm := h.counts.moves (openCount_lt _) hm
    rw [counted_eq_false hres (hkeep k hk hcomp hmsg hstr)] at hm
    exact h.quiet hq hm
  | @started k _ hk hcomp _ hstr _ hav hst _ _ hm =>
    have hne := h.wf.queues_ne_nil (BufQueueEnv.slot_stream hk)
    refine h.update hw ((h.slots k).bound hne) hst
      ⟨(h.slots k).bound, fun _ => ⟨(h.wf.ready k hne).2, hcomp.1.ge⟩⟩ fun n hn => ?_
    rw [hstr] at hn
    obtain rfl : n = openCount s.streams + 1 := hn
    exact h.counts.moves (openCount_lt _) hm

theorem Balanced.restart (h : Balanced s) (hk : (s.av i).stream = some k) (env : RestartEnv)
    (hkeep : KeepsCount s (.restart i env)) : Balanced (apply s (.restart i env)) := by
  have hend := h.wf.restart_end hk env
  have hw := h.wf.restart hk env
  have hlt := openCount_lt s.streams
  change Wf (restartStream s env i).1 at hw
  show Balanced (restartStream s env i).1
  cases hend with
  | kept _ hq hm => exact h.quiet hq (h.counts.moves hlt hm)
  | closed hs hno _ hst hlog =>
    have hsend : env.stop.sendClose = false := by
      rw [← Bool.not_eq_true, (hkeep k hk hs).2]
      exact fun hr => hno hr.1
    exact ⟨hw, hst ▸ h.slots, hst ▸ (h.counts.off_unsent hsend).same hlog⟩
  | restarted hs hr _ hst hm =>
    obtain ⟨hopen, hiff⟩ := hkeep k hk hs
    refine ⟨hw, hst ▸ h.slots, ?_⟩
    rw [hst]
    cases hcounted : (env.result s k).counted with
    | false =>
      have hsend : env.stop.sendClose = false := by
        rw [← Bool.not_eq_true, hiff, hcounted]
        simp
      rw [hcounted] at hm
      exact (h.counts.off_unsent hsend).moves hlt hm
    | true =>
      have hsend := hiff.mpr ⟨hr, hcounted⟩
      have hcounts := h.counts
      rw [hcounted] at hm
      cases hn : openCount s.streams with
      | zero =>
        rw [hn] at hcounts
        exact absurd hcounts.opened (hopen hsend)
      | succ n =>
        rw [hn] at hcounts hlt
        exact (hcounts.off (Nat.lt_of_succ_lt hlt) hsend).moves (Nat.lt_of_succ_lt hlt) hm

theorem Balanced.next (h : Balanced s) (op : Op) (hkeep : Allowed s op → KeepsCount s op) :
    Balanced (next s op) := by
  unfold Capture.next
  split
  case isFalse => exact h
  case isTrue hok =>
    cases op with
    | queue b env => exact h.queue hok env (hkeep hok)
    | start i env => exact h.start hok env (hkeep hok)
    | stop i env => exact h.stop hok env (hkeep hok)
    | restart i env =>
      obtain ⟨k, hk⟩ := Option.ne_none_iff_exists'.mp hok.1
      exact h.restart hk env (hkeep hok)
    | ready k pin pinAddr errorCheck =>
      obtain ⟨hq, hfw, -⟩ := pinDataReady_quiet s k pin pinAddr errorCheck
      exact h.quiet hq (hfw ▸ h.counts)

theorem balanced_initial : Balanced initial where
  wf := wf_initial
  slots := fun k => ⟨fun h => absurd rfl h, fun h => by simp [initial] at h⟩
  counts := ⟨rfl, rfl⟩

end

/-- In a run of any calls with any answers, if every operation keeps the count
then the counter is right after every operation. -/
theorem openCounted_of_keepsCount (ops : List Op)
    (h : ∀ x ∈ visited next initial ops, Allowed x.1 x.2 → KeepsCount x.1 x.2) :
    ∀ x ∈ visited next initial ops, OpenCounted (next x.1 x.2) := by
  have hall := forall_visited_of (I := Balanced) (C := fun s op => Allowed s op → KeepsCount s op)
    balanced_initial (fun _ op hs => hs.next op) h
  exact fun x hx => (hall x hx).openCounted

/-- A node is started with a buffer and stopped with what `set` says. -/
def startStopRun (set : SetEnv) : List Op := [
  .queue ⟨0, 0, 4096⟩ plainQueue,
  .start 0 (plainStart 1),
  .stop 0 ⟨set, 0⟩]

/-- Between the start and the stop the counter is one, and after the stop zero. -/
theorem openCounted_of_keepsCount_plain :
    (run ((startStopRun plainSet).take 2)).fw.streamOpened = 1 ∧
      isysSuspend (run ((startStopRun plainSet).take 2)) = -EBUSY ∧
      ∀ x ∈ visited next initial (startStopRun plainSet), OpenCounted (next x.1 x.2) := by
  refine ⟨by decide +kernel, by decide +kernel, openCounted_of_keepsCount _ ?_⟩
  have hqueue : plainQueue.slot initial ⟨0, 0, 4096⟩ = none := by decide +kernel
  have hstart : (plainStart 1).slot (run ((startStopRun plainSet).take 1)) 0 = some (0, 0) := by
    decide +kernel
  have hstop : ((run ((startStopRun plainSet).take 2)).av 0).stream = some 0 := by decide +kernel
  simp only [startStopRun, visited, List.forall_mem_cons]
  refine ⟨fun _ k hslot => ?_, fun _ k e hslot _ => ?_, fun _ k hslot _ => ?_, by simp⟩
  · rw [hqueue] at hslot
    cases hslot
  · obtain ⟨rfl, rfl⟩ := Prod.mk.inj (Option.some.inj (hstart.symm.trans hslot))
    refine ⟨by decide +kernel, fun _ hfails => ?_⟩
    obtain ⟨m, hm, -⟩ := hfails
    -- the only set of buffers is the one that the stream starts with
    have hsets : sets (run ((startStopRun plainSet).take 1)).bufs [0] - 1 = 0 := by decide +kernel
    exact Nat.not_lt_zero m (hsets ▸ hm)
  · obtain rfl := Option.some.inj (hstop.symm.trans hslot)
    exact ⟨by decide +kernel, ⟨by decide +kernel, rfl, rfl⟩, rfl⟩

/-- The sub-device cannot be stopped. -/
def stuckSet : SetEnv := { plainSet with disable := -5 }

/-- The stop does not close the stream in the firmware, and nothing will. -/
theorem stop_leaves_stream_counted :
    (∀ i, ((run (startStopRun stuckSet)).av i).called = false) ∧
      (run (startStopRun stuckSet)).fw.streamOpened = 1 ∧
      isysSuspend (run (startStopRun stuckSet)) = -EBUSY ∧
      ¬ OpenCounted (run (startStopRun stuckSet)) := by
  have hidle : ∀ i, ((run (startStopRun stuckSet)).av i).called = false := by
    intro i
    cases i with
    | zero => decide +kernel
    | succ i => rfl
  have hopen : (run (startStopRun stuckSet)).fw.streamOpened = 1 := by decide +kernel
  refine ⟨hidle, hopen, by decide +kernel, fun h => ?_⟩
  have hzero := h.idle hidle
  rw [hopen] at hzero
  cases hzero

end Ipu4.Capture
