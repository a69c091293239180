import Mathlib.Algebra.Group.Int.Defs
import Mathlib.Algebra.GroupWithZero.Nat
import Ipu4.Capture.Bufs

/-!
# The sequence numbers of frames

Each SOF counts up `stream->sequence` and is noted with its timestamp in one of two
slots, in turn. A buffer that is ready gets the number noted for its timestamp. So the
numbers are right as long as no frame is ready later than two SOFs after its own.
-/

namespace Ipu4.Capture.Sequence

/-- `struct sequence_info`. -/
structure SequenceInfo where
  sequence : Nat
  timestamp : Nat
  deriving DecidableEq, Repr

/-- The stream, the buffers of its queues and, newest first, the buffers it has
completed with their `vbuf->sequence`. -/
structure SofStream where
  sequence : Nat
  seq : Nat → SequenceInfo
  seqIndex : Nat
  outputPinsQueue : Nat → Option Nat
  bufs : Bufs
  completed : List (Buffer × Nat)

def IPU6_ISYS_MAX_PARALLEL_SOF : Nat := 2

/-- `atomic_read(&stream->sequence) - 1`. -/
def SofStream.readSequence (s : SofStream) : Nat := (s.sequence + (2 ^ 32 - 1)) % 2 ^ 32

/-- What `ipu6_isys_video_prepare_stream` resets. -/
def prepareStream (s : SofStream) : SofStream :=
  { s with sequence := 0, seq := fun _ => ⟨0, 0⟩, seqIndex := 0 }

/-- `get_sof_sequence_by_timestamp`. -/
def getSofSequence (s : SofStream) (time : Nat) : Nat :=
  if time = 0 then s.readSequence
  else
    match (List.range IPU6_ISYS_MAX_PARALLEL_SOF).find? fun i => time = (s.seq i).timestamp with
    | some i => (s.seq i).sequence
    | none => 0

/-- The case `FRAME_SOF` of `isys_isr_one`. -/
def frameSof (s : SofStream) (ts : Nat) : SofStream :=
  -- `ipu6_isys_csi2_sof_event_by_stream`
  let s := { s with sequence := (s.sequence + 1) % 2 ^ 32 }
  { s with
    seq := Function.update s.seq s.seqIndex ⟨s.readSequence, ts⟩
    seqIndex := (s.seqIndex + 1) % IPU6_ISYS_MAX_PARALLEL_SOF }

/-- The buffer that a `PIN_DATA_READY` completes, with its queue. -/
def SofStream.ready (s : SofStream) (pin pinAddr : Nat) : Option (Nat × Buffer) :=
  if pin < IPU6_ISYS_OUTPUT_PINS then
    (s.outputPinsQueue pin).bind fun i =>
      ((s.bufs.active i).reverse.find? fun b => b.dmaAddr = pinAddr).map fun b => (i, b)
  else none

/-- The case `PIN_DATA_READY` of `isys_isr_one`. -/
def pinDataReady (s : SofStream) (pin pinAddr time : Nat) (errorCheck : Bool) : SofStream :=
  match s.ready pin pinAddr with
  | none => s
  | some (i, b) =>
    { s with
      bufs := ipu6StreamBufReady s.bufs i pinAddr errorCheck
      completed := (b, getSofSequence s time) :: s.completed }

/-- A response for the stream, or calls of the user in between, which leave the pins and
buffers as given. -/
inductive Event where
  | frameSof (ts : Nat)
  | pinDataReady (pin pinAddr time : Nat) (errorCheck : Bool)
  | calls (outputPinsQueue : Nat → Option Nat) (bufs : Bufs)

def step (s : SofStream) : Event → SofStream
  | .frameSof ts => frameSof s ts
  | .pinDataReady pin pinAddr time errorCheck => pinDataReady s pin pinAddr time errorCheck
  | .calls outputPinsQueue bufs => { s with outputPinsQueue, bufs }

/-- The timestamps of the SOFs, in order. -/
def sofs : List Event → List Nat
  | [] => []
  | .frameSof ts :: evs => ts :: sofs evs
  | _ :: evs => sofs evs

-- ---------------------------------------------------------------------------
-- The last two SOFs
-- ---------------------------------------------------------------------------

variable {s : SofStream} {seen : List Nat}

/-- The stream has seen SOFs with these timestamps and still has the last two. -/
structure Tracks (seen : List Nat) (s : SofStream) : Prop where
  count : s.sequence = seen.length % 2 ^ 32
  index : s.seqIndex = seen.length % 2
  slots : ∀ k ts, seen[k]? = some ts → seen.length ≤ k + 2 → s.seq (k % 2) = ⟨k % 2 ^ 32, ts⟩

theorem Tracks.prepare (s : SofStream) : Tracks [] (prepareStream s) where
  count := rfl
  index := rfl
  slots := by simp

theorem Tracks.readSequence (h : Tracks seen s) (hpos : 0 < seen.length) :
    s.readSequence = (seen.length - 1) % 2 ^ 32 := by
  rw [SofStream.readSequence, h.count]
  omega

theorem frameSof_seq (s : SofStream) (ts : Nat) :
    (frameSof s ts).seq = Function.update s.seq s.seqIndex
      ⟨((s.sequence + 1) % 2 ^ 32 + (2 ^ 32 - 1)) % 2 ^ 32, ts⟩ := rfl

theorem Tracks.frameSof (h : Tracks seen s) (ts : Nat) : Tracks (seen ++ [ts]) (frameSof s ts) where
  count := by
    rw [Sequence.frameSof, h.count, List.length_append, Nat.mod_add_mod]
    rfl
  index := by
    rw [Sequence.frameSof, h.index, List.length_append, IPU6_ISYS_MAX_PARALLEL_SOF, Nat.mod_add_mod]
    rfl
  slots := by
    rintro k t hk hlen
    rw [List.length_append, List.length_singleton] at hlen
    rw [List.getElem?_append] at hk
    rw [frameSof_seq, h.index, h.count]
    split at hk
    · -- the SOF before this one is in the other slot
      rename_i hlt
      rw [Function.update_of_ne (by omega)]
      exact h.slots k t hk (by omega)
    · rename_i hge
      obtain ⟨hlast, rfl⟩ : k - seen.length = 0 ∧ ts = t := by
        simpa [List.getElem?_singleton] using hk
      obtain hk : seen.length = k := by omega
      rw [hk]
      have hcount : ((k % 2 ^ 32 + 1) % 2 ^ 32 + (2 ^ 32 - 1)) % 2 ^ 32 = k % 2 ^ 32 := by omega
      rw [Function.update_self, hcount]

theorem step_pinDataReady (s : SofStream) (pin pinAddr time : Nat) (errorCheck : Bool) :
    (pinDataReady s pin pinAddr time errorCheck).sequence = s.sequence ∧
      (pinDataReady s pin pinAddr time errorCheck).seqIndex = s.seqIndex ∧
      (pinDataReady s pin pinAddr time errorCheck).seq = s.seq := by
  unfold pinDataReady
  split <;> exact ⟨rfl, rfl, rfl⟩

theorem Tracks.run (h : Tracks seen s) (evs : List Event) :
    Tracks (seen ++ sofs evs) (evs.foldl step s) := by
  induction evs generalizing s seen with
  | nil => rwa [sofs, List.append_nil]
  | cons ev evs ih =>
    cases ev with
    | frameSof ts =>
      rw [sofs, List.append_cons]
      exact ih (h.frameSof ts)
    | pinDataReady pin pinAddr time errorCheck =>
      obtain ⟨hsequence, hindex, hseq⟩ := step_pinDataReady s pin pinAddr time errorCheck
      exact ih ⟨hsequence.trans h.count, hindex.trans h.index, hseq ▸ h.slots⟩
    | calls outputPinsQueue bufs => exact ih ⟨h.count, h.index, h.slots⟩

-- ---------------------------------------------------------------------------
-- Looking up a timestamp
-- ---------------------------------------------------------------------------

/-- Of two filled slots only one has the timestamp; an empty one is not looked at, since
the first is filled first. -/
theorem Tracks.getSofSequence (h : Tracks seen s) (hnodup : seen.Nodup) (hk : seen[k]? = some time)
    (hlen : seen.length ≤ k + 2) (htime : time ≠ 0) : getSofSequence s time = k % 2 ^ 32 := by
  have hslot := h.slots k time hk hlen
  have hlt : k < seen.length := (List.getElem?_eq_some_iff.mp hk).1
  rw [Sequence.getSofSequence, if_neg htime]
  have hrange : List.range IPU6_ISYS_MAX_PARALLEL_SOF = [0, 1] := rfl
  rw [hrange]
  rcases Nat.mod_two_eq_zero_or_one k with heven | hodd
  · rw [heven] at hslot
    simp [hslot]
  · rw [hodd] at hslot
    -- the other slot holds the SOF before this one or the one after it
    obtain ⟨j, hj, hjlen, hjk, hjeven⟩ : ∃ j < seen.length, seen.length ≤ j + 2 ∧ j ≠ k ∧ j % 2 = 0 := by
      by_cases hlast : seen.length = k + 2
      · exact ⟨k + 1, by omega, by omega, by omega, by omega⟩
      · exact ⟨k - 1, by omega, by omega, by omega, by omega⟩
    have hother := h.slots j seen[j] (List.getElem?_eq_getElem hj) hjlen
    rw [hjeven] at hother
    have hne : time ≠ seen[j] := by
      rintro rfl
      have hkj : seen[k]? = seen[j]? := by rw [hk, List.getElem?_eq_getElem hj]
      exact hjk ((List.getElem?_inj hlt hnodup).mp hkj).symm
    simp [hslot, hother, hne]

-- ---------------------------------------------------------------------------
-- Completed buffers
-- ---------------------------------------------------------------------------

theorem completed_getSofSequence
    (h : (pinDataReady s pin pinAddr time errorCheck).completed = (b, n) :: s.completed) :
    n = getSofSequence s time := by
  unfold pinDataReady at h
  split at h
  · exact absurd (congrArg List.length h) (by simp)
  · exact (Prod.mk.inj (List.cons.inj h).1).2.symm

/-- A buffer gets the number of its own SOF, or without a timestamp that of the last
one. Numbers are of 32 bits. -/
theorem completed_sequence (s : SofStream) (evs : List Event) (hpos : ∀ ts ∈ sofs evs, ts ≠ 0)
    (hnodup : (sofs evs).Nodup) :
    ∀ pin pinAddr time errorCheck b n,
      (step (evs.foldl step (prepareStream s)) (.pinDataReady pin pinAddr time errorCheck)).completed =
        (b, n) :: (evs.foldl step (prepareStream s)).completed →
      (∀ k < 2 ^ 32, (sofs evs)[k]? = some time → (sofs evs).length ≤ k + 2 → n = k) ∧
        (time = 0 → 0 < (sofs evs).length → n = ((sofs evs).length - 1) % 2 ^ 32) := by
  intro pin pinAddr time errorCheck b n h
  have htracks := (Tracks.prepare s).run evs
  rw [List.nil_append] at htracks
  obtain rfl := completed_getSofSequence h
  constructor
  · intro k hk hsof hlen
    rw [htracks.getSofSequence hnodup hsof hlen (hpos time (List.mem_of_getElem? hsof)),
      Nat.mod_eq_of_lt hk]
  · rintro rfl hseen
    rw [getSofSequence, if_pos rfl, htracks.readSequence hseen]

/-- One buffer is active on the first pin. -/
def sampleStream : SofStream where
  sequence := 7
  seq := fun _ => ⟨3, 100⟩
  seqIndex := 1
  outputPinsQueue := fun pin => if pin = 0 then some 0 else none
  bufs := ⟨fun _ => [], fun _ => [⟨0, 0, 0x1000⟩], {⟨0, 0, 0x1000⟩}, []⟩
  completed := []

theorem completed_sequence_sample :
    (∀ ts ∈ sofs [.frameSof 100, .frameSof 200], ts ≠ 0) ∧ (sofs [.frameSof 100, .frameSof 200]).Nodup ∧
      (step ([.frameSof 100, .frameSof 200].foldl step (prepareStream sampleStream))
        (.pinDataReady 0 0x1000 100 false)).completed = [(⟨0, 0, 0x1000⟩, 0)] ∧
      (step ([.frameSof 100, .frameSof 200].foldl step (prepareStream sampleStream))
        (.pinDataReady 0 0x1000 0 false)).completed = [(⟨0, 0, 0x1000⟩, 1)] ∧
      (∀ k < 2 ^ 32, [100, 200][k]? = some 100 → 2 ≤ k + 2 → 0 = k) ∧ 1 = (2 - 1) % 2 ^ 32 := by
  have hpos : ∀ ts ∈ sofs [.frameSof 100, .frameSof 200], ts ≠ 0 := by decide
  have hnodup : (sofs [.frameSof 100, .frameSof 200]).Nodup := by decide
  have hown := completed_sequence sampleStream _ hpos hnodup 0 0x1000 100 false ⟨0, 0, 0x1000⟩ 0 rfl
  have hlast := completed_sequence sampleStream _ hpos hnodup 0 0x1000 0 false ⟨0, 0, 0x1000⟩ 1 rfl
  exact ⟨hpos, hnodup, rfl, rfl, hown.1, hlast.2 rfl (by decide)⟩

end Ipu4.Capture.Sequence
