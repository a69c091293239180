import Mathlib.Data.Finset.Basic
import Mathlib.Data.Finset.Insert

/-!
# Buffer lists

Every video queue has two lists of buffers, `incoming` and `active`, and a set
of buffers for the firmware is collected in a list on the stack. These are the
functions of `ipu6-isys-queue.c` that move buffers between the three, and what
each does to the account of the buffers that vb2 has handed over.
-/

namespace Ipu4.Capture

/-- The pins at which a stream can have a queue. -/
def IPU6_ISYS_OUTPUT_PINS : Nat := 11

structure Buffer where
  queue : Nat
  index : Nat
  dmaAddr : Nat
  deriving DecidableEq, Repr

/-- The states a buffer is given back to vb2 in. -/
inductive VbState where
  | queued
  | done
  | error
  deriving DecidableEq, Repr

/-- The lists of the queues, head first. `held` are the buffers that vb2 has
handed over with `buf_queue` and not been given back. -/
structure Bufs where
  incoming : Nat → List Buffer
  active : Nat → List Buffer
  held : Finset Buffer
  returned : List (Buffer × VbState)

def Bufs.setIncoming (q : Bufs) (i : Nat) (l : List Buffer) : Bufs :=
  { q with incoming := Function.update q.incoming i l }

def Bufs.setActive (q : Bufs) (i : Nat) (l : List Buffer) : Bufs :=
  { q with active := Function.update q.active i l }

def vb2BufferDone (q : Bufs) (b : Buffer) (state : VbState) : Bufs :=
  { q with held := q.held.erase b, returned := (b, state) :: q.returned }

-- ---------------------------------------------------------------------------
-- Moving buffers
-- ---------------------------------------------------------------------------

/-- `IPU6_ISYS_BUFFER_LIST_FL_ACTIVE` and `IPU6_ISYS_BUFFER_LIST_FL_INCOMING`;
`IPU6_ISYS_BUFFER_LIST_FL_SET_STATE` is the state that goes with it. -/
inductive ListFlag where
  | active
  | incoming
  deriving DecidableEq, Repr

def listQueueOne (fl : ListFlag) (state : Option VbState) (q : Bufs) (b : Buffer) : Bufs :=
  let q := match fl with
    | .active => q.setActive b.queue (b :: q.active b.queue)
    | .incoming => q.setIncoming b.queue (q.incoming b.queue ++ [b])
  match state with
  | none => q
  | some state => vb2BufferDone q b state

def ipu6IsysBufferListQueue (q : Bufs) (fl : ListFlag) (state : Option VbState)
    (bl : List Buffer) : Bufs :=
  bl.foldl (listQueueOne fl state) q

/-- The last buffer of each queue, in front of those already in `bl`; if a
queue has none, `bl` goes back (`-ENODATA`). -/
def bufferListGet (q : Bufs) : List Nat → List Buffer → Bufs × Option (List Buffer)
  | [], bl => (q, some bl)
  | i :: is, bl =>
    match (q.incoming i).getLast? with
    | none => (ipu6IsysBufferListQueue q .incoming none bl, none)
    | some b => bufferListGet (q.setIncoming i (q.incoming i).dropLast) is (b :: bl)

/-- One queue of `flush_firmware_streamon_fail`. A queue that streams keeps its
buffers, the others are returned to the user. -/
def flushQueue (streaming : Nat → Bool) (q : Bufs) (i : Nat) : Bufs :=
  (q.active i).foldl (fun q b =>
    if streaming i then q.setIncoming i (b :: q.incoming i) else vb2BufferDone q b .queued)
    (q.setActive i [])

def flushFirmwareStreamonFail (streaming : Nat → Bool) (queues : List Nat) (q : Bufs) : Bufs :=
  queues.foldl (flushQueue streaming) q

def returnBuffers (q : Bufs) (i : Nat) (state : VbState) : Bufs :=
  let q := (q.incoming i).foldl (vb2BufferDone · · state) (q.setIncoming i [])
  (q.active i).foldl (vb2BufferDone · · state) (q.setActive i [])

/-- `ipu6_stream_buf_ready` on the queue of a pin: the oldest active buffer with
the address that the firmware reports. -/
def ipu6StreamBufReady (q : Bufs) (i pinAddr : Nat) (errorCheck : Bool) : Bufs :=
  match (q.active i).reverse.find? fun b => b.dmaAddr = pinAddr with
  | none => q
  | some b =>
    vb2BufferDone (q.setActive i ((q.active i).erase b)) b (if errorCheck then .error else .done)

-- ---------------------------------------------------------------------------
-- The account of the buffers
-- ---------------------------------------------------------------------------

/-- How often `b` is in the lists of queue `i`. -/
def Bufs.place (q : Bufs) (i : Nat) (b : Buffer) : Nat :=
  (q.incoming i).count b + (q.active i).count b

/-- Every held buffer is once in the lists of its own queue or in `bl`, and no
other buffer is in a list. -/
def Accounted (q : Bufs) (bl : List Buffer) : Prop :=
  ∀ i b, q.place i b + (if b.queue = i then bl.count b else 0) =
    if b.queue = i ∧ b ∈ q.held then 1 else 0

@[simp] theorem place_setIncoming (q : Bufs) (i j : Nat) (l : List Buffer) (b : Buffer) :
    (q.setIncoming i l).place j b =
      if j = i then l.count b + (q.active i).count b else q.place j b := by
  by_cases h : j = i
  · subst h
    simp [Bufs.place, Bufs.setIncoming]
  · simp [Bufs.place, Bufs.setIncoming, h]

@[simp] theorem place_setActive (q : Bufs) (i j : Nat) (l : List Buffer) (b : Buffer) :
    (q.setActive i l).place j b =
      if j = i then (q.incoming i).count b + l.count b else q.place j b := by
  by_cases h : j = i
  · subst h
    simp [Bufs.place, Bufs.setActive]
  · simp [Bufs.place, Bufs.setActive, h]

@[simp] theorem place_done (q : Bufs) (b c : Buffer) (state : VbState) (i : Nat) :
    (vb2BufferDone q b state).place i c = q.place i c := rfl

@[simp] theorem held_setIncoming (q : Bufs) (i : Nat) (l : List Buffer) :
    (q.setIncoming i l).held = q.held := rfl

@[simp] theorem held_setActive (q : Bufs) (i : Nat) (l : List Buffer) :
    (q.setActive i l).held = q.held := rfl

@[simp] theorem held_done (q : Bufs) (b : Buffer) (state : VbState) :
    (vb2BufferDone q b state).held = q.held.erase b := rfl

theorem incoming_setIncoming_of_ne (hj : j ≠ i) (q : Bufs) (l : List Buffer) :
    (q.setIncoming i l).incoming j = q.incoming j := by
  simp [Bufs.setIncoming, hj]

theorem incoming_setIncoming (q : Bufs) (i : Nat) (l : List Buffer) :
    (q.setIncoming i l).incoming i = l := by
  simp [Bufs.setIncoming]

section
variable {q q' : Bufs} {bl bl' : List Buffer} {b : Buffer}

theorem Accounted.mem (h : Accounted q bl) (hb : b ∈ q.incoming i ∨ b ∈ q.active i) :
    b.queue = i ∧ b ∈ q.held := by
  by_contra hno
  have h := h i b
  rw [if_neg hno] at h
  have hin : (q.incoming i).count b = 0 := by unfold Bufs.place at h; omega
  have hact : (q.active i).count b = 0 := by unfold Bufs.place at h; omega
  rcases hb with hb | hb
  · exact List.count_eq_zero.mp hin hb
  · exact List.count_eq_zero.mp hact hb

theorem Accounted.mem_stack (h : Accounted q bl) (hb : b ∈ bl) : b ∈ q.held := by
  by_contra hno
  have hplace := h b.queue b
  have := List.count_pos_iff.mpr hb
  simp only [if_true, hno, and_false, if_false] at hplace
  omega

/-- A held buffer is in no list. -/
def Missing (q : Bufs) : Prop := ∃ b ∈ q.held, ∀ i, b ∉ q.incoming i ∧ b ∉ q.active i

theorem Missing.not_accounted (h : Missing q) : ¬ Accounted q [] := by
  obtain ⟨b, hb, hout⟩ := h
  intro hacc
  have := hacc b.queue b
  simp [Bufs.place, List.count_eq_zero.mpr (hout b.queue).1, List.count_eq_zero.mpr (hout b.queue).2,
    hb] at this

theorem Accounted.missing (h : Accounted q bl) (hbl : bl ≠ []) : Missing q := by
  obtain ⟨b, hb⟩ := List.exists_mem_of_ne_nil bl hbl
  have hcount := List.count_pos_iff.mpr hb
  refine ⟨b, h.mem_stack hb, fun i => ?_⟩
  have hplace := h i b
  have hzero : q.place i b = 0 := by
    split at hplace <;> split at hplace <;> omega
  unfold Bufs.place at hzero
  exact ⟨List.count_eq_zero.mp (by omega), List.count_eq_zero.mp (by omega)⟩

theorem place_queueOne (fl : ListFlag) (state : Option VbState) (q : Bufs) (b c : Buffer)
    (i : Nat) :
    (listQueueOne fl state q b).place i c = q.place i c + if b.queue = i ∧ b = c then 1 else 0 := by
  cases fl <;> cases state
  all_goals
    simp only [listQueueOne, place_setActive, place_setIncoming, place_done, List.count_append,
      List.count_cons, List.count_nil, beq_iff_eq]
    by_cases hi : i = b.queue
    · subst hi
      simp only [Bufs.place, if_true, true_and]
      omega
    · simp [hi, Ne.symm hi]

theorem place_queue (q : Bufs) (fl : ListFlag) (state : Option VbState) (bl : List Buffer)
    (i : Nat) (c : Buffer) :
    (ipu6IsysBufferListQueue q fl state bl).place i c =
      q.place i c + if c.queue = i then bl.count c else 0 := by
  induction bl generalizing q with
  | nil => simp [ipu6IsysBufferListQueue]
  | cons b bl ih =>
    refine (ih (listQueueOne fl state q b)).trans ?_
    rw [place_queueOne, List.count_cons]
    by_cases hbc : b = c
    · subst hbc
      by_cases hi : b.queue = i <;> simp [hi]
      omega
    · simp [hbc]

theorem held_queue (q : Bufs) (fl : ListFlag) (bl : List Buffer) :
    (ipu6IsysBufferListQueue q fl none bl).held = q.held := by
  induction bl generalizing q with
  | nil => rfl
  | cons b bl ih =>
    refine (ih (listQueueOne fl none q b)).trans ?_
    cases fl <;> rfl

theorem held_queue_done (q : Bufs) (fl : ListFlag) (state : VbState) (bl : List Buffer) :
    (ipu6IsysBufferListQueue q fl (some state) bl).held = q.held \ bl.toFinset := by
  induction bl generalizing q with
  | nil => simp [ipu6IsysBufferListQueue]
  | cons b bl ih =>
    refine (ih (listQueueOne fl (some state) q b)).trans ?_
    have hone : (listQueueOne fl (some state) q b).held = q.held.erase b := by cases fl <;> rfl
    rw [hone, List.toFinset_cons, Finset.sdiff_insert, Finset.erase_sdiff_comm]

theorem Accounted.queue (h : Accounted q bl) (fl : ListFlag) :
    Accounted (ipu6IsysBufferListQueue q fl none bl) [] := by
  intro i c
  simpa [place_queue, held_queue] using h i c

theorem place_take (hb : (q.incoming i).getLast? = some b) (j : Nat) (c : Buffer) :
    (q.setIncoming i (q.incoming i).dropLast).place j c + (if i = j ∧ b = c then 1 else 0) =
      q.place j c := by
  rw [place_setIncoming]
  by_cases hi : j = i
  · subst hi
    obtain ⟨l, hl⟩ := List.getLast?_eq_some_iff.mp hb
    simp only [hl, Bufs.place, if_true, true_and, List.dropLast_concat, List.count_append,
      List.count_singleton, beq_iff_eq]
    omega
  · simp [hi, Ne.symm hi]

theorem Accounted.take (h : Accounted q bl) (hb : (q.incoming i).getLast? = some b) :
    Accounted (q.setIncoming i (q.incoming i).dropLast) (b :: bl) := by
  obtain ⟨rfl, -⟩ := h.mem (.inl (List.mem_of_getLast? hb))
  intro j c
  have h := h j c
  rw [← place_take hb] at h
  rw [held_setIncoming, ← h, List.count_cons]
  by_cases hbc : b = c
  · subst hbc
    by_cases hi : b.queue = j <;> simp [hi]
    omega
  · simp [hbc]

theorem Accounted.get (h : Accounted q bl) (hget : bufferListGet q is bl = (q', r)) :
    Accounted q' (r.getD []) := by
  induction is generalizing q bl with
  | nil =>
    obtain ⟨rfl, rfl⟩ := Prod.mk.inj hget
    exact h
  | cons i is ih =>
    simp only [bufferListGet] at hget
    split at hget
    · obtain ⟨rfl, rfl⟩ := Prod.mk.inj hget
      exact h.queue .incoming
    next hb => exact ih (h.take hb) hget

theorem Accounted.done (h : Accounted q (b :: bl)) (state : VbState) :
    Accounted (vb2BufferDone q b state) bl := by
  intro i c
  have h := h i c
  simp only [place_done, held_done, Finset.mem_erase]
  by_cases hbc : b = c
  · subst hbc
    by_cases hi : b.queue = i
    · simp only [hi, if_true, true_and, List.count_cons_self] at h
      simp only [hi, ne_eq, not_true, false_and, and_false, if_true, if_false]
      split at h <;> omega
    · simpa [hi] using h
  · simpa [hbc, Ne.symm hbc, List.count_cons] using h

theorem Accounted.done_all {l : List Buffer} (h : Accounted q (l ++ bl)) (state : VbState) :
    Accounted (l.foldl (vb2BufferDone · · state) q) bl := by
  induction l generalizing q with
  | nil => exact h
  | cons b l ih => exact ih (h.done state)

/-- The lists of a queue only hold its own buffers, so whatever is taken out of
them is accounted for on the stack. -/
theorem Accounted.unload {l : List Buffer} (h : Accounted q bl) (hl : ∀ c ∈ l, c.queue = i)
    (hplace : ∀ j c, q'.place j c + (if i = j then l.count c else 0) = q.place j c)
    (hheld : q'.held = q.held) : Accounted q' (l ++ bl) := by
  intro j c
  have h := h j c
  rw [← hplace j c] at h
  simp only [hheld, List.count_append]
  by_cases hc : c ∈ l
  · obtain rfl := hl c hc
    rw [← h]
    split <;> omega
  · rw [← h, List.count_eq_zero.mpr hc]
    simp

theorem Accounted.unload_active (h : Accounted q bl) (i : Nat) :
    Accounted (q.setActive i []) (q.active i ++ bl) := by
  refine h.unload (fun c hc => (h.mem (.inr hc)).1) (fun j c => ?_) rfl
  by_cases hj : i = j
  · subst hj
    rw [place_setActive, if_pos rfl, if_pos rfl, List.count_nil]
    rfl
  · simp [hj, Ne.symm hj]

theorem Accounted.unload_incoming (h : Accounted q bl) (i : Nat) :
    Accounted (q.setIncoming i []) (q.incoming i ++ bl) := by
  refine h.unload (fun c hc => (h.mem (.inl hc)).1) (fun j c => ?_) rfl
  by_cases hj : i = j
  · subst hj
    rw [place_setIncoming, if_pos rfl, if_pos rfl, List.count_nil, Nat.zero_add, Nat.add_comm]
    rfl
  · simp [hj, Ne.symm hj]

theorem Accounted.returnBuffers (h : Accounted q bl) (i : Nat) (state : VbState) :
    Accounted (returnBuffers q i state) bl :=
  (((h.unload_incoming i).done_all state).unload_active i).done_all state

theorem Accounted.bufReady (h : Accounted q bl) (i pinAddr : Nat) (errorCheck : Bool) :
    Accounted (ipu6StreamBufReady q i pinAddr errorCheck) bl := by
  unfold ipu6StreamBufReady
  split
  · exact h
  next b hb =>
    have hmem : b ∈ q.active i := List.mem_reverse.mp (List.mem_of_find?_eq_some hb)
    have htake : Accounted (q.setActive i ((q.active i).erase b)) ([b] ++ bl) := by
      refine h.unload (i := i) (fun c hc => ?_) (fun j c => ?_) rfl
      · obtain rfl := List.mem_singleton.mp hc
        exact (h.mem (.inr hmem)).1
      · by_cases hj : i = j
        · subst hj
          have := List.count_pos_iff.mpr hmem
          rw [place_setActive, if_pos rfl, if_pos rfl, List.count_erase, List.count_singleton]
          show _ = (q.incoming i).count c + (q.active i).count c
          by_cases hbc : b = c
          · subst hbc
            simp only [beq_self_eq_true, if_true]
            omega
          · simp [hbc]
        · simp [hj, Ne.symm hj]
    exact htake.done _

theorem Accounted.push (h : Accounted q (b :: bl)) :
    Accounted (q.setIncoming b.queue (b :: q.incoming b.queue)) bl := by
  intro i c
  have h := h i c
  rw [held_setIncoming, ← h, place_setIncoming, List.count_cons, List.count_cons]
  by_cases hi : b.queue = i
  · subst hi
    by_cases hbc : b = c
    · subst hbc
      simp [Bufs.place]
      omega
    · simp [hbc, Bufs.place]
  · by_cases hbc : b = c
    · subst hbc
      simp [hi, Ne.symm hi]
    · simp [hbc, Ne.symm hi]

theorem Accounted.flushQueue (h : Accounted q bl) (streaming : Nat → Bool) (i : Nat) :
    Accounted (flushQueue streaming q i) bl := by
  unfold Capture.flushQueue
  have hun := h.unload_active i
  have hown : ∀ c ∈ q.active i, c.queue = i := fun c hc => (h.mem (.inr hc)).1
  generalize q.active i = l at hun hown
  generalize q.setActive i [] = q at hun
  induction l generalizing q with
  | nil => exact hun
  | cons b l ih =>
    rw [List.foldl_cons]
    obtain ⟨rfl, hown⟩ := List.forall_mem_cons.mp hown
    refine ih hown _ ?_
    split
    · exact hun.push
    · exact hun.done _

theorem Accounted.flush (h : Accounted q bl) (streaming : Nat → Bool) (queues : List Nat) :
    Accounted (flushFirmwareStreamonFail streaming queues q) bl := by
  induction queues generalizing q with
  | nil => exact h
  | cons i queues ih => exact ih (h.flushQueue streaming i)

theorem Missing.done_all {l : List Buffer} (hb : b ∈ q.held) (hl : b ∉ l)
    (hout : ∀ i, b ∉ q.incoming i ∧ b ∉ q.active i) (state : VbState) :
    b ∈ (l.foldl (vb2BufferDone · · state) q).held ∧
      ∀ i, b ∉ (l.foldl (vb2BufferDone · · state) q).incoming i ∧
        b ∉ (l.foldl (vb2BufferDone · · state) q).active i := by
  induction l generalizing q with
  | nil => exact ⟨hb, hout⟩
  | cons c l ih =>
    obtain ⟨hc, hl⟩ := not_or.mp (mt List.mem_cons.mpr hl)
    exact ih (q := vb2BufferDone q c state) (Finset.mem_erase.mpr ⟨hc, hb⟩) hl hout

theorem not_mem_update_nil {f : Nat → List Buffer} (h : ∀ j, b ∉ f j) (i j : Nat) :
    b ∉ Function.update f i [] j := by
  by_cases hj : j = i
  · subst hj
    simp
  · rw [Function.update_of_ne hj]
    exact h j

theorem Missing.returnBuffers (h : Missing q) (i : Nat) (state : VbState) :
    Missing (returnBuffers q i state) := by
  obtain ⟨b, hb, hout⟩ := h
  obtain ⟨hb₁, hout₁⟩ := Missing.done_all (q := q.setIncoming i []) hb (hout i).1
    (fun j => ⟨not_mem_update_nil (fun j => (hout j).1) i j, (hout j).2⟩) state
  generalize hq₁ : (q.incoming i).foldl (vb2BufferDone · · state) (q.setIncoming i []) = q₁
  rw [hq₁] at hb₁ hout₁
  have hlast := Missing.done_all (q := q₁.setActive i []) hb₁ (hout₁ i).2
    (fun j => ⟨(hout₁ j).1, not_mem_update_nil (fun j => (hout₁ j).2) i j⟩) state
  subst hq₁
  exact ⟨b, hlast⟩

/-- A buffer that has been given back waits in a list. -/
def Leaked (q : Bufs) : Prop := ∃ b, b ∉ q.held ∧ b ∈ q.incoming b.queue

theorem Leaked.not_accounted (h : Leaked q) : ¬ Accounted q bl := by
  obtain ⟨b, hno, hmem⟩ := h
  exact fun hacc => hno (hacc.mem (.inl hmem)).2

theorem mem_incoming_queue (h : b ∈ bl ∨ b ∈ q.incoming b.queue) (state : Option VbState) :
    b ∈ (ipu6IsysBufferListQueue q .incoming state bl).incoming b.queue := by
  induction bl generalizing q with
  | nil => simpa [ipu6IsysBufferListQueue] using h
  | cons c bl ih =>
    have hone : ∀ d, d = c ∨ d ∈ q.incoming d.queue →
        d ∈ (listQueueOne .incoming state q c).incoming d.queue := by
      intro d hd
      have hin : (listQueueOne .incoming state q c).incoming =
          (q.setIncoming c.queue (q.incoming c.queue ++ [c])).incoming := by cases state <;> rfl
      rw [hin]
      by_cases hq : d.queue = c.queue
      · rw [hq, incoming_setIncoming]
        rcases hd with rfl | hd
        · simp
        · exact List.mem_append_left _ (hq ▸ hd)
      · rcases hd with rfl | hd
        · exact absurd rfl hq
        · rwa [incoming_setIncoming_of_ne hq]
    refine ih (q := listQueueOne .incoming state q c) ?_
    rcases h with h | h
    · rcases List.mem_cons.mp h with rfl | h
      · exact .inr (hone b (.inl rfl))
      · exact .inl h
    · exact .inr (hone b (.inr h))

theorem leaked_queue_done (hbl : bl ≠ []) (q : Bufs) (state : VbState) :
    Leaked (ipu6IsysBufferListQueue q .incoming (some state) bl) := by
  obtain ⟨b, hb⟩ := List.exists_mem_of_ne_nil bl hbl
  exact ⟨b, by simp [held_queue_done, hb], mem_incoming_queue (.inl hb) _⟩

theorem Leaked.flushQueue (h : Leaked q) (streaming : Nat → Bool) (i : Nat) :
    Leaked (flushQueue streaming q i) := by
  unfold Capture.flushQueue
  have hun : Leaked (q.setActive i []) := h
  generalize q.active i = l
  generalize q.setActive i [] = q at hun
  induction l generalizing q with
  | nil => exact hun
  | cons c l ih =>
    rw [List.foldl_cons]
    refine ih _ ?_
    obtain ⟨b, hno, hmem⟩ := hun
    split
    · refine ⟨b, hno, ?_⟩
      by_cases hb : b.queue = i
      · subst hb
        rw [incoming_setIncoming]
        exact List.mem_cons_of_mem _ hmem
      · rwa [incoming_setIncoming_of_ne hb]
    · exact ⟨b, fun hb => hno (Finset.mem_of_mem_erase hb), hmem⟩

theorem Leaked.flush (h : Leaked q) (streaming : Nat → Bool) (queues : List Nat) :
    Leaked (flushFirmwareStreamonFail streaming queues q) := by
  induction queues generalizing q with
  | nil => exact h
  | cons i queues ih => exact ih (h.flushQueue streaming i)

theorem Accounted.handOver (h : Accounted q bl) (hb : b ∉ q.held) :
    Accounted { q with held := insert b q.held } (b :: bl) := by
  intro i c
  have h := h i c
  show q.place i c + _ = _
  simp only [Finset.mem_insert, List.count_cons]
  by_cases hbc : b = c
  · subst hbc
    simp only [hb, and_false, if_false] at h
    by_cases hi : b.queue = i
    · simp only [hi, if_true, true_and, true_or, beq_self_eq_true] at h ⊢
      omega
    · simp only [hi, if_false, false_and] at h ⊢
      exact h
  · simpa [hbc, Ne.symm hbc] using h

end

-- ---------------------------------------------------------------------------
-- When a set is complete
-- ---------------------------------------------------------------------------

theorem incoming_queue_active (q : Bufs) (state : Option VbState) (bl : List Buffer) :
    (ipu6IsysBufferListQueue q .active state bl).incoming = q.incoming := by
  induction bl generalizing q with
  | nil => rfl
  | cons b bl ih =>
    refine (ih (listQueueOne .active state q b)).trans ?_
    cases state <;> rfl

theorem bufferListGet_none (hnd : is.Nodup) (hget : bufferListGet q is bl = (q', none)) :
    ∃ i ∈ is, q.incoming i = [] := by
  induction is generalizing q bl with
  | nil => cases hget
  | cons i is ih =>
    obtain ⟨hi, hnd⟩ := List.nodup_cons.mp hnd
    simp only [bufferListGet] at hget
    split at hget
    next hlast => exact ⟨i, List.mem_cons_self, List.getLast?_eq_none_iff.mp hlast⟩
    · obtain ⟨j, hj, hempty⟩ := ih hnd hget
      rw [incoming_setIncoming_of_ne (by rintro rfl; exact hi hj)] at hempty
      exact ⟨j, List.mem_cons_of_mem _ hj, hempty⟩

theorem mem_of_mem_dropLast_update {q : Bufs} {i : Nat}
    (hb : b ∈ (q.setIncoming i (q.incoming i).dropLast).incoming j) : b ∈ q.incoming j := by
  by_cases hj : j = i
  · subst hj
    rw [incoming_setIncoming] at hb
    exact List.mem_of_mem_dropLast hb
  · rwa [incoming_setIncoming_of_ne hj] at hb

theorem bufferListGet_none_eq (hown : ∀ i, ∀ b ∈ q.incoming i, b.queue = i)
    (hget : bufferListGet q is bl = (q', none)) :
    q' = ipu6IsysBufferListQueue q .incoming none bl := by
  induction is generalizing q bl with
  | nil => cases hget
  | cons i is ih =>
    simp only [bufferListGet] at hget
    split at hget
    · exact (Prod.mk.inj hget).1.symm
    next b hb =>
      rw [ih (fun j c hc => hown j c (mem_of_mem_dropLast_update hc)) hget]
      have hback : listQueueOne .incoming none (q.setIncoming i (q.incoming i).dropLast) b = q := by
        have hqueue := hown i b (List.mem_of_getLast? hb)
        simp only [listQueueOne, hqueue, incoming_setIncoming, List.dropLast_append_getLast? b hb]
        simp [Bufs.setIncoming]
      rw [ipu6IsysBufferListQueue, List.foldl_cons, hback]
      rfl

theorem bufferListGet_incoming (hget : bufferListGet q is bl = (q', some bl'))
    (hb : b ∈ q'.incoming j) : b ∈ q.incoming j := by
  induction is generalizing q bl with
  | nil =>
    obtain ⟨rfl, -⟩ := Prod.mk.inj hget
    exact hb
  | cons i is ih =>
    simp only [bufferListGet] at hget
    split at hget
    · cases hget
    · exact mem_of_mem_dropLast_update (ih hget)

theorem bufferListGet_some (hnd : is.Nodup) (hget : bufferListGet q is bl = (q', some bl')) :
    bl'.length = is.length + bl.length ∧ (∀ j ∉ is, q'.incoming j = q.incoming j) ∧
      ∀ i ∈ is, (q'.incoming i).length + 1 = (q.incoming i).length := by
  induction is generalizing q bl with
  | nil =>
    obtain ⟨rfl, hbl⟩ := Prod.mk.inj hget
    obtain rfl := Option.some.inj hbl
    simp
  | cons i is ih =>
    obtain ⟨hi, hnd⟩ := List.nodup_cons.mp hnd
    simp only [bufferListGet] at hget
    split at hget
    · cases hget
    next b hb =>
      obtain ⟨hlen, hother, hless⟩ := ih hnd hget
      refine ⟨by simp only [List.length_cons] at hlen ⊢; omega, fun j hj => ?_, fun j hj => ?_⟩
      · obtain ⟨hji, hj⟩ := not_or.mp (mt List.mem_cons.mpr hj)
        rw [hother j hj, incoming_setIncoming_of_ne hji]
      · rcases List.mem_cons.mp hj with rfl | hmem
        · have hne : q.incoming j ≠ [] := by
            intro hnil
            simp [hnil] at hb
          have := List.length_pos_iff.mpr hne
          rw [hother j hi, incoming_setIncoming, List.length_dropLast]
          omega
        · have := hless j hmem
          rwa [incoming_setIncoming_of_ne (by rintro rfl; exact hi hmem)] at this

end Ipu4.Capture
