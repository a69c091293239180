import Ipu4.Capture.Fifo
import Ipu4.Capture.Serves

/-!
# Taking buffers back after a failed start

`buffer_list_get` takes a queue's buffers from the end of its incoming list, and
`buf_queue` puts new ones at its head, so the oldest is taken first. The active list
also has its newest buffer at the head. `flush_firmware_streamon_fail` goes through it
from there and puts each buffer at the head of the incoming list: what was active
comes after what was not, the newest first.
-/

namespace Ipu4.Capture

-- ---------------------------------------------------------------------------
-- The order of taking
-- ---------------------------------------------------------------------------

/-- What `n` calls of `buffer_list_get` take from queue `i`. -/
def takes (i : Nat) : Nat → Bufs → List Buffer
  | 0, _ => []
  | n + 1, q =>
    match bufferListGet q [i] [] with
    | (_, none) => []
    | (q, some bl) => bl ++ takes i n q

/-- All buffers of the incoming list, in the order in which they will be taken. -/
def takeOrder (q : Bufs) (i : Nat) : List Buffer := takes i (q.incoming i).length q

/-- What was active will be taken before what was waiting, the oldest first. -/
def OrderKept (q q' : Bufs) (i : Nat) : Prop :=
  takeOrder q' i = (q.active i).reverse ++ takeOrder q i

instance (q q' : Bufs) (i : Nat) : Decidable (OrderKept q q' i) := inferInstanceAs (Decidable (_ = _))

theorem takes_eq (i n : Nat) (q : Bufs) : takes i n q = (q.incoming i).reverse.take n := by
  induction n generalizing q with
  | zero => rfl
  | succ n ih =>
    simp only [takes, bufferListGet]
    cases hlast : (q.incoming i).getLast? with
    | none => simp [List.getLast?_eq_none_iff.mp hlast]
    | some b =>
      obtain ⟨l, hl⟩ := List.getLast?_eq_some_iff.mp hlast
      simp [ih, incoming_setIncoming, hl]

@[simp] theorem takeOrder_eq (q : Bufs) (i : Nat) : takeOrder q i = (q.incoming i).reverse := by
  simp [takeOrder, takes_eq]

section
variable {q q' : Bufs} {bl : List Buffer} {queues : List Nat}

-- ---------------------------------------------------------------------------
-- The flush
-- ---------------------------------------------------------------------------

theorem incoming_unload (streaming : Bool) (i : Nat) (l : List Buffer) (q : Bufs) (j : Nat) :
    (Interleaved.unload streaming i l q).incoming j =
      if j = i ∧ streaming = true then l.reverse ++ q.incoming j else q.incoming j := by
  induction l generalizing q with
  | nil => simp [Interleaved.unload]
  | cons b l ih =>
    rw [Interleaved.unload_cons, ih]
    cases streaming with
    | false => simp [vb2BufferDone]
    | true =>
      by_cases hj : j = i
      · subst hj
        simp [incoming_setIncoming]
      · simp [hj, incoming_setIncoming_of_ne hj]

theorem incoming_flush (streaming : Nat → Bool) (queues : List Nat) (q : Bufs) (j : Nat) :
    (flushFirmwareStreamonFail streaming queues q).incoming j =
      if j ∈ queues ∧ streaming j = true then (q.active j).reverse ++ q.incoming j
      else q.incoming j := by
  unfold flushFirmwareStreamonFail
  induction queues generalizing q with
  | nil => simp
  | cons i is ih =>
    have hone : flushQueue streaming q i =
        Interleaved.unload (streaming i) i (q.active i) (q.setActive i []) := rfl
    rw [List.foldl_cons, ih, hone, incoming_unload, Interleaved.active_unload]
    by_cases hj : j = i
    · subst hj
      simp [Bufs.setActive]
    · simp [Bufs.setActive, hj]

theorem orderKept_iff (hlinked : (q.active i ++ q.incoming i).Nodup)
    (hflush : q'.incoming i = (q.active i).reverse ++ q.incoming i) :
    OrderKept q q' i ↔ q.active i = [] ∨ q.incoming i = [] ∧ (q.active i).length = 1 := by
  unfold OrderKept
  simp only [takeOrder_eq, hflush, List.reverse_append, List.reverse_reverse]
  generalize q.active i = act at hlinked ⊢
  generalize q.incoming i = inc at hlinked ⊢
  constructor
  · intro h
    cases act with
    | nil => exact .inl rfl
    | cons b act =>
      right
      cases hinc : inc.reverse with
      | cons c rest =>
        -- the first one taken was waiting, not active
        have hc : c ∈ inc := List.mem_reverse.mp (hinc ▸ List.mem_cons_self)
        have hhead := congrArg List.head? h
        rw [hinc, List.cons_append, List.head?_cons, List.head?_append_of_ne_nil _ (by simp)] at hhead
        have hact : c ∈ b :: act := List.mem_reverse.mp (List.mem_of_mem_head? hhead.symm)
        exact (List.disjoint_of_nodup_append hlinked hact hc).elim
      | nil =>
        refine ⟨List.reverse_eq_nil_iff.mp hinc, ?_⟩
        cases act with
        | nil => rfl
        | cons c act =>
          rw [hinc, List.append_nil, List.nil_append] at h
          have hlast := congrArg List.getLast? h
          rw [List.getLast?_reverse, List.getLast?_cons_cons] at hlast
          have hb : b ∈ c :: act := List.mem_of_getLast? hlast
          exact absurd hb (List.nodup_cons.mp (List.nodup_append.mp hlinked).1).1
  · rintro (rfl | ⟨rfl, hone⟩)
    · simp
    · obtain ⟨b, rfl⟩ := List.length_eq_one_iff.mp hone
      simp

/-- Every queue that streams keeps its order if and only if it had no active buffer,
or one and none waiting. -/
theorem flush_keeps_order_iff (streaming : Nat → Bool) (queues : List Nat) (q : Bufs)
    (hlinked : ∀ i ∈ queues, (q.active i ++ q.incoming i).Nodup) :
    (∀ i ∈ queues, streaming i = true →
      OrderKept q (flushFirmwareStreamonFail streaming queues q) i) ↔
      ∀ i ∈ queues, streaming i = true →
        q.active i = [] ∨ q.incoming i = [] ∧ (q.active i).length = 1 := by
  refine forall₃_congr fun i hi hs => orderKept_iff (hlinked i hi) ?_
  rw [incoming_flush, if_pos ⟨hi, hs⟩]

end

/-- One queue with active buffers 0 to `n - 1`, the last one queued last. -/
def activeOnly (n : Nat) : Bufs where
  incoming := fun _ => []
  active := fun i => if i = 0 then (List.range n).reverse.map fun k => ⟨0, k, 4096 * k⟩ else []
  held := ∅
  returned := []

theorem flush_keeps_order_one :
    OrderKept (activeOnly 1) (flushFirmwareStreamonFail (fun _ => true) [0] (activeOnly 1)) 0 :=
  (flush_keeps_order_iff (fun _ => true) [0] (activeOnly 1) (by decide)).mpr (by decide) 0
    (by decide) rfl

/-- Of two active buffers the newer one is taken first. -/
theorem flush_reverses_two :
    ¬ ∀ (streaming : Nat → Bool) (queues : List Nat) (q : Bufs),
      (∀ i ∈ queues, (q.active i ++ q.incoming i).Nodup) → ∀ i ∈ queues, streaming i = true →
        OrderKept q (flushFirmwareStreamonFail streaming queues q) i := by
  intro h
  have hkept := h (fun _ => true) [0] (activeOnly 2) (by decide) 0 (by decide) rfl
  revert hkept
  decide

end Ipu4.Capture
