import Mathlib.Algebra.Group.Int.Defs
import Mathlib.Algebra.GroupWithZero.Nat
import Ipu4.Capture.Bufs
import Ipu4.Lib.Logged
import Ipu4.Lib.Text

/-!
# The dump of the buffer lists

`_dump_queue_info` prints the indexes of a list into an array of 64 bytes. The
length counts what a text would have taken, so it may pass the end of the array;
the next size then wraps and nothing more is printed. What is left is the
terminator two bytes before the length.
-/

namespace Ipu4.Capture.Dump

open Logged Text

inductive Array
  | incomingBuffer
  | activeBuffer
  deriving DecidableEq, Repr

/-- A byte written, at its offset from the start of an array. -/
structure Write where
  array : Array
  pos : Nat
  deriving DecidableEq, Repr

def bufferSize : Nat := 64
def INT_MAX : Nat := 2 ^ 31 - 1

/-- `snprintf` at an offset of an array, to at most `size` bytes with the terminator. -/
def snprintf (array : Array) (pos size : Nat) (text : Text) : Logged Write Nat :=
  if size > INT_MAX then pure 0
  else ⟨text.length, (List.range (min (text.length + 1) size)).map fun k => ⟨array, pos + k⟩⟩

/-- `"%d, "` of an unsigned index. -/
def indexText (index : Nat) : Text :=
  (if index % 2 ^ 32 < 2 ^ 31 then dec (index % 2 ^ 32) else '-' :: dec (2 ^ 32 - index % 2 ^ 32)) ++ [',', ' ']

/-- `sizeof(buffer) - len`, in a `size_t`. -/
def sizeLeft (len : Nat) : Nat := if len ≤ bufferSize then bufferSize - len else 2 ^ 64 + bufferSize - len

def printList (array : Array) : List Buffer → Nat → Logged Write Nat
  | [], len => pure len
  | ib :: ibs, len => do
    let ret ← snprintf array len (sizeLeft len) (indexText ib.index)
    printList array ibs ((len + ret) % 2 ^ 64)

def dumpList (array : Array) (ibs : List Buffer) : Logged Write Unit := do
  let len ← printList array ibs 0
  if len > 2 then
    emit ⟨array, len - 2⟩

/-- `_dump_queue_info` on the queue of a video device. -/
def dumpQueueInfo (q : Bufs) (aq : Nat) : Logged Write Unit := do
  dumpList .incomingBuffer (q.incoming aq)
  dumpList .activeBuffer (q.active aq)

def textLength (ibs : List Buffer) : Nat := (ibs.map fun ib => (indexText ib.index).length).sum

/-- No index takes a list that fits the array to more than one byte past its end. -/
def StopsInTime (ibs : List Buffer) : Prop :=
  ∀ k < ibs.length, textLength (ibs.take k) ≤ 64 → textLength (ibs.take (k + 1)) ≤ 65

-- ---------------------------------------------------------------------------
-- Texts
-- ---------------------------------------------------------------------------

theorem length_dec_le (h : n < 10 ^ k) (hk : 0 < k) : (dec n).length ≤ k :=
  (Nat.length_toDigits_le_iff (by decide) hk).mpr h

theorem length_indexText (index : Nat) :
    3 ≤ (indexText index).length ∧ (indexText index).length ≤ 13 := by
  have hpos (n : Nat) : 0 < (dec n).length := Nat.length_toDigits_pos
  unfold indexText
  split
  · have hle := length_dec_le (n := index % 2 ^ 32) (k := 10) (by omega) (by decide)
    have hlt := hpos (index % 2 ^ 32)
    simp only [List.length_append, List.length_cons, List.length_nil]
    omega
  · have hle := length_dec_le (n := 2 ^ 32 - index % 2 ^ 32) (k := 10) (by omega) (by decide)
    have hlt := hpos (2 ^ 32 - index % 2 ^ 32)
    simp only [List.length_append, List.length_cons, List.length_nil]
    omega

theorem textLength_cons (ib : Buffer) (ibs : List Buffer) :
    textLength (ib :: ibs) = (indexText ib.index).length + textLength ibs := by
  simp [textLength]

-- ---------------------------------------------------------------------------
-- One list
-- ---------------------------------------------------------------------------

def Inside (w : Write) : Prop := w.pos < bufferSize

theorem snprintf_inside (array : Array) (text : Text) (h : len ≤ bufferSize) :
    (snprintf array len (sizeLeft len) text).val = text.length ∧
      All Inside (snprintf array len (sizeLeft len) text) := by
  have hleft : sizeLeft len = bufferSize - len := if_pos h
  have hsize : ¬ bufferSize - len > INT_MAX := Nat.not_lt.mpr ((Nat.sub_le _ _).trans (by decide))
  rw [hleft, snprintf, if_neg hsize]
  refine ⟨rfl, fun w hw => ?_⟩
  obtain ⟨k, hk, rfl⟩ := List.mem_map.mp hw
  have hlt := List.mem_range.mp hk
  simp only [Inside]
  omega

theorem snprintf_past (array : Array) (text : Text) (h : bufferSize < len) (hlen : len ≤ bufferSize + 13) :
    snprintf array len (sizeLeft len) text = pure 0 := by
  have hleft : sizeLeft len = 2 ^ 64 + bufferSize - len := if_neg (Nat.not_le.mpr h)
  refine if_pos ?_
  rw [hleft, INT_MAX]
  omega

theorem printList_past (array : Array) (ibs : List Buffer) (h : bufferSize < len) (hlen : len ≤ bufferSize + 13) :
    printList array ibs len = pure len := by
  induction ibs with
  | nil => rfl
  | cons ib ibs ih =>
    have hmod : (len + 0) % 2 ^ 64 = len := Nat.mod_eq_of_lt (by rw [bufferSize] at hlen; omega)
    rw [printList, snprintf_past array _ h hlen]
    change printList array ibs ((len + 0) % 2 ^ 64) = pure len
    rw [hmod, ih]

theorem printList_spec (array : Array) (ibs : List Buffer) (h : len ≤ bufferSize) :
    All Inside (printList array ibs len) ∧
      ((printList array ibs len).val ≤ bufferSize + 1 ↔
        ∀ k < ibs.length, len + textLength (ibs.take k) ≤ bufferSize →
          len + textLength (ibs.take (k + 1)) ≤ bufferSize + 1) := by
  induction ibs generalizing len with
  | nil => simp [printList]; omega
  | cons ib ibs ih =>
    obtain ⟨hval, hin⟩ := snprintf_inside array (indexText ib.index) h
    have hlen := length_indexText ib.index
    have hmod : (len + (indexText ib.index).length) % 2 ^ 64 = len + (indexText ib.index).length :=
      Nat.mod_eq_of_lt (by rw [bufferSize] at h; omega)
    simp only [printList, all_bind, val_bind, hval, hmod]
    have htail : (∀ k < (ib :: ibs).length, len + textLength ((ib :: ibs).take k) ≤ bufferSize →
        len + textLength ((ib :: ibs).take (k + 1)) ≤ bufferSize + 1) ↔
          len + (indexText ib.index).length ≤ bufferSize + 1 ∧
            ∀ k < ibs.length, len + (indexText ib.index).length + textLength (ibs.take k) ≤ bufferSize →
              len + (indexText ib.index).length + textLength (ibs.take (k + 1)) ≤ bufferSize + 1 := by
      rw [List.length_cons, Nat.forall_lt_succ_left]
      simp only [List.take_succ_cons, List.take_zero, textLength_cons, ← Nat.add_assoc]
      simp [textLength, h]
    rw [htail]
    by_cases hfits : len + (indexText ib.index).length ≤ bufferSize
    · obtain ⟨hrest, hiff⟩ := ih hfits
      exact ⟨⟨hin, hrest⟩, hiff.trans (and_iff_right (by omega)).symm⟩
    · rw [printList_past array ibs (by omega) (by omega)]
      refine ⟨⟨hin, all_pure _⟩, (and_iff_left_of_imp fun _ k _ hk => ?_).symm⟩
      omega

theorem dumpList_inside_iff (array : Array) (ibs : List Buffer) :
    All Inside (dumpList array ibs) ↔ StopsInTime ibs := by
  obtain ⟨hin, hiff⟩ := printList_spec array ibs (Nat.zero_le _)
  simp only [Nat.zero_add] at hiff
  have hstops : StopsInTime ibs ↔ (printList array ibs 0).val ≤ bufferSize + 1 := hiff.symm
  rw [hstops, dumpList, all_bind, all_ite, all_emit]
  simp only [hin, true_and, all_pure, implies_true, and_true, Inside, bufferSize]
  omega

/-- Every write of a dump falls inside its array if and only if each list stops in
time. -/
theorem dump_inside_iff (q : Bufs) (aq : Nat) :
    (∀ w ∈ (dumpQueueInfo q aq).log, w.pos < 64) ↔
      StopsInTime (q.incoming aq) ∧ StopsInTime (q.active aq) := by
  have hall : (∀ w ∈ (dumpQueueInfo q aq).log, w.pos < 64) ↔ All Inside (dumpQueueInfo q aq) := Iff.rfl
  rw [hall, dumpQueueInfo, all_bind, dumpList_inside_iff, dumpList_inside_iff]

/-- Nineteen buffers, queued in the order of their indexes. -/
def nineteen : Bufs where
  incoming := fun _ => (List.range 19).map fun index => ⟨0, index, 0⟩
  active := fun _ => []
  held := ∅
  returned := []

/-- The terminator is written right behind the array. -/
theorem dump_past_end : ¬ ∀ w ∈ (dumpQueueInfo nineteen 0).log, w.pos < 64 := by
  intro h
  exact absurd (h ⟨.incomingBuffer, 64⟩ (by decide +kernel)) (by decide)

end Ipu4.Capture.Dump
