import Mathlib.Data.List.Basic

/-!
# Circular token buffers

A ring has `size` slots and two cursors. The slots from the read cursor up
to the write cursor hold the outstanding tokens, oldest first, and one slot
stays free so that equal cursors mean empty. `contents` is the list a ring
stands for; storing into the free slot leaves it alone, advancing the write
cursor appends the stored token, advancing the read cursor drops the oldest.
-/

namespace Ipu4

/-- Slots and the two cursors. The size is a parameter of the operations. -/
structure Ring (τ : Type) where
  slots : Nat → τ
  wr : Nat
  rd : Nat

namespace Ring

/-- The cursor after `i`, wrapping to zero at `size`. -/
def next (size i : Nat) : Nat := if size ≤ i + 1 then 0 else i + 1

/-- Outstanding tokens between the two cursors. -/
def count (size wr rd : Nat) : Nat := if wr < rd then wr + size - rd else wr - rd

/-- The slot `k` places after the read cursor. -/
def slotAt (size rd k : Nat) : Nat := if rd + k < size then rd + k else rd + k - size

variable {size : Nat} {r : Ring τ}

/-- Both cursors are slot numbers. -/
structure Ok (size : Nat) (r : Ring τ) : Prop where
  wr_lt : r.wr < size
  rd_lt : r.rd < size

def contents (size : Nat) (r : Ring τ) : List τ :=
  (List.range (count size r.wr r.rd)).map fun k => r.slots (slotAt size r.rd k)

def store (r : Ring τ) (i : Nat) (t : τ) : Ring τ :=
  { r with slots := fun j => if j = i then t else r.slots j }

def setWr (r : Ring τ) (wr : Nat) : Ring τ := { r with wr := wr }

def setRd (r : Ring τ) (rd : Nat) : Ring τ := { r with rd := rd }

@[simp] theorem store_wr : (r.store i t).wr = r.wr := rfl
@[simp] theorem store_rd : (r.store i t).rd = r.rd := rfl
@[simp] theorem store_slots_self : (r.store i t).slots i = t := by simp [store]
@[simp] theorem setWr_wr : (r.setWr w).wr = w := rfl
@[simp] theorem setWr_rd : (r.setWr w).rd = r.rd := rfl
@[simp] theorem setWr_slots : (r.setWr w).slots = r.slots := rfl
@[simp] theorem setRd_wr : (r.setRd d).wr = r.wr := rfl
@[simp] theorem setRd_rd : (r.setRd d).rd = d := rfl
@[simp] theorem setRd_slots : (r.setRd d).slots = r.slots := rfl

theorem next_lt (h : i < size) : next size i < size := by
  unfold next
  split <;> omega

theorem next_eq_mod (h : i < size) : next size i = (i + 1) % size := by
  unfold next
  split
  · rw [show i + 1 = size by omega, Nat.mod_self]
  · rw [Nat.mod_eq_of_lt (by omega)]

@[simp] theorem length_contents : (r.contents size).length = count size r.wr r.rd := by
  simp [contents]

theorem count_lt (h : r.Ok size) : count size r.wr r.rd < size := by
  have := h.wr_lt
  have := h.rd_lt
  unfold count
  split <;> omega

theorem count_eq_zero (h : r.Ok size) : count size r.wr r.rd = 0 ↔ r.wr = r.rd := by
  have := h.wr_lt
  have := h.rd_lt
  unfold count
  split <;> omega

theorem contents_eq_nil (h : r.Ok size) : r.contents size = [] ↔ r.wr = r.rd := by
  rw [← count_eq_zero h, ← length_contents, List.length_eq_zero_iff]

theorem slotAt_zero (h : d < size) : slotAt size d 0 = d := by
  simp [slotAt, h]

theorem slotAt_count (h : r.Ok size) : slotAt size r.rd (count size r.wr r.rd) = r.wr := by
  have := h.wr_lt
  have := h.rd_lt
  unfold slotAt count
  split <;> split <;> omega

theorem slotAt_ne_wr (h : r.Ok size) (hk : k < count size r.wr r.rd) :
    slotAt size r.rd k ≠ r.wr := by
  have := h.wr_lt
  have := h.rd_lt
  unfold count at hk
  unfold slotAt
  split at hk <;> split <;> omega

theorem slotAt_next (h : d < size) (hk : k + 1 < size) :
    slotAt size (next size d) k = slotAt size d (k + 1) := by
  unfold slotAt next
  split <;> split <;> split <;> omega

theorem count_next_wr (h : r.Ok size) (hroom : count size r.wr r.rd + 1 < size) :
    count size (next size r.wr) r.rd = count size r.wr r.rd + 1 := by
  have := h.wr_lt
  have := h.rd_lt
  unfold count at hroom ⊢
  unfold next
  split at hroom <;> split <;> split <;> omega

theorem count_next_rd (h : r.Ok size) (hne : r.wr ≠ r.rd) :
    count size r.wr (next size r.rd) + 1 = count size r.wr r.rd := by
  have := h.wr_lt
  have := h.rd_lt
  unfold count next
  split <;> split <;> split <;> omega

theorem contents_store_wr (h : r.Ok size) : (r.store r.wr t).contents size = r.contents size := by
  refine List.map_congr_left fun k hk => ?_
  have hk : k < count size r.wr r.rd := by simpa using hk
  simp [store, slotAt_ne_wr h hk]

theorem contents_advance_wr (h : r.Ok size) (hroom : count size r.wr r.rd + 1 < size) :
    (r.setWr (next size r.wr)).contents size = r.contents size ++ [r.slots r.wr] := by
  simp only [contents, setWr_wr, setWr_rd, setWr_slots, count_next_wr h hroom,
    List.range_succ, List.map_append, List.map_cons, List.map_nil, slotAt_count h]

/-- The oldest token is in the slot at the read cursor; advancing that
cursor removes exactly it. -/
theorem contents_eq_cons (h : r.Ok size) (hne : r.wr ≠ r.rd) :
    r.contents size = r.slots r.rd :: (r.setRd (next size r.rd)).contents size := by
  have hlt := count_lt h
  have hc := count_next_rd h hne
  simp only [contents, setRd_wr, setRd_rd, setRd_slots]
  rw [← hc, List.range_succ_eq_map, List.map_cons, List.map_map, slotAt_zero h.rd_lt]
  congr 1
  refine List.map_congr_left fun k hk => ?_
  have hk : k < count size r.wr (next size r.rd) := by simpa using hk
  simp only [Function.comp_apply, Nat.succ_eq_add_one]
  rw [slotAt_next h.rd_lt (by omega)]

theorem Ok.store (h : r.Ok size) : (r.store i t).Ok size := ⟨h.wr_lt, h.rd_lt⟩

theorem Ok.advanceWr (h : r.Ok size) : (r.setWr (next size r.wr)).Ok size :=
  ⟨next_lt h.wr_lt, h.rd_lt⟩

theorem Ok.advanceRd (h : r.Ok size) : (r.setRd (next size r.rd)).Ok size :=
  ⟨h.wr_lt, next_lt h.rd_lt⟩

/-- The producer may fill the slot at the write cursor. -/
def Room (size : Nat) (r : Ring τ) : Prop := count size r.wr r.rd + 1 < size

/-- The consumer may take `t`, the oldest token. -/
def Front (r : Ring τ) (t : τ) : Prop := r.wr ≠ r.rd ∧ r.slots r.rd = t

-- Each end keeps what it relied on while the other end moves.

theorem Room.advanceRd (h : r.Room size) (ho : r.Ok size) (hne : r.wr ≠ r.rd) :
    (r.setRd (next size r.rd)).Room size := by
  have hc := count_next_rd ho hne
  unfold Room at h ⊢
  simp only [setRd_wr, setRd_rd]
  omega

theorem Front.store (h : r.Front t) : (r.store r.wr u).Front t :=
  ⟨h.1, by simpa [Ring.store, Ne.symm h.1] using h.2⟩

theorem Front.advanceWr (h : r.Front t) (ho : r.Ok size) (hroom : r.Room size) :
    (r.setWr (next size r.wr)).Front t := by
  refine ⟨fun he => ?_, h.2⟩
  have hc := count_next_wr ho hroom
  have hz := (count_eq_zero ho.advanceWr).mpr he
  simp only [setWr_wr, setWr_rd] at hz
  omega

theorem Front.contents (h : r.Front t) (ho : r.Ok size) :
    r.contents size = t :: (r.setRd (next size r.rd)).contents size := by
  rw [contents_eq_cons ho h.1, h.2]

end Ring

end Ipu4
