import Mathlib.Algebra.Group.Int.Defs
import Mathlib.Algebra.GroupWithZero.Nat
import Mathlib.Data.Nat.Bitwise

/-!
# The time stamp counter

The counter is read in two halves, the high one before and after the low one. If the
halves disagree, the top bit of the low half says on which side of the carry it was
read: fewer than 2 ^ 31 ticks pass between the first read and the last.
-/

namespace Ipu4.Buttress

def IPU4_BUTTRESS_TSC_CLOCK_FREQUENCY : Nat := 192

/-- The values of `BUTTRESS_REG_TSC_HI` and `BUTTRESS_REG_TSC_LO`. -/
def tscHi (counter : Nat) : Nat := counter / 2 ^ 32 % 2 ^ 32
def tscLo (counter : Nat) : Nat := counter % 2 ^ 32

/-- `ipu6_buttress_tsc_read` with the three values it reads. -/
def tscOfWords (tscHi1 tscLo tscHi2 : Nat) : Nat :=
  if tscHi1 = tscHi2 then (tscHi1 <<< 32) % 2 ^ 64 ||| tscLo
  else if tscLo &&& 1 <<< 31 ≠ 0 then (tscHi1 <<< 32) % 2 ^ 64 ||| tscLo
  else (tscHi2 <<< 32) % 2 ^ 64 ||| tscLo

/-- The registers are read at `t1`, `t2` and `t3`. -/
def ipu6ButtressTscRead (counter : Nat → Nat) (t1 t2 t3 : Nat) : Nat :=
  tscOfWords (tscHi (counter t1)) (tscLo (counter t2)) (tscHi (counter t3))

def ipu6ButtressTscTicksToNs (ticks : Nat) : Nat :=
  ticks * 10000 % 2 ^ 64 / IPU4_BUTTRESS_TSC_CLOCK_FREQUENCY

def getSofNsDelta (counter : Nat → Nat) (t1 t2 t3 timestamp : Nat) : Nat :=
  let tscNow := ipu6ButtressTscRead counter t1 t2 t3
  if tscNow = 0 then 0
  else ipu6ButtressTscTicksToNs ((tscNow + 2 ^ 64 - timestamp) % 2 ^ 64)

/-- The counter takes one step for each tick of a call, and does not wrap. -/
structure Counts (counter : Nat → Nat) (t1 t3 : Nat) : Prop where
  step : ∀ t, t1 ≤ t → t < t3 → counter (t + 1) = counter t + 1
  bound : counter t3 < 2 ^ 64

variable {counter : Nat → Nat} {t1 t2 t3 : Nat}

theorem Counts.add (h : Counts counter t1 t3) (h13 : t1 + n ≤ t3) : counter (t1 + n) = counter t1 + n := by
  induction n with
  | zero => rfl
  | succ n ih =>
    rw [← Nat.add_assoc, h.step (t1 + n) (Nat.le_add_right t1 n) h13, ih (by omega), Nat.add_assoc]

theorem Counts.eq (h : Counts counter t1 t3) (h12 : t1 ≤ t2) (h23 : t2 ≤ t3) :
    counter t2 = counter t1 + (t2 - t1) := by
  have hadd := h.add (n := t2 - t1) (by omega)
  rwa [Nat.add_sub_cancel' h12] at hadd

theorem words_or (hhi : hi < 2 ^ 32) (hlo : lo < 2 ^ 32) :
    (hi <<< 32) % 2 ^ 64 ||| lo = 2 ^ 32 * hi + lo := by
  have hshift : hi <<< 32 = 2 ^ 32 * hi := by rw [Nat.shiftLeft_eq, Nat.mul_comm]
  rw [Nat.mod_eq_of_lt (by omega), ← Nat.shiftLeft_add_eq_or_of_lt hlo, hshift]

theorem and_bit31 (hlo : lo < 2 ^ 32) : lo &&& 1 <<< 31 ≠ 0 ↔ 2 ^ 31 ≤ lo := by
  rw [Nat.shiftLeft_eq, Nat.one_mul, Nat.and_two_pow, Nat.testBit_eq_decide_div_mod_eq]
  simp
  omega

/-- Of three values less than 2 ^ 31 apart, the middle one is on the same side of a
carry as the low word says. -/
theorem tscOfWords_eq {c1 c2 c3 : Nat} (h12 : c1 ≤ c2) (h23 : c2 ≤ c3) (hspan : c3 - c1 < 2 ^ 31)
    (hbound : c3 < 2 ^ 64) : tscOfWords (tscHi c1) (tscLo c2) (tscHi c3) = c2 := by
  have hlo : tscLo c2 < 2 ^ 32 := Nat.mod_lt _ (by decide)
  have hhi (c : Nat) : tscHi c < 2 ^ 32 := Nat.mod_lt _ (by decide)
  unfold tscOfWords
  simp only [and_bit31 hlo, words_or (hhi _) hlo]
  unfold tscHi tscLo
  split
  · -- no carry between the high words
    omega
  · split
    · -- the carry comes after the low word
      omega
    · -- the carry comes before the low word
      omega

theorem ipu6ButtressTscRead_eq (h : Counts counter t1 t3) (h12 : t1 ≤ t2) (h23 : t2 ≤ t3)
    (hspan : t3 - t1 < 2 ^ 31) : ipu6ButtressTscRead counter t1 t2 t3 = counter t2 := by
  have h2 := h.eq h12 h23
  have h3 := h.eq (h12.trans h23) (Nat.le_refl t3)
  exact tscOfWords_eq (by omega) (by omega) (by omega) h.bound

theorem ipu6ButtressTscTicksToNs_eq (h : ticks * 10000 < 2 ^ 64) :
    ipu6ButtressTscTicksToNs ticks = ticks * 10000 / 192 := by
  rw [ipu6ButtressTscTicksToNs, Nat.mod_eq_of_lt h, IPU4_BUTTRESS_TSC_CLOCK_FREQUENCY]

/-- The counter is sampled at the second read, and the age of a frame is exact. -/
theorem tsc_exact (h : Counts counter t1 t3) (h12 : t1 ≤ t2) (h23 : t2 ≤ t3) (hspan : t3 - t1 < 2 ^ 31) :
    ipu6ButtressTscRead counter t1 t2 t3 = counter t2 ∧
      ∀ timestamp, timestamp ≤ counter t2 → (counter t2 - timestamp) * 10000 < 2 ^ 64 →
        getSofNsDelta counter t1 t2 t3 timestamp = (counter t2 - timestamp) * 10000 / 192 := by
  have hread := ipu6ButtressTscRead_eq h h12 h23 hspan
  refine ⟨hread, fun timestamp hle hfits => ?_⟩
  rw [getSofNsDelta, hread]
  split
  · -- a counter at 0 has no earlier frames
    next hzero => simp [hzero]
  · have hdelta : (counter t2 + 2 ^ 64 - timestamp) % 2 ^ 64 = counter t2 - timestamp := by
      have h2 := h.eq h12 h23
      have h3 := h.eq (h12.trans h23) (Nat.le_refl t3)
      have hbound := h.bound
      omega
    rw [hdelta, ipu6ButtressTscTicksToNs_eq hfits]

/-- The low word is read just after a carry. -/
theorem tsc_exact_carry :
    ipu6ButtressTscRead (· + 0xfffffffe) 1 2 4 = 2 ^ 32 ∧
      ∀ timestamp, timestamp ≤ 2 ^ 32 → (2 ^ 32 - timestamp) * 10000 < 2 ^ 64 →
        getSofNsDelta (· + 0xfffffffe) 1 2 4 timestamp = (2 ^ 32 - timestamp) * 10000 / 192 :=
  tsc_exact ⟨fun t _ _ => by omega, by decide⟩ (by decide) (by decide) (by decide)

end Ipu4.Buttress
