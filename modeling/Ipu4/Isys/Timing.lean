import Mathlib.Algebra.Group.Int.Defs
import Mathlib.Algebra.GroupWithZero.Nat
import Mathlib.Data.Int.Basic
import Mathlib.Data.Nat.Basic

/-!
# Receiver timings

`ipu6_isys_csi2_calc_timing` turns the link frequency into the four delays of the CSI-2
receiver. The frequency is 64 bits wide, the divisor 32, and the quotient is taken off a
constant. Frequencies below 42 MHz take off more than there is, and from 2^39 Hz on the
divisor is not the frequency any more.
-/

namespace Ipu4.Isys

-- ---------------------------------------------------------------------------
-- 32-bit arithmetic
-- ---------------------------------------------------------------------------

/-- The value of an `s32` operation, unless it overflows. -/
def s32 (x : Int) : Option Int := if -2 ^ 31 ≤ x ∧ x < 2 ^ 31 then some x else none

/-- Division of `s32` values, which has no result for 0. -/
def divS32 (x y : Int) : Option Int := if y = 0 then none else s32 (x.tdiv y)

/-- The conversions to `s32` and to `u32`. -/
def toS32 (x : Int) : Int := x.bmod (2 ^ 32)
def toU32 (x : Int) : Nat := (x % 2 ^ 32).toNat

theorem s32_of_bound (h : -2 ^ 31 ≤ x ∧ x < 2 ^ 31) : s32 x = some x := if_pos h

-- ---------------------------------------------------------------------------
-- The registers
-- ---------------------------------------------------------------------------

def DIV_SHIFT : Nat := 8
def CSI2_ACCINV : Int := 8

def CSI2_CSI_RX_DLY_CNT_TERMEN_CLANE_A : Int := 0
def CSI2_CSI_RX_DLY_CNT_TERMEN_CLANE_B : Int := 0
def CSI2_CSI_RX_DLY_CNT_SETTLE_CLANE_A : Int := 95
def CSI2_CSI_RX_DLY_CNT_SETTLE_CLANE_B : Int := -8
def CSI2_CSI_RX_DLY_CNT_TERMEN_DLANE_A : Int := 0
def CSI2_CSI_RX_DLY_CNT_TERMEN_DLANE_B : Int := 0
def CSI2_CSI_RX_DLY_CNT_SETTLE_DLANE_A : Int := 85
def CSI2_CSI_RX_DLY_CNT_SETTLE_DLANE_B : Int := -2

/-- `(s32)(link_freq >> DIV_SHIFT)`. -/
def divisor (linkFreq : Int) : Int := toS32 (linkFreq / 2 ^ DIV_SHIFT)

/-- `none` where C does not define the result. -/
def calcTiming (a b linkFreq accinv : Int) : Option Nat := do
  let whole ← s32 (accinv * a)
  let scaled ← s32 (accinv * b)
  let dividend ← s32 (scaled * (500000000 / 2 ^ DIV_SHIFT))
  let quot ← divS32 dividend (divisor linkFreq)
  let sum ← s32 (whole + quot)
  return toU32 sum

structure Csi2Timing where
  ctermen : Nat
  csettle : Nat
  dtermen : Nat
  dsettle : Nat
  deriving DecidableEq, Repr

/-- `linkFreq` is what `ipu6_isys_csi2_get_link_freq` gives; below zero it is an error. -/
def ipu6IsysCsi2CalcTiming (linkFreq accinv : Int) : Option (Except Int Csi2Timing) :=
  if linkFreq < 0 then some (.error linkFreq)
  else do
    let ctermen ← calcTiming CSI2_CSI_RX_DLY_CNT_TERMEN_CLANE_A CSI2_CSI_RX_DLY_CNT_TERMEN_CLANE_B
      linkFreq accinv
    let csettle ← calcTiming CSI2_CSI_RX_DLY_CNT_SETTLE_CLANE_A CSI2_CSI_RX_DLY_CNT_SETTLE_CLANE_B
      linkFreq accinv
    let dtermen ← calcTiming CSI2_CSI_RX_DLY_CNT_TERMEN_DLANE_A CSI2_CSI_RX_DLY_CNT_TERMEN_DLANE_B
      linkFreq accinv
    let dsettle ← calcTiming CSI2_CSI_RX_DLY_CNT_SETTLE_DLANE_A CSI2_CSI_RX_DLY_CNT_SETTLE_DLANE_B
      linkFreq accinv
    return .ok ⟨ctermen, csettle, dtermen, dsettle⟩

-- ---------------------------------------------------------------------------
-- One register
-- ---------------------------------------------------------------------------

/-- What the quotient leaves of the constant. -/
def delay (whole part : Nat) (d : Int) : Int :=
  if 0 < d then (whole : Int) - (part / d.natAbs : Nat) else (whole : Int) + (part / d.natAbs : Nat)

section
variable {whole part : Nat} {d f : Int}

theorem tdiv_neg_part (part : Nat) (d : Int) :
    (-(part : Int)).tdiv d = if 0 < d then -((part / d.natAbs : Nat) : Int) else (part / d.natAbs : Nat) := by
  cases d with
  | ofNat n =>
    rw [Int.neg_tdiv]
    split
    · rfl
    · next h =>
      obtain rfl : n = 0 := by simpa using h
      simp
  | negSucc n =>
    rw [if_neg (by omega), Int.neg_tdiv, Int.negSucc_eq, Int.tdiv_neg, Int.neg_neg]
    rfl

theorem calcTiming_eq (hwhole : CSI2_ACCINV * a = (whole : Int))
    (hscaled : -2 ^ 31 ≤ CSI2_ACCINV * b) (hpart : CSI2_ACCINV * b * 1953125 = -(part : Int))
    (hw : whole < 2 ^ 30) (hp : part < 2 ^ 30) :
    calcTiming a b f CSI2_ACCINV =
      if divisor f = 0 then none else some (toU32 (delay whole part (divisor f))) := by
  have hconst : (500000000 : Int) / 2 ^ DIV_SHIFT = 1953125 := by decide
  have hle : part / (divisor f).natAbs ≤ part := Nat.div_le_self ..
  unfold calcTiming divS32
  rw [hwhole, s32_of_bound (x := (whole : Int)) (by omega), s32_of_bound ⟨hscaled, by omega⟩, hconst]
  simp only [Option.bind_eq_bind, Option.bind_some, hpart]
  rw [s32_of_bound (by omega)]
  simp only [Option.bind_some, tdiv_neg_part]
  unfold delay
  generalize part / (divisor f).natAbs = quot at hle ⊢
  split
  · rfl
  · split
    · rw [s32_of_bound (by omega), Option.bind_some, s32_of_bound (by omega), Int.sub_eq_add_neg]
      rfl
    · rw [s32_of_bound (by omega), Option.bind_some, s32_of_bound (by omega)]
      rfl

/-- The register is at most the constant if the quotient is not negative and not more
than the constant. -/
theorem toU32_delay_le (d : Int) (hw : whole < 2 ^ 30) (hp : part < 2 ^ 30) :
    toU32 (delay whole part d) ≤ whole ↔
      0 < d ∧ part / d.natAbs ≤ whole ∨ part / d.natAbs = 0 := by
  have hle : part / d.natAbs ≤ part := Nat.div_le_self ..
  unfold toU32 delay
  generalize part / d.natAbs = quot at hle ⊢
  split
  · omega
  · omega

theorem toU32_delay (h : toU32 (delay whole part d) ≤ whole) (hw : whole < 2 ^ 30) (hp : part < 2 ^ 30) :
    toU32 (delay whole part d) = whole - part / d.natAbs := by
  have hcase := (toU32_delay_le d hw hp).mp h
  have hle : part / d.natAbs ≤ part := Nat.div_le_self ..
  unfold toU32 delay
  generalize part / d.natAbs = quot at hle hcase ⊢
  split
  · omega
  · omega

end

-- ---------------------------------------------------------------------------
-- The four registers
-- ---------------------------------------------------------------------------

/-- Each register is between 0 and its constant. -/
structure Csi2Timing.InRange (t : Csi2Timing) : Prop where
  ctermen : (t.ctermen : Int) ≤ CSI2_ACCINV * CSI2_CSI_RX_DLY_CNT_TERMEN_CLANE_A
  csettle : (t.csettle : Int) ≤ CSI2_ACCINV * CSI2_CSI_RX_DLY_CNT_SETTLE_CLANE_A
  dtermen : (t.dtermen : Int) ≤ CSI2_ACCINV * CSI2_CSI_RX_DLY_CNT_TERMEN_DLANE_A
  dsettle : (t.dsettle : Int) ≤ CSI2_ACCINV * CSI2_CSI_RX_DLY_CNT_SETTLE_DLANE_A

/-- The timings of a frequency are defined and in range, and the settle delays are not
shorter than those of a lower frequency that is in range too. -/
def TimingSound (f : Int) : Prop :=
  ∃ t, ipu6IsysCsi2CalcTiming f CSI2_ACCINV = some (.ok t) ∧ t.InRange ∧
    ∀ f' t', 0 < f' → f' ≤ f → ipu6IsysCsi2CalcTiming f' CSI2_ACCINV = some (.ok t') → t'.InRange →
      t'.csettle ≤ t.csettle ∧ t'.dsettle ≤ t.dsettle

/-- The registers for a divisor that is not 0. -/
def timingAt (d : Int) : Csi2Timing where
  ctermen := 0
  csettle := toU32 (delay 760 125000000 d)
  dtermen := 0
  dsettle := toU32 (delay 680 31250000 d)

section
variable {f d : Int} {t : Csi2Timing}

theorem calcTiming_termen (f : Int) :
    calcTiming 0 0 f CSI2_ACCINV = if divisor f = 0 then none else some 0 := by
  have heq : calcTiming 0 0 f CSI2_ACCINV =
      if divisor f = 0 then none else some (toU32 (delay 0 0 (divisor f))) :=
    calcTiming_eq (by decide) (by decide) (by decide) (by decide) (by decide)
  have hzero : delay 0 0 (divisor f) = 0 := by simp [delay]
  rw [heq, hzero]
  rfl

theorem calcTiming_csettle (f : Int) :
    calcTiming 95 (-8) f CSI2_ACCINV =
      if divisor f = 0 then none else some (toU32 (delay 760 125000000 (divisor f))) :=
  calcTiming_eq (by decide) (by decide) (by decide) (by decide) (by decide)

theorem calcTiming_dsettle (f : Int) :
    calcTiming 85 (-2) f CSI2_ACCINV =
      if divisor f = 0 then none else some (toU32 (delay 680 31250000 (divisor f))) :=
  calcTiming_eq (by decide) (by decide) (by decide) (by decide) (by decide)

theorem timing_eq (h : 0 < f) :
    ipu6IsysCsi2CalcTiming f CSI2_ACCINV =
      if divisor f = 0 then none else some (.ok (timingAt (divisor f))) := by
  unfold ipu6IsysCsi2CalcTiming CSI2_CSI_RX_DLY_CNT_TERMEN_CLANE_A CSI2_CSI_RX_DLY_CNT_TERMEN_CLANE_B
    CSI2_CSI_RX_DLY_CNT_SETTLE_CLANE_A CSI2_CSI_RX_DLY_CNT_SETTLE_CLANE_B
    CSI2_CSI_RX_DLY_CNT_TERMEN_DLANE_A CSI2_CSI_RX_DLY_CNT_TERMEN_DLANE_B
    CSI2_CSI_RX_DLY_CNT_SETTLE_DLANE_A CSI2_CSI_RX_DLY_CNT_SETTLE_DLANE_B
  rw [if_neg (by omega), calcTiming_termen, calcTiming_csettle, calcTiming_dsettle]
  split
  · rfl
  · rfl

theorem timing_ok (h : 0 < f) (ht : ipu6IsysCsi2CalcTiming f CSI2_ACCINV = some (.ok t)) :
    divisor f ≠ 0 ∧ t = timingAt (divisor f) := by
  rw [timing_eq h] at ht
  split at ht
  · cases ht
  · next hne => exact ⟨hne, (Except.ok.inj (Option.some.inj ht)).symm⟩

theorem div_le_iff_lt (hn : 0 < n) : part / n ≤ whole ↔ part < (whole + 1) * n := by
  rw [← Nat.lt_succ_iff, Nat.div_lt_iff_lt_mul hn]

theorem inRange_iff (hd : d ≠ 0) :
    (timingAt d).InRange ↔ 164258 ≤ d ∨ 125000000 < d.natAbs := by
  have hn : 0 < d.natAbs := Int.natAbs_pos.mpr hd
  have hc : toU32 (delay 760 125000000 d) ≤ 760 ↔
      0 < d ∧ 125000000 / d.natAbs ≤ 760 ∨ 125000000 / d.natAbs = 0 :=
    toU32_delay_le d (by decide) (by decide)
  have hdl : toU32 (delay 680 31250000 d) ≤ 680 ↔
      0 < d ∧ 31250000 / d.natAbs ≤ 680 ∨ 31250000 / d.natAbs = 0 :=
    toU32_delay_le d (by decide) (by decide)
  rw [div_le_iff_lt hn, Nat.div_eq_zero_iff_lt hn] at hc hdl
  constructor
  · intro h
    have hcsettle : toU32 (delay 760 125000000 d) ≤ 760 := Int.ofNat_le.mp h.csettle
    rcases hc.mp hcsettle with ⟨hpos, hlt⟩ | hlt
    · omega
    · omega
  · intro h
    refine ⟨Int.le_refl 0, Int.ofNat_le.mpr (hc.mpr ?_), Int.le_refl 0, Int.ofNat_le.mpr (hdl.mpr ?_)⟩
    · omega
    · omega

theorem settle_eq (h : (timingAt d).InRange) :
    (timingAt d).csettle = 760 - 125000000 / d.natAbs ∧
      (timingAt d).dsettle = 680 - 31250000 / d.natAbs :=
  ⟨toU32_delay (Int.ofNat_le.mp h.csettle) (by decide) (by decide),
    toU32_delay (Int.ofNat_le.mp h.dsettle) (by decide) (by decide)⟩

theorem divisor_eq (h : 0 < f) (hlt : f < 2 ^ 39) : divisor f = f / 256 := by
  unfold divisor toS32 DIV_SHIFT
  rw [Int.bmod_def]
  split <;> omega

/-- A frequency meets this exactly if the divisor is large, or comes from a frequency that
fits and is at least 164258. -/
theorem timing_sound_iff (h : 0 < f) :
    TimingSound f ↔ 125000000 < (divisor f).natAbs ∨ f < 2 ^ 40 ∧ 164258 ≤ divisor f := by
  constructor
  · rintro ⟨t, ht, hrange, hmono⟩
    obtain ⟨hne, rfl⟩ := timing_ok h ht
    rcases (inRange_iff hne).mp hrange with hd | hd
    · refine or_iff_not_imp_right.mpr fun hlarge => ?_
      -- a frequency below with the longest delays
      have hlow : divisor 32000000256 = 125000001 := by decide
      have hlowne : divisor 32000000256 ≠ 0 := by decide
      have hlowrange : (timingAt (divisor 32000000256)).InRange :=
        (inRange_iff hlowne).mpr (.inr (by decide))
      have hlowok : ipu6IsysCsi2CalcTiming 32000000256 CSI2_ACCINV =
          some (.ok (timingAt (divisor 32000000256))) := by
        rw [timing_eq (by decide), if_neg hlowne]
      have hle := (hmono 32000000256 _ (by decide) (by omega) hlowok hlowrange).1
      rw [(settle_eq hlowrange).1, (settle_eq hrange).1, hlow] at hle
      have hquot : 125000000 / (divisor f).natAbs = 0 := by
        have hnone : 125000000 / Int.natAbs 125000001 = 0 := by decide
        rw [hnone] at hle
        generalize 125000000 / (divisor f).natAbs = quot at hle ⊢
        omega
      exact (Nat.div_eq_zero_iff_lt (Int.natAbs_pos.mpr hne)).mp hquot
    · exact .inl hd
  · intro hcond
    have hne : divisor f ≠ 0 := by
      rintro hzero
      rw [hzero] at hcond
      simp at hcond
    have hrange : (timingAt (divisor f)).InRange := (inRange_iff hne).mpr (hcond.symm.imp And.right id)
    refine ⟨timingAt (divisor f), by rw [timing_eq h, if_neg hne], hrange, fun f' t' hpos hle ht' hrange' => ?_⟩
    obtain ⟨hne', rfl⟩ := timing_ok hpos ht'
    obtain ⟨hc, hd⟩ := settle_eq hrange
    obtain ⟨hc', hd'⟩ := settle_eq hrange'
    rw [hc, hd, hc', hd']
    rcases hcond with hlarge | ⟨hfit, hmin⟩
    · rw [Nat.div_eq_of_lt hlarge, Nat.div_eq_of_lt (show 31250000 < (divisor f).natAbs by omega)]
      exact ⟨Nat.sub_le .., Nat.sub_le ..⟩
    · have hlt : f < 2 ^ 39 := by
        unfold divisor toS32 DIV_SHIFT at hmin
        rw [Int.bmod_def] at hmin
        split at hmin <;> omega
      have habs : (divisor f').natAbs ≤ (divisor f).natAbs := by
        rw [divisor_eq h hlt, divisor_eq hpos (by omega)]
        omega
      have hpos' : 0 < (divisor f').natAbs := Int.natAbs_pos.mpr hne'
      exact ⟨Nat.sub_le_sub_left (Nat.div_le_div_left habs hpos') _,
        Nat.sub_le_sub_left (Nat.div_le_div_left habs hpos') _⟩

end

/-- A sensor at 317.25 MHz. -/
theorem timing_sound_sensor : TimingSound 317250000 := (timing_sound_iff (by decide)).mpr (.inr (by decide))

/-- At 40 MHz, the lowest rate of a D-PHY lane, the clock delay wraps. -/
theorem csettle_wraps :
    ipu6IsysCsi2CalcTiming 40000000 CSI2_ACCINV = some (.ok ⟨0, 4294967256, 0, 480⟩) ∧
      ¬ ∀ f : Int, 0 < f → f < 2 ^ 63 → TimingSound f := by
  refine ⟨by decide, fun h => ?_⟩
  obtain ⟨t, ht, hrange, -⟩ := h 40000000 (by decide) (by decide)
  obtain ⟨hne, rfl⟩ := timing_ok (by decide) ht
  have hfits := (inRange_iff hne).mp hrange
  revert hfits
  decide

end Ipu4.Isys
