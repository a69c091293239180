import Mathlib.Data.List.Induction
import Ipu4.Isys.Format
import Ipu4.Lib.Errno

/-!
# Cropping in a CSI-2 receiver

`ipu6_isys_subdev_set_fmt` sets the format of a sink stream and resets the crop of its
source; `ipu6_isys_csi2_set_sel` crops lines. The height is clamped to what is left
below `top`, but `top` itself is taken as it comes: outside of the frame the bound
wraps, and the crop lies outside too.
-/

namespace Ipu4.Isys.Crop

-- ---------------------------------------------------------------------------
-- Media bus codes
-- ---------------------------------------------------------------------------

/-- What the first two lines of a Bayer frame start with. -/
inductive BayerOrder
  | rggb | grbg | gbrg | bggr
  deriving DecidableEq, Repr

inductive Depth
  | bits8 | bits10 | bits12 | bits16
  deriving DecidableEq, Repr

/-- One line further down. -/
def BayerOrder.nextLine : BayerOrder → BayerOrder
  | .rggb => .gbrg
  | .grbg => .bggr
  | .gbrg => .rggb
  | .bggr => .grbg

/-- The `MEDIA_BUS_FMT_S*` codes. -/
def BayerOrder.code : BayerOrder → Depth → Nat
  | .rggb, .bits8 => 0x3014
  | .grbg, .bits8 => 0x3002
  | .gbrg, .bits8 => 0x3013
  | .bggr, .bits8 => 0x3001
  | .rggb, .bits10 => 0x300f
  | .grbg, .bits10 => 0x300a
  | .gbrg, .bits10 => 0x300e
  | .bggr, .bits10 => 0x3007
  | .rggb, .bits12 => 0x3012
  | .grbg, .bits12 => 0x3011
  | .gbrg, .bits12 => 0x3010
  | .bggr, .bits12 => 0x3008
  | .rggb, .bits16 => 0x3020
  | .grbg, .bits16 => 0x301f
  | .gbrg, .bits16 => 0x301e
  | .bggr, .bits16 => 0x301d

/-- `ipu6_isys_is_bayer_format`. -/
def isBayerFormat (code : Nat) : Bool :=
  code ∈ [0x3001, 0x3013, 0x3002, 0x3014, 0x3007, 0x300e, 0x300a, 0x300f, 0x3008, 0x3010, 0x3011,
    0x3012, 0x3020, 0x301f, 0x301e, 0x301d]

def codeMap : List Nat :=
  [0x3014, 0x3002, 0x3013, 0x3001, 0x300f, 0x300a, 0x300e, 0x3007, 0x3012, 0x3011, 0x3010, 0x3008,
    0x3020, 0x301f, 0x301e, 0x301d]

/-- `ipu6_isys_convert_bayer_order`. -/
def convertBayerOrder (code : Nat) (x y : Int) : Nat :=
  let i := codeMap.idxOf code
  if i = codeMap.length then code
  else codeMap.getD (i ^^^ ((y % 2).toNat <<< 1 ||| (x % 2).toNat)) 0

/-- `csi2_supported_codes`, up to the 0 at its end. -/
def csi2SupportedCodes : List Nat :=
  [0x1017, 0x100a, 0x200f, 0x2011, 0x3007, 0x300e, 0x300a, 0x300f, 0x3008, 0x3010, 0x3011, 0x3012,
    0x3001, 0x3013, 0x3002, 0x3014, 0x2001, 0x200a, 0x2013, 0x202e, 0x8001, 0x8002, 0x8003, 0x8005,
    0x8007]

theorem isBayerFormat_code (order : BayerOrder) (depth : Depth) :
    isBayerFormat (order.code depth) = true := by
  cases order <;> cases depth <;> rfl

theorem exists_code (h : isBayerFormat code = true) : ∃ order depth, code = BayerOrder.code order depth := by
  have hmem := of_decide_eq_true h
  simp only [List.mem_cons, List.not_mem_nil, or_false] at hmem
  rcases hmem with rfl | rfl | rfl | rfl | rfl | rfl | rfl | rfl | rfl | rfl | rfl | rfl | rfl | rfl |
    rfl | rfl
  · exact ⟨.bggr, .bits8, rfl⟩
  · exact ⟨.gbrg, .bits8, rfl⟩
  · exact ⟨.grbg, .bits8, rfl⟩
  · exact ⟨.rggb, .bits8, rfl⟩
  · exact ⟨.bggr, .bits10, rfl⟩
  · exact ⟨.gbrg, .bits10, rfl⟩
  · exact ⟨.grbg, .bits10, rfl⟩
  · exact ⟨.rggb, .bits10, rfl⟩
  · exact ⟨.bggr, .bits12, rfl⟩
  · exact ⟨.gbrg, .bits12, rfl⟩
  · exact ⟨.grbg, .bits12, rfl⟩
  · exact ⟨.rggb, .bits12, rfl⟩
  · exact ⟨.rggb, .bits16, rfl⟩
  · exact ⟨.grbg, .bits16, rfl⟩
  · exact ⟨.gbrg, .bits16, rfl⟩
  · exact ⟨.bggr, .bits16, rfl⟩

theorem convertBayerOrder_code (order : BayerOrder) (depth : Depth) (y : Int) :
    convertBayerOrder (order.code depth) 0 y =
      (if y % 2 = 0 then order else order.nextLine).code depth := by
  unfold convertBayerOrder
  rcases Int.emod_two_eq y with heven | hodd
  · rw [heven]
    cases order <;> cases depth <;> rfl
  · rw [hodd]
    cases order <;> cases depth <;> rfl

-- ---------------------------------------------------------------------------
-- The two calls
-- ---------------------------------------------------------------------------

/-- The fields of `struct v4l2_mbus_framefmt` that the driver sets. -/
structure FrameFmt where
  width : Nat
  height : Nat
  code : Nat
  field : Nat
  deriving DecidableEq, Repr

/-- `struct v4l2_rect`. -/
structure Rect where
  left : Int
  top : Int
  width : Nat
  height : Nat
  deriving DecidableEq, Repr

/-- What the state of the subdev holds for a route: the formats at its two ends and
the crop at its source. -/
structure Route where
  sink : FrameFmt
  source : FrameFmt
  crop : Rect
  deriving DecidableEq, Repr

def CSI2_PAD_SINK : Nat := 0
def V4L2_SEL_TGT_CROP : Nat := 0
def V4L2_FIELD_NONE : Nat := 1

/-- `ipu6_isys_subdev_set_fmt` on the sink of a route. -/
def subdevSetFmt (format : FrameFmt) : Route × Int :=
  let fmt : FrameFmt := {
    width := clamp format.width minWidth maxWidth
    height := clamp format.height minHeight maxHeight
    code := (csi2SupportedCodes.find? (· = format.code)).getD 0x1017
    field := V4L2_FIELD_NONE }
  (⟨fmt, fmt, ⟨0, 0, fmt.width, fmt.height⟩⟩, 0)

/-- `ipu6_isys_csi2_set_sel` on the source of a route. The upper bound of the height is
a difference of unsigned integers. -/
def csi2SetSel (s : Route) (pad target : Nat) (r : Rect) : Route × Int :=
  if pad = CSI2_PAD_SINK ∨ target ≠ V4L2_SEL_TGT_CROP then (s, -EINVAL)
  else
    let top := if isBayerFormat s.sink.code then r.top else r.top - r.top % 2
    let height := clamp (r.height - r.height % 2) minHeight (((s.sink.height : Int) - top) % 2 ^ 32).toNat
    let code :=
      if isBayerFormat s.sink.code then convertBayerOrder s.sink.code 0 top else s.source.code
    ({ s with
        crop := ⟨0, top, s.sink.width, height⟩
        source := { s.source with width := s.sink.width, height, code } }, 0)

inductive Call
  | setFmt (format : FrameFmt)
  | setSel (pad target : Nat) (r : Rect)

def call (s : Route) : Call → Route × Int
  | .setFmt format => subdevSetFmt format
  | .setSel pad target r => csi2SetSel s pad target r

def run (s : Route) (calls : List Call) : Route := calls.foldl (fun s c => (call s c).1) s

-- ---------------------------------------------------------------------------
-- The crop
-- ---------------------------------------------------------------------------

/-- The crop takes whole lines of the sink, and the source has its size and the order of
its first line. -/
structure Route.Inside (s : Route) : Prop where
  left : s.crop.left = 0
  width : s.crop.width = s.sink.width
  top : 0 ≤ s.crop.top
  height : 1 ≤ s.crop.height
  bottom : s.crop.top + s.crop.height ≤ s.sink.height
  size : s.source.width = s.crop.width ∧ s.source.height = s.crop.height
  bayer : ∀ order depth, s.sink.code = BayerOrder.code order depth →
    s.source.code = (if s.crop.top % 2 = 0 then order else order.nextLine).code depth
  other : (∀ order depth, s.sink.code ≠ BayerOrder.code order depth) → s.crop.top % 2 = 0

/-- The first line asked for is a line of the frame; for formats that are not Bayer
lines count in pairs. -/
def Route.HasLine (s : Route) (top : Int) : Prop :=
  0 ≤ top ∧ (if isBayerFormat s.sink.code then top else top - top % 2) < s.sink.height

theorem clamp_height (format : FrameFmt) :
    1 ≤ (subdevSetFmt format).1.sink.height ∧ (subdevSetFmt format).1.sink.height < 2 ^ 32 := by
  simp only [subdevSetFmt, clamp, minHeight, maxHeight]
  omega

theorem subdevSetFmt_inside (format : FrameFmt) : (subdevSetFmt format).1.Inside where
  left := rfl
  width := rfl
  top := Int.le_refl 0
  height := (clamp_height format).1
  bottom := by simp only [subdevSetFmt, Int.zero_add, Int.le_refl]
  size := ⟨rfl, rfl⟩
  bayer := fun _ _ h => h
  other := fun _ => rfl

/-- The clamped lines lie in the frame if and only if the first one does: above it the
difference wraps or is too large, and below it there is none left. -/
theorem lines_inside_iff (height : Nat) (top : Int) {lines : Nat} (hlines : lines < 2 ^ 32) :
    (0 ≤ top ∧ 1 ≤ clamp (height - height % 2) minHeight (((lines : Int) - top) % 2 ^ 32).toNat ∧
      top + clamp (height - height % 2) minHeight (((lines : Int) - top) % 2 ^ 32).toNat ≤ lines) ↔
      0 ≤ top ∧ top < lines := by
  simp only [clamp, minHeight]
  omega

theorem csi2SetSel_inside_iff {s : Route} (hsize : s.sink.height < 2 ^ 32)
    (hcall : ¬ (pad = CSI2_PAD_SINK ∨ target ≠ V4L2_SEL_TGT_CROP)) :
    (csi2SetSel s pad target r).1.Inside ↔ s.HasLine r.top := by
  unfold csi2SetSel Route.HasLine
  rw [if_neg hcall]
  cases hbayer : isBayerFormat s.sink.code with
  | true =>
    have hlines := lines_inside_iff r.height r.top hsize
    simp only [if_true]
    constructor
    · intro h
      exact hlines.mp ⟨h.top, h.height, h.bottom⟩
    · intro h
      obtain ⟨htop, hheight, hbottom⟩ := hlines.mpr h
      obtain ⟨order, depth, hcode⟩ := exists_code hbayer
      refine ⟨rfl, rfl, htop, hheight, hbottom, ⟨rfl, rfl⟩, ?_, fun hnone => absurd hcode (hnone order depth)⟩
      rintro order depth hcode
      dsimp only at hcode ⊢
      rw [hcode, convertBayerOrder_code]
  | false =>
    have hlines := lines_inside_iff r.height (r.top - r.top % 2) hsize
    have heven : (r.top - r.top % 2) % 2 = 0 := by omega
    have hnonneg : 0 ≤ r.top - r.top % 2 ↔ 0 ≤ r.top := by omega
    rw [hnonneg] at hlines
    simp only [Bool.false_eq_true, if_false]
    constructor
    · intro h
      exact hlines.mp ⟨hnonneg.mp h.top, h.height, h.bottom⟩
    · intro h
      obtain ⟨htop, hheight, hbottom⟩ := hlines.mpr h
      refine ⟨rfl, rfl, hnonneg.mpr htop, hheight, hbottom, ⟨rfl, rfl⟩, ?_, fun _ => heven⟩
      rintro order depth hcode
      dsimp only at hcode
      rw [hcode, isBayerFormat_code] at hbayer
      cases hbayer

-- ---------------------------------------------------------------------------
-- Runs
-- ---------------------------------------------------------------------------

theorem csi2SetSel_sink (s : Route) (pad target : Nat) (r : Rect) :
    (csi2SetSel s pad target r).1.sink = s.sink := by
  unfold csi2SetSel
  split <;> rfl

theorem run_append (s : Route) (calls : List Call) (c : Call) :
    run s (calls ++ [c]) = (call (run s calls) c).1 := by
  rw [run, List.foldl_append]
  rfl

theorem run_sized (s : Route) (format : FrameFmt) (calls : List Call) :
    (run s (.setFmt format :: calls)).sink.height < 2 ^ 32 := by
  induction calls using List.reverseRec with
  | nil => exact (clamp_height format).2
  | append_singleton calls c ih =>
    rw [← List.cons_append, run_append]
    cases c with
    | setFmt format => exact (clamp_height format).2
    | setSel pad target r =>
      rw [call, csi2SetSel_sink]
      exact ih

/-- The crop is inside after each call that succeeds, if and only if every selection
starts in a line of the frame as it is then. -/
theorem crop_inside_iff (s : Route) (format : FrameFmt) (calls : List Call) :
    (∀ pre c, pre ++ [c] <+: .setFmt format :: calls → (call (run s pre) c).2 = 0 →
      (call (run s pre) c).1.Inside) ↔
    ∀ pre pad target r, pre ++ [.setSel pad target r] <+: .setFmt format :: calls →
      pad ≠ CSI2_PAD_SINK → target = V4L2_SEL_TGT_CROP → (run s pre).HasLine r.top := by
  have hsized : ∀ pre pad target r, pre ++ [.setSel pad target r] <+: Call.setFmt format :: calls →
      (run s pre).sink.height < 2 ^ 32 := by
    intro pre pad target r hpre
    cases pre with
    | nil => cases (List.cons_prefix_cons.mp hpre).1
    | cons c pre =>
      obtain ⟨rfl, -⟩ := List.cons_prefix_cons.mp hpre
      exact run_sized s format pre
  constructor
  · rintro h pre pad target r hpre hpad rfl
    have hcall : ¬ (pad = CSI2_PAD_SINK ∨ V4L2_SEL_TGT_CROP ≠ V4L2_SEL_TGT_CROP) := by simpa using hpad
    refine (csi2SetSel_inside_iff (hsized pre pad _ r hpre) hcall).mp (h pre _ hpre ?_)
    simp only [call, csi2SetSel, if_neg hcall]
  · intro h pre c hpre hret
    cases c with
    | setFmt format => exact subdevSetFmt_inside format
    | setSel pad target r =>
      by_cases hcall : pad = CSI2_PAD_SINK ∨ target ≠ V4L2_SEL_TGT_CROP
      · simp only [call, csi2SetSel, if_pos hcall] at hret
        cases hret
      · obtain ⟨hpad, htarget⟩ := not_or.mp hcall
        exact (csi2SetSel_inside_iff (hsized pre pad target r hpre) hcall).mpr
          (h pre pad target r hpre hpad (not_not.mp htarget))

def sampleFmt : FrameFmt := ⟨64, 16, 0x300f, 0⟩

/-- Two lines of it from line 100 on. -/
theorem crop_below_frame :
    ¬ ∀ s format calls, ∀ pre c, pre ++ [c] <+: .setFmt format :: calls →
      (call (run s pre) c).2 = 0 → (call (run s pre) c).1.Inside := by
  intro h
  have hinside := h ⟨sampleFmt, sampleFmt, ⟨0, 0, 64, 16⟩⟩ sampleFmt [.setSel 1 0 ⟨0, 100, 64, 2⟩]
    [.setFmt sampleFmt] (.setSel 1 0 ⟨0, 100, 64, 2⟩) (List.prefix_refl _) rfl
  exact absurd hinside.bottom (by decide)

end Ipu4.Isys.Crop
