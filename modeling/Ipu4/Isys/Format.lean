import Mathlib.Algebra.Group.Int.Defs
import Mathlib.Algebra.GroupWithZero.Nat
import Mathlib.Data.List.Basic

/-!
# Pixel formats

The format table of the video nodes and `ipu6_isys_try_fmt_cap`, which turns
whatever user space asks for into a format the firmware can be given. All
fields are 32-bit values; products and sums wrap as they do in C. The driver
is the one built for kernels from 6.10 on, which has the metadata formats.
-/

namespace Ipu4.Isys

-- ---------------------------------------------------------------------------
-- The format table
-- ---------------------------------------------------------------------------

/-- The `IPU6_FW_ISYS_FRAME_FORMAT_*` values the table uses. -/
inductive FrameFormat
  | uyvy | yuyv | raw8 | raw10 | raw12 | raw16 | rgb565 | rgba888
  deriving DecidableEq, Repr

/-- `struct ipu6_isys_pixelformat`. -/
structure PixelFormat where
  pixelformat : Nat
  bpp : Nat
  bppPacked : Nat
  code : Nat
  cssPixelformat : FrameFormat
  isMeta : Bool
  deriving DecidableEq, Repr

/-- `v4l2_fourcc`. -/
def fourcc (a b c d : Char) : Nat :=
  a.toNat + b.toNat * 2 ^ 8 + c.toNat * 2 ^ 16 + d.toNat * 2 ^ 24

private def pix (fourcc bpp bppPacked code : Nat) (css : FrameFormat) : PixelFormat :=
  ⟨fourcc, bpp, bppPacked, code, css, false⟩

private def meta' (fourcc bpp code : Nat) (css : FrameFormat) : PixelFormat :=
  ⟨fourcc, bpp, bpp, code, css, true⟩

def ipu6IsysPfmts : List PixelFormat := [
  pix (fourcc 'B' 'G' '1' '2') 16 12 0x3008 .raw16,
  pix (fourcc 'G' 'B' '1' '2') 16 12 0x3010 .raw16,
  pix (fourcc 'B' 'A' '1' '2') 16 12 0x3011 .raw16,
  pix (fourcc 'R' 'G' '1' '2') 16 12 0x3012 .raw16,
  pix (fourcc 'B' 'G' '1' '0') 16 10 0x3007 .raw16,
  pix (fourcc 'G' 'B' '1' '0') 16 10 0x300e .raw16,
  pix (fourcc 'B' 'A' '1' '0') 16 10 0x300a .raw16,
  pix (fourcc 'R' 'G' '1' '0') 16 10 0x300f .raw16,
  pix (fourcc 'B' 'A' '8' '1') 8 8 0x3001 .raw8,
  pix (fourcc 'G' 'B' 'R' 'G') 8 8 0x3013 .raw8,
  pix (fourcc 'G' 'R' 'B' 'G') 8 8 0x3002 .raw8,
  pix (fourcc 'R' 'G' 'G' 'B') 8 8 0x3014 .raw8,
  pix (fourcc 'p' 'B' 'C' 'C') 12 12 0x3008 .raw12,
  pix (fourcc 'p' 'G' 'C' 'C') 12 12 0x3010 .raw12,
  pix (fourcc 'p' 'g' 'C' 'C') 12 12 0x3011 .raw12,
  pix (fourcc 'p' 'R' 'C' 'C') 12 12 0x3012 .raw12,
  pix (fourcc 'p' 'B' 'A' 'A') 10 10 0x3007 .raw10,
  pix (fourcc 'p' 'G' 'A' 'A') 10 10 0x300e .raw10,
  pix (fourcc 'p' 'g' 'A' 'A') 10 10 0x300a .raw10,
  pix (fourcc 'p' 'R' 'A' 'A') 10 10 0x300f .raw10,
  pix (fourcc 'G' 'R' 'E' 'Y') 8 8 0x2001 .raw8,
  pix (fourcc 'Y' '1' '0' ' ') 16 10 0x200a .raw16,
  pix (fourcc 'Y' '1' '2' ' ') 16 12 0x2013 .raw16,
  pix (fourcc 'Y' '1' '6' ' ') 16 16 0x202e .raw16,
  pix (fourcc 'Y' '1' '0' 'P') 10 10 0x200a .raw10,
  pix (fourcc 'Y' '1' '2' 'P') 12 12 0x2013 .raw12,
  pix (fourcc 'U' 'Y' 'V' 'Y') 16 16 0x200f .uyvy,
  pix (fourcc 'Y' 'U' 'Y' 'V') 16 16 0x2011 .yuyv,
  pix (fourcc 'R' 'G' 'B' 'P') 16 16 0x1017 .rgb565,
  pix (fourcc 'B' 'G' 'R' '3') 24 24 0x100a .rgba888,
  meta' (fourcc 'M' 'E' 'T' '8') 8 0x8001 .raw8,
  meta' (fourcc 'M' 'C' '1' 'A') 10 0x8002 .raw10,
  meta' (fourcc 'M' 'C' '1' 'C') 12 0x8003 .raw12,
  meta' (fourcc 'M' 'C' '1' 'G') 16 0x8005 .raw16,
  pix (fourcc 'B' 'X' '2' '4') 32 24 0x100a .rgba888]

/-- `V4L2_BUF_TYPE_VIDEO_CAPTURE` and `V4L2_BUF_TYPE_META_CAPTURE`. -/
def videoCapture : Nat := 1
def metaCapture : Nat := 13

/-- Entries `ipu6_isys_get_isys_format` skips for a buffer type. -/
def PixelFormat.skipped (type : Nat) (p : PixelFormat) : Bool :=
  type != 0 && ((!p.isMeta && type != videoCapture) || (p.isMeta && type != metaCapture))

/-- The table walk: the first entry of the type is the default. -/
def ipu6IsysGetIsysFormat.go (pixelformat type : Nat) :
    Option PixelFormat → List PixelFormat → Option PixelFormat
  | dflt, [] => dflt
  | dflt, p :: ps =>
    if p.skipped type then go pixelformat type dflt ps
    else if p.pixelformat ≠ pixelformat then go pixelformat type (dflt.or (some p)) ps
    else some p

def ipu6IsysGetIsysFormat (pixelformat type : Nat) : Option PixelFormat :=
  ipu6IsysGetIsysFormat.go pixelformat type none ipu6IsysPfmts

-- ---------------------------------------------------------------------------
-- Sanitising
-- ---------------------------------------------------------------------------

/-- The five values `ipu6_isys_try_fmt_cap` works on, shared by
`struct v4l2_pix_format` and `struct v4l2_meta_format`. -/
structure CapFormat where
  format : Nat
  width : Nat
  height : Nat
  bytesperline : Nat
  sizeimage : Nat
  deriving DecidableEq, Repr

def minWidth : Nat := 2
def maxWidth : Nat := 4672
def minHeight : Nat := 1
def maxHeight : Nat := 3416

/-- `isys_dma_overshoot` of the IPU4 platform data. -/
def isysDmaOvershoot : Nat := 1024

/-- The kernel's `clamp(val, lo, hi)`. -/
def clamp (val lo hi : Nat) : Nat := min (max val lo) hi

/-- `DIV_ROUND_UP` and `ALIGN` on unsigned int. -/
def divRoundUp (n d : Nat) : Nat := (n + d - 1) % 2 ^ 32 / d
def align (x a : Nat) : Nat := (x + (a - 1)) % 2 ^ 32 / a * a

/-- Unpacked formats store each pixel in whole bytes. -/
def lineBytes (p : PixelFormat) (width : Nat) : Nat :=
  if p.bpp ≠ p.bppPacked then width * divRoundUp p.bpp 8 % 2 ^ 32
  else divRoundUp (width * p.bpp % 2 ^ 32) 8

/-- `none` stands for the missing default entry, which no buffer type of a
video node runs into. -/
def ipu6IsysTryFmtCap (type : Nat) (f : CapFormat) : Option CapFormat := do
  let pfmt ← ipu6IsysGetIsysFormat f.format type
  let width := clamp f.width minWidth maxWidth
  let height := clamp f.height minHeight maxHeight
  let bytesperline := align (lineBytes pfmt width) 64
  let sizeimage := (bytesperline * height % 2 ^ 32 + max bytesperline isysDmaOvershoot) % 2 ^ 32
  return ⟨pfmt.pixelformat, width, height, bytesperline, sizeimage⟩

-- ---------------------------------------------------------------------------
-- What sanitising returns
-- ---------------------------------------------------------------------------

theorem getIsysFormat_go_mem (h : ipu6IsysGetIsysFormat.go pixelformat type dflt l = some p) :
    dflt = some p ∨ (p ∈ l ∧ p.skipped type = false) := by
  induction l generalizing dflt with
  | nil => exact .inl h
  | cons q qs ih =>
    simp only [ipu6IsysGetIsysFormat.go] at h
    split at h
    · rcases ih h with hd | ⟨hm, hs⟩
      · exact .inl hd
      · exact .inr ⟨List.mem_cons_of_mem _ hm, hs⟩
    · rename_i hskip
      have hq : q.skipped type = false := by simpa using hskip
      split at h
      · rcases ih h with hd | ⟨hm, hs⟩
        · cases dflt with
          | none =>
            obtain rfl : q = p := by simpa using hd
            exact .inr ⟨List.mem_cons_self, hq⟩
          | some d => exact .inl (by simpa using hd)
        · exact .inr ⟨List.mem_cons_of_mem _ hm, hs⟩
      · obtain rfl := Option.some.inj h
        exact .inr ⟨List.mem_cons_self, hq⟩

theorem getIsysFormat_self (ht : type = videoCapture ∨ type = metaCapture) :
    ∀ p ∈ ipu6IsysPfmts, p.skipped type = false →
      ipu6IsysGetIsysFormat p.pixelformat type = some p := by
  rcases ht with rfl | rfl <;> decide

theorem getIsysFormat_idem (ht : type = videoCapture ∨ type = metaCapture)
    (h : ipu6IsysGetIsysFormat pixelformat type = some p) :
    ipu6IsysGetIsysFormat p.pixelformat type = some p := by
  rcases getIsysFormat_go_mem h with hd | ⟨hm, hs⟩
  · cases hd
  · exact getIsysFormat_self ht p hm hs

theorem clamp_bounds (h : lo ≤ hi) (val : Nat) : lo ≤ clamp val lo hi ∧ clamp val lo hi ≤ hi := by
  unfold clamp
  omega

theorem clamp_idem (h : lo ≤ hi) : clamp (clamp val lo hi) lo hi = clamp val lo hi := by
  unfold clamp
  omega

theorem tryFmtCap_idem (ht : type = videoCapture ∨ type = metaCapture)
    (h : ipu6IsysTryFmtCap type f = some g) : ipu6IsysTryFmtCap type g = some g := by
  simp only [ipu6IsysTryFmtCap, Option.bind_eq_bind, Option.pure_def, Option.bind_eq_some_iff] at h ⊢
  obtain ⟨p, hp, hg⟩ := h
  obtain rfl := Option.some.inj hg
  refine ⟨p, getIsysFormat_idem ht hp, ?_⟩
  simp only [clamp_idem (show minWidth ≤ maxWidth by decide),
    clamp_idem (show minHeight ≤ maxHeight by decide)]

theorem getIsysFormat_go_some (hd : dflt.isSome = true) :
    (ipu6IsysGetIsysFormat.go pixelformat type dflt l).isSome = true := by
  induction l generalizing dflt with
  | nil => exact hd
  | cons p ps ih =>
    simp only [ipu6IsysGetIsysFormat.go]
    split
    · exact ih hd
    · split
      · exact ih (by cases dflt <;> simp_all)
      · rfl

theorem getIsysFormat_go_some_of_mem (hm : p ∈ l) (hp : p.skipped type = false) :
    (ipu6IsysGetIsysFormat.go pixelformat type dflt l).isSome = true := by
  induction l generalizing dflt with
  | nil => cases hm
  | cons q qs ih =>
    simp only [ipu6IsysGetIsysFormat.go]
    rcases List.mem_cons.mp hm with rfl | hm
    · simp only [hp, Bool.false_eq_true, if_false]
      split
      · exact getIsysFormat_go_some (by cases dflt <;> rfl)
      · rfl
    · split
      · exact ih hm
      · split
        · exact ih hm
        · rfl

theorem tryFmtCap_isSome (ht : type = videoCapture ∨ type = metaCapture) (f : CapFormat) :
    (ipu6IsysTryFmtCap type f).isSome = true := by
  have hmem : ∃ p ∈ ipu6IsysPfmts, p.skipped type = false := by
    rcases ht with rfl | rfl <;> decide
  obtain ⟨q, hq, hs⟩ := hmem
  have hsome : (ipu6IsysGetIsysFormat f.format type).isSome = true :=
    getIsysFormat_go_some_of_mem hq hs
  obtain ⟨p, hp⟩ := Option.isSome_iff_exists.mp hsome
  simp [ipu6IsysTryFmtCap, hp]

end Ipu4.Isys
