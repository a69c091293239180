import Ipu4.Isys.Ioctl

/-!
# Sizes of a format

No product or sum of `ipu6_isys_try_fmt_cap` wraps, for any entry of the table and any
size in range, so its 32-bit results are the numbers they stand for. The line the
device may write after the image is part of the size.
-/

namespace Ipu4.Isys

/-- The bits a pixel takes in memory: unpacked formats store it in whole bytes. -/
def PixelFormat.storageBits (p : PixelFormat) : Nat :=
  if p.bpp ≠ p.bppPacked then 8 * ((p.bpp + 7) / 8) else p.bpp

/-- What `ipu6_isys_try_fmt_cap` computes for `p`, as numbers. -/
structure PixelFormat.Sizes (p : PixelFormat) (g : CapFormat) : Prop where
  width : 2 ≤ g.width ∧ g.width ≤ 4672
  height : 1 ≤ g.height ∧ g.height ≤ 3416
  aligned : g.bytesperline % 64 = 0
  holds : g.width * p.storageBits ≤ 8 * g.bytesperline
  sizeimage : g.sizeimage = g.bytesperline * g.height + max g.bytesperline isysDmaOvershoot

/-- The products and sums on the way, each before it is cut to 32 bits. -/
structure PixelFormat.NoWrap (p : PixelFormat) (width height bytesperline : Nat) : Prop where
  pixelBytes : p.bpp + 7 < 2 ^ 32
  unpacked : width * ((p.bpp + 7) / 8) < 2 ^ 32
  bits : width * p.bpp < 2 ^ 32
  packed : width * p.bpp + 7 < 2 ^ 32
  aligning : lineBytes p width + 63 < 2 ^ 32
  image : bytesperline * height < 2 ^ 32
  sizeimage : bytesperline * height + max bytesperline isysDmaOvershoot < 2 ^ 32

-- ---------------------------------------------------------------------------
-- Rounding
-- ---------------------------------------------------------------------------

theorem divRoundUp_eq (h : n + 7 < 2 ^ 32) : divRoundUp n 8 = (n + 7) / 8 := by
  unfold divRoundUp
  omega

theorem align_mod (x : Nat) : align x 64 % 64 = 0 := Nat.mul_mod_left _ 64

theorem align_bounds (h : x + 63 < 2 ^ 32) : x ≤ align x 64 ∧ align x 64 ≤ x + 63 := by
  unfold align
  omega

theorem bpp_le : ∀ p ∈ ipu6IsysPfmts, p.bpp ≤ 32 := by decide

-- ---------------------------------------------------------------------------
-- One line
-- ---------------------------------------------------------------------------

section
variable {p : PixelFormat} {w h : Nat}

theorem width_mul_le (hw : w ≤ 4672) (hx : x ≤ 32) : w * x ≤ 149504 :=
  Nat.mul_le_mul hw hx

theorem lineBytes_bounds (hp : p.bpp ≤ 32) (hw : w ≤ 4672) :
    w * p.storageBits ≤ 8 * lineBytes p w ∧ lineBytes p w ≤ 18688 := by
  have hbytes : (p.bpp + 7) / 8 ≤ 4 := by omega
  have hbits := width_mul_le hw hp
  have hwhole : w * ((p.bpp + 7) / 8) ≤ 18688 := Nat.mul_le_mul hw hbytes
  unfold lineBytes PixelFormat.storageBits
  by_cases hpacked : p.bpp ≠ p.bppPacked
  · rw [if_pos hpacked, if_pos hpacked, divRoundUp_eq (by omega), Nat.mod_eq_of_lt (by omega),
      Nat.mul_left_comm]
    exact ⟨Nat.le_refl _, hwhole⟩
  · rw [if_neg hpacked, if_neg hpacked, Nat.mod_eq_of_lt (by omega), divRoundUp_eq (by omega)]
    omega

theorem bytesperline_bounds (hp : p.bpp ≤ 32) (hw : w ≤ 4672) :
    lineBytes p w ≤ align (lineBytes p w) 64 ∧ align (lineBytes p w) 64 ≤ 18751 := by
  have hline := (lineBytes_bounds hp hw).2
  have hal := align_bounds (x := lineBytes p w) (by omega)
  omega

theorem image_le (hl : line ≤ 18751) (hh : h ≤ 3416) : line * h ≤ 64053416 :=
  Nat.mul_le_mul hl hh

theorem noWrap_bytesperline (hp : p.bpp ≤ 32) (hw : w ≤ 4672) (hh : h ≤ 3416) :
    p.NoWrap w h (align (lineBytes p w) 64) := by
  have hbits := width_mul_le hw hp
  have hwhole := width_mul_le hw (x := (p.bpp + 7) / 8) (by omega)
  have hline := (lineBytes_bounds hp hw).2
  have hal := (bytesperline_bounds hp hw).2
  have himage := image_le hal hh
  have hover : isysDmaOvershoot = 1024 := rfl
  constructor <;> omega

theorem sizes_of (hp : p.bpp ≤ 32) (hw : 2 ≤ w ∧ w ≤ 4672) (hh : 1 ≤ h ∧ h ≤ 3416) :
    let line := align (lineBytes p w) 64
    p.Sizes ⟨p.pixelformat, w, h, line,
      (line * h % 2 ^ 32 + max line isysDmaOvershoot) % 2 ^ 32⟩ := by
  have hn := noWrap_bytesperline hp hw.2 hh.2
  refine ⟨hw, hh, align_mod _, ?_, ?_⟩
  · calc w * p.storageBits ≤ 8 * lineBytes p w := (lineBytes_bounds hp hw.2).1
      _ ≤ 8 * align (lineBytes p w) 64 := Nat.mul_le_mul_left 8 (bytesperline_bounds hp hw.2).1
  · dsimp only
    rw [Nat.mod_eq_of_lt hn.image, Nat.mod_eq_of_lt hn.sizeimage]

theorem PixelFormat.Sizes.image_lt (hs : p.Sizes g) (hlt : g.sizeimage < 2 ^ 32) :
    g.bytesperline * g.height < 2 ^ 32 ∧
      g.bytesperline * g.height + g.bytesperline ≤ g.sizeimage := by
  have hsize := hs.sizeimage
  omega

end

-- ---------------------------------------------------------------------------
-- The firmware's pin
-- ---------------------------------------------------------------------------

open Ioctl (Video ipu6IsysFwPinCfg)

/-- What the firmware is told to write, and a line more, is within `size`. -/
structure PinFits (pin : Ioctl.OutputPin) (size : Nat) : Prop where
  payload : pin.payloadBufSize = pin.stride * pin.height
  line : pin.stride * pin.height + pin.stride ≤ size

/-- For every request `ipu6_isys_try_fmt_cap` gives a format of the table with the sizes
that belong to it, computed without wrapping. It is left alone by a second call, and
the pin of a node that has it fits its buffers. -/
theorem try_fmt_cap_sizes (ht : type = videoCapture ∨ type = metaCapture) (f : CapFormat) :
    ∃ p ∈ ipu6IsysPfmts, ∃ g, ipu6IsysGetIsysFormat f.format type = some p ∧
      ipu6IsysTryFmtCap type f = some g ∧ g.format = p.pixelformat ∧ p.Sizes g ∧
      p.NoWrap g.width g.height g.bytesperline ∧ ipu6IsysTryFmtCap type g = some g ∧
      ∀ av : Video, av.vbq.type = type → av.current = g →
        PinFits (ipu6IsysFwPinCfg av) (Ioctl.ipu6IsysGetDataSize av) := by
  obtain ⟨g, hg⟩ := Option.isSome_iff_exists.mp (tryFmtCap_isSome ht f)
  have hfmt := hg
  simp only [ipu6IsysTryFmtCap, Option.bind_eq_bind, Option.pure_def, Option.bind_eq_some_iff] at hfmt
  obtain ⟨p, hp, hcap⟩ := hfmt
  have hmem : p ∈ ipu6IsysPfmts := by
    rcases getIsysFormat_go_mem hp with h | h
    · cases h
    · exact h.1
  have hw : 2 ≤ clamp f.width minWidth maxWidth ∧ clamp f.width minWidth maxWidth ≤ 4672 :=
    clamp_bounds (by decide) f.width
  have hh : 1 ≤ clamp f.height minHeight maxHeight ∧ clamp f.height minHeight maxHeight ≤ 3416 :=
    clamp_bounds (by decide) f.height
  obtain rfl := Option.some.inj hcap
  have hsizes := sizes_of (bpp_le p hmem) hw hh
  have hnowrap := noWrap_bytesperline (bpp_le p hmem) hw.2 hh.2
  refine ⟨p, hmem, _, hp, hg, rfl, hsizes, hnowrap, tryFmtCap_idem ht hg, fun av htype hav => ?_⟩
  have hcheck : Ioctl.checkFmt av.vbq.type = true := by
    rw [htype]
    rcases ht with rfl | rfl <;> rfl
  have hsize : Ioctl.ipu6IsysGetDataSize av = av.current.sizeimage := Ioctl.select_eq hcheck _
  rw [(Ioctl.readsFrom_current hcheck).pin, hsize, hav]
  have himage := hsizes.image_lt (Nat.mod_lt _ (by decide))
  exact ⟨Nat.mod_eq_of_lt himage.1, himage.2⟩

/-- A request of the largest numbers there are. -/
theorem try_fmt_cap_sizes_largest :
    ∃ p ∈ ipu6IsysPfmts, ∃ g, ipu6IsysGetIsysFormat (2 ^ 32 - 1) videoCapture = some p ∧
      ipu6IsysTryFmtCap videoCapture ⟨2 ^ 32 - 1, 2 ^ 32 - 1, 2 ^ 32 - 1, 0, 0⟩ = some g ∧
      g.format = p.pixelformat ∧ p.Sizes g ∧ p.NoWrap g.width g.height g.bytesperline ∧
      ipu6IsysTryFmtCap videoCapture g = some g ∧
      ∀ av : Video, av.vbq.type = videoCapture → av.current = g →
        PinFits (ipu6IsysFwPinCfg av) (Ioctl.ipu6IsysGetDataSize av) :=
  try_fmt_cap_sizes (.inl rfl) ⟨2 ^ 32 - 1, 2 ^ 32 - 1, 2 ^ 32 - 1, 0, 0⟩

end Ipu4.Isys
