import Ipu4.Isys.Crop
import Ipu4.Isys.Ioctl

/-!
# Agreeing on a format

A capture starts only if the format of the video node is that of the source pad it is
linked to. `VIDIOC_ENUM_FMT` tells which pixel formats go with a media bus code. Every
code of a receiver has one but `MEDIA_BUS_FMT_META_24`, and then the sizes decide.
-/

namespace Ipu4.Isys.Negotiate

open Crop (FrameFmt)
open Ioctl (Video Vb2Core PixFormat Errno checkFmt vb2IsBusy ipu6IsysVideoInit)

-- ---------------------------------------------------------------------------
-- The functions of the driver
-- ---------------------------------------------------------------------------

def enumLoop (type mbusCode index numFound : Nat) : List PixelFormat → Except Errno Nat
  | [] => .error .EINVAL
  | p :: ps =>
    if (p.isMeta && type != metaCapture) || (!p.isMeta && type != videoCapture) then
      enumLoop type mbusCode index numFound ps
    else if mbusCode ≠ 0 ∧ mbusCode ≠ p.code then enumLoop type mbusCode index numFound ps
    else if numFound < index then enumLoop type mbusCode index (numFound + 1) ps
    else .ok p.pixelformat

def ipu6IsysVidiocEnumFmt (type mbusCode index : Nat) : Except Errno Nat :=
  enumLoop type mbusCode index 0 ipu6IsysPfmts

theorem getIsysFormat_any (pixelformat : Nat) : (ipu6IsysGetIsysFormat pixelformat 0).isSome = true := by
  have hmem : ∃ p ∈ ipu6IsysPfmts, p.skipped 0 = false := by decide
  obtain ⟨p, hp, hs⟩ := hmem
  exact getIsysFormat_go_some_of_mem hp hs

/-- `ipu6_isys_link_fmt_validate`, given the format of the remote pad. -/
def ipu6IsysLinkFmtValidate (av : Video) (format : FrameFmt) : Int :=
  if format.width ≠ Ioctl.ipu6IsysGetFrameWidth av ∨ format.height ≠ Ioctl.ipu6IsysGetFrameHeight av then
    -EINVAL
  else
    let code := ((ipu6IsysGetIsysFormat (Ioctl.ipu6IsysGetFormat av) 0).get (getIsysFormat_any _)).code
    if format.code ≠ code then -EINVAL else 0

-- ---------------------------------------------------------------------------
-- Configuring a node
-- ---------------------------------------------------------------------------

def sFmt (type : Nat) (f : PixFormat) : Ioctl.Call :=
  if type = videoCapture then .sFmtVid f else .sFmtMeta f.cap

/-- The buffers are freed, the format is set, and `n` buffers are requested. -/
def configure (core : Vb2Core) (av : Video) (type : Nat) (f : PixFormat) (n : Nat) : Video :=
  [.reqbufs av.vbq.type (some 0), sFmt type f, .reqbufs type (some n)].foldl (Ioctl.call core) av

def request (pixelformat width height : Nat) : PixFormat :=
  ⟨⟨pixelformat, width, height, 0, 0⟩, 0, 0, 0, 0, 0, 0, 0⟩

-- ---------------------------------------------------------------------------
-- Enumeration
-- ---------------------------------------------------------------------------

/-- An entry that goes with a media bus code. -/
def Listed (type mbusCode : Nat) (p : PixelFormat) : Prop :=
  p.skipped type = false ∧ p.code = mbusCode

instance : DecidablePred (Listed type mbusCode) := fun _ => inferInstanceAs (Decidable (_ ∧ _))

theorem skips_eq (ht : checkFmt type = true) (p : PixelFormat) :
    ((p.isMeta && type != metaCapture) || (!p.isMeta && type != videoCapture)) = p.skipped type := by
  have ht' : type = videoCapture ∨ type = metaCapture := by simpa [checkFmt] using ht
  rcases ht' with rfl | rfl <;> cases hm : p.isMeta <;> simp [PixelFormat.skipped, hm, videoCapture, metaCapture]

theorem enumLoop_eq (ht : checkFmt type = true) (hcode : mbusCode ≠ 0) (l : List PixelFormat)
    (hk : numFound ≤ index) :
    enumLoop type mbusCode index numFound l =
      (l.filter (Listed type mbusCode ·))[index - numFound]?.elim (.error .EINVAL) (.ok ·.pixelformat) := by
  induction l generalizing numFound with
  | nil => rfl
  | cons p ps ih =>
    unfold enumLoop
    rw [skips_eq ht]
    by_cases hskip : p.skipped type = true
    · have hno : ¬ Listed type mbusCode p := fun h => by simp [h.1] at hskip
      rw [if_pos hskip, ih hk, List.filter_cons_of_neg (by simpa using hno)]
    · rw [if_neg hskip]
      by_cases hc : p.code = mbusCode
      · have hyes : Listed type mbusCode p := ⟨by simpa using hskip, hc⟩
        rw [if_neg fun h => h.2 hc.symm, List.filter_cons_of_pos (by simpa using hyes)]
        by_cases hlt : numFound < index
        · have hsub : index - numFound = index - (numFound + 1) + 1 := by omega
          rw [if_pos hlt, ih hlt, hsub, List.getElem?_cons_succ]
        · have hsub : index - numFound = 0 := by omega
          rw [if_neg hlt, hsub, List.getElem?_cons_zero]
          rfl
      · have hno : ¬ Listed type mbusCode p := fun h => hc h.2
        rw [if_pos ⟨hcode, fun h => hc h.symm⟩, ih hk, List.filter_cons_of_neg (by simpa using hno)]

theorem exists_index_iff (ht : checkFmt type = true) (hcode : mbusCode ≠ 0) :
    (∃ index, ipu6IsysVidiocEnumFmt type mbusCode index = .ok pixelformat) ↔
      ∃ p ∈ ipu6IsysPfmts, Listed type mbusCode p ∧ p.pixelformat = pixelformat := by
  unfold ipu6IsysVidiocEnumFmt
  constructor
  · rintro ⟨index, h⟩
    rw [enumLoop_eq ht hcode _ (Nat.zero_le _), Nat.sub_zero] at h
    cases hget : (ipu6IsysPfmts.filter (Listed type mbusCode ·))[index]? with
    | none =>
      rw [hget] at h
      cases h
    | some p =>
      obtain ⟨hp, hl⟩ := List.mem_filter.mp (List.mem_of_getElem? hget)
      rw [hget] at h
      exact ⟨p, hp, of_decide_eq_true hl, Except.ok.inj h⟩
  · rintro ⟨p, hp, hl, rfl⟩
    have hmem : p ∈ ipu6IsysPfmts.filter (Listed type mbusCode ·) :=
      List.mem_filter.mpr ⟨hp, decide_eq_true hl⟩
    obtain ⟨index, hget⟩ := List.getElem?_of_mem hmem
    refine ⟨index, ?_⟩
    rw [enumLoop_eq ht hcode _ (Nat.zero_le _), Nat.sub_zero, hget]
    rfl

-- ---------------------------------------------------------------------------
-- What a node stores
-- ---------------------------------------------------------------------------

/-- The node works with the entry it has found for `f`, and with its size. -/
structure Stores (av : Video) (type : Nat) (f : CapFormat) (p : PixelFormat) : Prop where
  entry : ipu6IsysGetIsysFormat f.format type = some p
  format : Ioctl.ipu6IsysGetFormat av = p.pixelformat
  width : Ioctl.ipu6IsysGetFrameWidth av = clamp f.width minWidth maxWidth
  height : Ioctl.ipu6IsysGetFrameHeight av = clamp f.height minHeight maxHeight

theorem tryFmtCap_some (h : ipu6IsysTryFmtCap type f = some g) :
    ∃ p, ipu6IsysGetIsysFormat f.format type = some p ∧ g.format = p.pixelformat ∧
      g.width = clamp f.width minWidth maxWidth ∧ g.height = clamp f.height minHeight maxHeight := by
  simp only [ipu6IsysTryFmtCap, Option.bind_eq_bind, Option.pure_def, Option.bind_eq_some_iff] at h
  obtain ⟨p, hp, hg⟩ := h
  obtain rfl := Option.some.inj hg
  exact ⟨p, hp, rfl, rfl, rfl⟩

theorem stores_current (ht : checkFmt av.vbq.type = true) (h : ipu6IsysTryFmtCap type f = some av.current) :
    ∃ p, Stores av type f p := by
  obtain ⟨p, hp, hformat, hwidth, hheight⟩ := tryFmtCap_some h
  exact ⟨p, hp, (Ioctl.select_eq ht _).trans hformat, (Ioctl.select_eq ht _).trans hwidth,
    (Ioctl.select_eq ht _).trans hheight⟩

theorem checkFmt_call (h : checkFmt av.vbq.type = true) (c : Ioctl.Call) :
    checkFmt (Ioctl.call core av c).vbq.type = true := by
  obtain hf | ⟨f, rfl, heq⟩ | ⟨f, rfl, -, heq⟩ := Ioctl.call_cases core av c
  · exact hf.type h
  · rw [heq]
    exact h
  · rw [heq]
    exact h

theorem checkFmt_run (h : checkFmt av.vbq.type = true) (calls : List Ioctl.Call) :
    checkFmt (calls.foldl (Ioctl.call core) av).vbq.type = true := by
  induction calls generalizing av with
  | nil => exact h
  | cons c calls ih => exact ih (checkFmt_call h c)

theorem reqbufs_granted (core : Vb2Core) (ht : checkFmt type = true)
    (hq : type = av.vbq.type ∨ vb2IsBusy av.vbq = false) (n : Nat) :
    let av' := Ioctl.call core av (.reqbufs type (some n))
    av'.vbq.type = type ∧ av'.pixFmt = av.pixFmt ∧ av'.metaFmt = av.metaFmt ∧ av'.vbq.bufs.length = n := by
  let q : Ioctl.Vb2Queue := { av.vbq with
    isMultiplanar := Ioctl.typeIsMultiplanar type
    isOutput := Ioctl.typeIsOutput type }
  have hset : Ioctl.setQueueType core av type = ({ av with vbq := { q with type := type } }, .ok ()) := by
    unfold Ioctl.setQueueType
    dsimp only
    split
    · rename_i q' heq
      rw [core.changed _ _ _ heq]
    · rename_i e heq
      obtain ⟨hbusy, hne⟩ := (core.refused_iff q type).mp ⟨e, heq⟩
      rcases hq with htype | hidle
      · exact absurd htype hne
      · cases hbusy.symm.trans hidle
  intro av'
  have hav : av' = Ioctl.ipu6IsysVidiocReqbufs core av type (some n) := if_pos ht
  rw [hav]
  unfold Ioctl.ipu6IsysVidiocReqbufs
  rw [hset]
  exact ⟨rfl, rfl, rfl, List.length_replicate⟩

theorem configure_stores (h : checkFmt av.vbq.type = true) (ht : checkFmt type = true) (f : PixFormat) (n : Nat) :
    ∃ p, Stores (configure core av type f n) type f.cap p := by
  let freed := Ioctl.call core av (.reqbufs av.vbq.type (some 0))
  obtain ⟨-, -, -, hbufs⟩ := reqbufs_granted core h (.inl rfl) 0
  have hidle : vb2IsBusy freed.vbq = false := by
    simp [vb2IsBusy, freed, List.length_eq_zero_iff.mp hbufs]
  have ht' : type = videoCapture ∨ type = metaCapture := by simpa [checkFmt] using ht
  rcases ht' with rfl | rfl
  · let node : Video := { freed with pixFmt := Ioctl.tryFmtVidCap f }
    have hset : Ioctl.call core freed (sFmt videoCapture f) = node := by
      simp [sFmt, Ioctl.call, Ioctl.ipu6IsysVidiocSFmtVidCap, Ioctl.ipu6IsysVidiocTryFmtVidCap, hidle, node]
    have hidle' : vb2IsBusy node.vbq = false := hidle
    obtain ⟨htype, hpix, -, -⟩ := reqbufs_granted core ht (.inr hidle') n
    have hconf : configure core av videoCapture f n = Ioctl.call core node (.reqbufs videoCapture (some n)) := by
      rw [← hset]
      rfl
    rw [hconf]
    refine stores_current (by rw [htype]; rfl) ?_
    rw [Video.current, if_pos htype, hpix]
    exact (Option.some_get _).symm
  · let node : Video := { freed with metaFmt := Ioctl.ipu6IsysVidiocTryFmtMetaCap f.cap }
    have hset : Ioctl.call core freed (sFmt metaCapture f) = node := by
      simp [sFmt, Ioctl.call, Ioctl.ipu6IsysVidiocSFmtMetaCap, hidle, node, metaCapture, videoCapture,
        Except.toOption]
    have hidle' : vb2IsBusy node.vbq = false := hidle
    obtain ⟨htype, -, hmeta, -⟩ := reqbufs_granted core ht (.inr hidle') n
    have hconf : configure core av metaCapture f n = Ioctl.call core node (.reqbufs metaCapture (some n)) := by
      rw [← hset]
      rfl
    rw [hconf]
    refine stores_current (by rw [htype]; rfl) ?_
    rw [Video.current, if_neg (by rw [htype]; decide), hmeta]
    exact (Option.some_get _).symm

theorem getIsysFormat_entry : ∀ p ∈ ipu6IsysPfmts, ipu6IsysGetIsysFormat p.pixelformat 0 = some p := by
  decide

theorem Stores.entry_mem (h : Stores av type f p) : p ∈ ipu6IsysPfmts ∧ p.skipped type = false := by
  rcases getIsysFormat_go_mem h.entry with hd | hp
  · cases hd
  · exact hp

theorem Stores.validates_iff (h : Stores av type f p) (format : FrameFmt) :
    ipu6IsysLinkFmtValidate av format = 0 ↔
      format.width = clamp f.width minWidth maxWidth ∧ format.height = clamp f.height minHeight maxHeight ∧
        Listed type format.code p := by
  obtain ⟨hp, hs⟩ := h.entry_mem
  have hcode : ((ipu6IsysGetIsysFormat (Ioctl.ipu6IsysGetFormat av) 0).get (getIsysFormat_any _)).code =
      p.code := by
    simp only [h.format, getIsysFormat_entry p hp, Option.get_some]
  unfold ipu6IsysLinkFmtValidate
  simp only [hcode, h.width, h.height]
  have herr : -EINVAL ≠ 0 := by decide
  constructor
  · intro hret
    by_cases hsize : format.width ≠ clamp f.width minWidth maxWidth ∨
        format.height ≠ clamp f.height minHeight maxHeight
    · rw [if_pos hsize] at hret
      exact absurd hret herr
    · rw [if_neg hsize] at hret
      obtain ⟨hwidth, hheight⟩ := not_or.mp hsize
      refine ⟨not_not.mp hwidth, not_not.mp hheight, hs, ?_⟩
      by_contra hne
      rw [if_pos (Ne.symm hne)] at hret
      exact absurd hret herr
  · rintro ⟨hwidth, hheight, -, hc⟩
    simp [hwidth, hheight, hc]

-- ---------------------------------------------------------------------------
-- What a receiver offers
-- ---------------------------------------------------------------------------

def MEDIA_BUS_FMT_META_24 : Nat := 0x8007

/-- The formats at both ends of a route have a code and a width of the receiver. -/
structure Offered (s : Crop.Route) : Prop where
  sink : s.sink.code ∈ Crop.csi2SupportedCodes
  source : s.source.code ∈ Crop.csi2SupportedCodes
  sinkWidth : minWidth ≤ s.sink.width ∧ s.sink.width ≤ maxWidth
  sourceWidth : minWidth ≤ s.source.width ∧ s.source.width ≤ maxWidth
  sinkHeight : s.sink.height ≤ maxHeight

theorem clamp_eq_self (h : lo ≤ val) (h' : val ≤ hi) : clamp val lo hi = val := by
  unfold clamp
  omega

theorem offered_setFmt (format : FrameFmt) : Offered (Crop.subdevSetFmt format).1 := by
  have hcode : (Crop.csi2SupportedCodes.find? (· = format.code)).getD 0x1017 ∈ Crop.csi2SupportedCodes := by
    cases hfind : Crop.csi2SupportedCodes.find? (· = format.code) with
    | none => decide
    | some code => exact List.mem_of_find?_eq_some hfind
  have hwidth := clamp_bounds (show minWidth ≤ maxWidth by decide) format.width
  exact ⟨hcode, hcode, hwidth, hwidth, (clamp_bounds (show minHeight ≤ maxHeight by decide) format.height).2⟩

/-- What `subdev_set_routing` leaves of a route, which `ipu6_isys_subdev_init_cfg` starts
with: `format` at both ends, and a crop that is still zero. -/
def subdevSetRouting : Crop.Route :=
  let format : FrameFmt := ⟨4096, 3072, 0x300a, Crop.V4L2_FIELD_NONE⟩
  ⟨format, format, ⟨0, 0, 0, 0⟩⟩

theorem offered_setRouting : Offered subdevSetRouting := by
  constructor <;> decide

theorem convertBayerOrder_mem (h : code ∈ Crop.csi2SupportedCodes) (y : Int) :
    Crop.convertBayerOrder code 0 y ∈ Crop.csi2SupportedCodes := by
  have hall : ∀ code ∈ Crop.csi2SupportedCodes, Crop.convertBayerOrder code 0 0 ∈ Crop.csi2SupportedCodes ∧
      Crop.convertBayerOrder code 0 1 ∈ Crop.csi2SupportedCodes := by
    decide
  obtain ⟨heven, hodd⟩ := hall code h
  have hmod : Crop.convertBayerOrder code 0 y = Crop.convertBayerOrder code 0 (y % 2) := by
    have hy : y % 2 % 2 = y % 2 := by omega
    simp only [Crop.convertBayerOrder, hy]
  rw [hmod]
  rcases Int.emod_two_eq y with h0 | h1
  · rwa [h0]
  · rwa [h1]

theorem offered_setSel (h : Offered s) (pad target : Nat) (r : Crop.Rect) :
    Offered (Crop.csi2SetSel s pad target r).1 := by
  unfold Crop.csi2SetSel
  by_cases hcall : pad = Crop.CSI2_PAD_SINK ∨ target ≠ Crop.V4L2_SEL_TGT_CROP
  · rw [if_pos hcall]
    exact h
  · rw [if_neg hcall]
    refine ⟨h.sink, ?_, h.sinkWidth, h.sinkWidth, h.sinkHeight⟩
    cases hbayer : Crop.isBayerFormat s.sink.code with
    | true => exact convertBayerOrder_mem h.sink _
    | false => exact h.source

theorem offered_run (h : Offered s) (calls : List Crop.Call) : Offered (Crop.run s calls) := by
  induction calls generalizing s with
  | nil => exact h
  | cons c calls ih =>
    cases c with
    | setFmt format => exact ih (offered_setFmt format)
    | setSel pad target r => exact ih (offered_setSel h pad target r)

theorem exists_listed : ∀ code ∈ Crop.csi2SupportedCodes, code ≠ MEDIA_BUS_FMT_META_24 →
    ∃ type ∈ [videoCapture, metaCapture], ∃ p ∈ ipu6IsysPfmts, Listed type code p := by
  decide

theorem entry_code : ∀ p ∈ ipu6IsysPfmts, p.code ≠ MEDIA_BUS_FMT_META_24 := by
  decide

theorem supported_ne_zero : ∀ code ∈ Crop.csi2SupportedCodes, code ≠ 0 := by
  decide

-- ---------------------------------------------------------------------------
-- Agreeing
-- ---------------------------------------------------------------------------

def Enumerated (type mbusCode pixelformat : Nat) : Prop :=
  ∃ index, ipu6IsysVidiocEnumFmt type mbusCode index = .ok pixelformat

/-- A height that a node can have. -/
def Fits (source : FrameFmt) : Prop := minHeight ≤ source.height ∧ source.height ≤ maxHeight

theorem fits_iff (source : FrameFmt) : source.height = clamp source.height minHeight maxHeight ↔ Fits source := by
  constructor
  · intro h
    have hmem := clamp_bounds (show minHeight ≤ maxHeight by decide) source.height
    rwa [← h] at hmem
  · exact fun h => (clamp_eq_self h.1 h.2).symm

theorem Offered.fits (h : Offered s) (hinside : s.Inside) : Fits s.source := by
  have hsize := hinside.size.2
  have hheight := hinside.height
  have htop := hinside.top
  have hbottom := hinside.bottom
  have hsink := h.sinkHeight
  unfold Fits minHeight
  omega

section
variable {source : FrameFmt} {av : Video}

theorem configured_enumerated (h : checkFmt av.vbq.type = true) (ht : checkFmt type = true)
    (hcode : source.code ≠ 0) (hret : ipu6IsysLinkFmtValidate (configure core av type f n) source = 0) :
    Enumerated type source.code (Ioctl.ipu6IsysGetFormat (configure core av type f n)) := by
  obtain ⟨p, hst⟩ := configure_stores h ht f n
  obtain ⟨-, -, hl⟩ := (hst.validates_iff source).mp hret
  exact (exists_index_iff ht hcode).mpr ⟨p, hst.entry_mem.1, hl, hst.format.symm⟩

theorem enumerated_validates_iff (h : checkFmt av.vbq.type = true) (ht : checkFmt type = true)
    (hcode : source.code ≠ 0) (hwidth : minWidth ≤ source.width ∧ source.width ≤ maxWidth)
    (he : Enumerated type source.code pixelformat) (n : Nat) :
    ipu6IsysLinkFmtValidate (configure core av type (request pixelformat source.width source.height) n)
      source = 0 ↔
      Fits source := by
  obtain ⟨p, hp, hl, rfl⟩ := (exists_index_iff ht hcode).mp he
  obtain ⟨q, hst⟩ := configure_stores h ht (request p.pixelformat source.width source.height) n
  have hself := getIsysFormat_self (by simpa [checkFmt] using ht) p hp hl.1
  obtain rfl : p = q := Option.some.inj (hself.symm.trans hst.entry)
  rw [hst.validates_iff, ← fits_iff]
  constructor
  · exact fun hv => hv.2.1
  · exact fun hv => ⟨(clamp_eq_self hwidth.1 hwidth.2).symm, hv, hl⟩

end

/-- Whatever has been done to the receiver since its routing was set, and to the node, the
node can be configured for the source if and only if the source's code is not the 24-bit
metadata and its height is one of a node, as it is while the crop is inside. Then the
enumerated pixel formats do, and no others. -/
theorem formats_agree (core : Vb2Core) (calls : List Crop.Call) (ioctls : List Ioctl.Call) (n : Nat) :
    let route := Crop.run subdevSetRouting calls
    let source := route.source
    let av := ioctls.foldl (Ioctl.call core) ipu6IsysVideoInit
    ((∃ type f, checkFmt type = true ∧ ipu6IsysLinkFmtValidate (configure core av type f n) source = 0) ↔
      source.code ≠ MEDIA_BUS_FMT_META_24 ∧ Fits source) ∧
    (route.Inside → Fits source) ∧
    (∀ type pixelformat, checkFmt type = true → Enumerated type source.code pixelformat →
      (ipu6IsysLinkFmtValidate (configure core av type (request pixelformat source.width source.height) n)
        source = 0 ↔
        Fits source)) ∧
    ∀ type f, checkFmt type = true → ipu6IsysLinkFmtValidate (configure core av type f n) source = 0 →
      Enumerated type source.code (Ioctl.ipu6IsysGetFormat (configure core av type f n)) := by
  intro route source av
  have hoffered : Offered route := offered_run offered_setRouting calls
  have hcode : source.code ≠ 0 := supported_ne_zero _ hoffered.source
  have hav : checkFmt av.vbq.type = true := checkFmt_run rfl ioctls
  refine ⟨⟨?_, ?_⟩, hoffered.fits, ?_, ?_⟩
  · rintro ⟨type, f, ht, hret⟩
    obtain ⟨p, hst⟩ := configure_stores hav ht f n
    obtain ⟨-, hheight, hl⟩ := (hst.validates_iff source).mp hret
    refine ⟨fun hmeta => entry_code p hst.entry_mem.1 (hl.2.trans hmeta), ?_⟩
    have hmem := clamp_bounds (show minHeight ≤ maxHeight by decide) f.cap.height
    rwa [← hheight] at hmem
  · rintro ⟨hmeta, hfits⟩
    obtain ⟨type, htype, p, hp, hl⟩ := exists_listed _ hoffered.source hmeta
    have ht : checkFmt type = true := by simpa [checkFmt] using htype
    have he : Enumerated type source.code p.pixelformat := (exists_index_iff ht hcode).mpr ⟨p, hp, hl, rfl⟩
    exact ⟨type, _, ht, (enumerated_validates_iff hav ht hcode hoffered.sourceWidth he n).mpr hfits⟩
  · exact fun type pixelformat ht he => enumerated_validates_iff hav ht hcode hoffered.sourceWidth he n
  · exact fun type f ht hret => configured_enumerated hav ht hcode hret

end Ipu4.Isys.Negotiate
