import Ipu4.Lib.Runs
import Ipu4.Isys.Format

/-!
# Format ioctls of a video node

The format, buffer-request and queueing ioctls of one video node, over the
node's two formats and its vb2 queue. `VIDIOC_S_FMT` for video capture drops
the `-EBUSY` of the try function it calls and stores the format all the same:
the last section says exactly which calls that goes wrong for.
-/

namespace Ipu4.Isys.Ioctl

open Runs (visited forall_visited_iff)

-- ---------------------------------------------------------------------------
-- The node
-- ---------------------------------------------------------------------------

inductive Errno
  | EINVAL | EBUSY
  deriving DecidableEq, Repr

/-- `struct v4l2_pix_format`; `cap` holds pixelformat, width, height,
bytesperline and sizeimage. -/
structure PixFormat where
  cap : CapFormat
  field : Nat
  colorspace : Nat
  priv : Nat
  flags : Nat
  ycbcrEnc : Nat
  quantization : Nat
  xferFunc : Nat
  deriving DecidableEq, Repr

/-- `struct v4l2_meta_format`: dataformat and buffersize are the format and
sizeimage of the shared fields. -/
abbrev MetaFormat := CapFormat

/-- A buffer of the queue: the size of its plane and the payload last set. -/
structure Vb2Buffer where
  planeSize : Nat
  payload : Nat
  deriving DecidableEq, Repr

structure Vb2Queue where
  type : Nat
  isMultiplanar : Bool
  isOutput : Bool
  bufs : List Vb2Buffer
  deriving DecidableEq, Repr

def vb2IsBusy (q : Vb2Queue) : Bool := !q.bufs.isEmpty

/-- What of `struct ipu6_isys_video` the ioctls work on. -/
structure Video where
  pixFmt : PixFormat
  metaFmt : MetaFormat
  vbq : Vb2Queue
  deriving DecidableEq, Repr

-- ---------------------------------------------------------------------------
-- Formats
-- ---------------------------------------------------------------------------

def fieldNone : Nat := 1
def colorspaceRaw : Nat := 11

def tryFmtVidCap (f : PixFormat) : PixFormat :=
  { f with
    cap := (ipu6IsysTryFmtCap videoCapture f.cap).get (tryFmtCap_isSome (.inl rfl) f.cap)
    field := fieldNone
    colorspace := colorspaceRaw
    ycbcrEnc := 0
    quantization := 0
    xferFunc := 0 }

def ipu6IsysVidiocTryFmtVidCap (av : Video) (f : PixFormat) : Except Errno PixFormat :=
  if vb2IsBusy av.vbq then .error .EBUSY else .ok (tryFmtVidCap f)

def ipu6IsysVidiocTryFmtMetaCap (f : MetaFormat) : MetaFormat :=
  (ipu6IsysTryFmtCap metaCapture f).get (tryFmtCap_isSome (.inr rfl) f)

/-- The result of the try function is not looked at; on `-EBUSY` it has left
the user's format as it came. -/
def ipu6IsysVidiocSFmtVidCap (av : Video) (f : PixFormat) : Video :=
  match ipu6IsysVidiocTryFmtVidCap av f with
  | .ok f => { av with pixFmt := f }
  | .error _ => { av with pixFmt := f }

def ipu6IsysVidiocSFmtMetaCap (av : Video) (f : MetaFormat) : Except Errno Video :=
  if vb2IsBusy av.vbq then .error .EBUSY
  else .ok { av with metaFmt := ipu6IsysVidiocTryFmtMetaCap f }

/-- The formats `ipu6_isys_video_init` leaves behind, with no buffers yet. -/
def ipu6IsysVideoInit : Video where
  pixFmt := tryFmtVidCap ⟨⟨0, 1920, 1080, 0, 0⟩, 0, 0, 0, 0, 0, 0, 0⟩
  metaFmt := ipu6IsysVidiocTryFmtMetaCap ⟨0, 1920, 4, 0, 0⟩
  vbq := ⟨videoCapture, false, false, []⟩

-- The getters other parts of the driver read the current format with.

def Video.select (av : Video) (get : CapFormat → Nat) : Nat :=
  if av.vbq.type = videoCapture then get av.pixFmt.cap
  else if av.vbq.type = metaCapture then get av.metaFmt
  else 0

def ipu6IsysGetFormat (av : Video) : Nat := av.select (·.format)
def ipu6IsysGetDataSize (av : Video) : Nat := av.select (·.sizeimage)
def ipu6IsysGetBytesPerLine (av : Video) : Nat := av.select (·.bytesperline)
def ipu6IsysGetFrameWidth (av : Video) : Nat := av.select (·.width)
def ipu6IsysGetFrameHeight (av : Video) : Nat := av.select (·.height)

-- ---------------------------------------------------------------------------
-- Buffers
-- ---------------------------------------------------------------------------

/-- `V4L2_TYPE_IS_MULTIPLANAR` and `V4L2_TYPE_IS_OUTPUT`. -/
def typeIsMultiplanar (type : Nat) : Bool := type == 9 || type == 10
def typeIsOutput (type : Nat) : Bool := type ∈ [2, 3, 5, 7, 8, 10, 12, 14]

/-- The vb2 core: the type of a queue is changed, but for another one while there are
buffers. -/
structure Vb2Core where
  vb2QueueChangeType : Vb2Queue → Nat → Except Errno Vb2Queue
  changed : ∀ q type q', vb2QueueChangeType q type = .ok q' → q' = { q with type := type }
  refused_iff : ∀ q type, (∃ e, vb2QueueChangeType q type = .error e) ↔ vb2IsBusy q = true ∧ type ≠ q.type

section
variable (core : Vb2Core)

/-- `sizes` is empty when called through `VIDIOC_REQBUFS`, where
`*num_planes` is 0. -/
def ipu6IsysQueueSetup (av : Video) : Option Nat → Except Errno Nat
  | none => .ok (ipu6IsysGetDataSize av)
  | some size => if size < ipu6IsysGetDataSize av then .error .EINVAL else .ok size

/-- The queue flags are set before the type is checked. -/
def setQueueType (av : Video) (type : Nat) : Video × Except Errno Unit :=
  let q := { av.vbq with isMultiplanar := typeIsMultiplanar type, isOutput := typeIsOutput type }
  match core.vb2QueueChangeType q type with
  | .ok q => ({ av with vbq := q }, .ok ())
  | .error e => ({ av with vbq := q }, .error e)

/-- `granted` is what vb2 makes of the request: `none` when it refuses it, else
the number of buffers that take the place of the old ones. -/
def ipu6IsysVidiocReqbufs (av : Video) (type : Nat) (granted : Option Nat) : Video :=
  match setQueueType core av type with
  | (av, .error _) => av
  | (av, .ok ()) =>
    match granted, ipu6IsysQueueSetup av none with
    | some n, .ok size => { av with vbq.bufs := List.replicate n ⟨size, 0⟩ }
    | _, _ => av

/-- `size` is the user's sizeimage or buffersize; `granted` as above, but the
new buffers come after the old ones. -/
def ipu6IsysVidiocCreateBufs (av : Video) (type size : Nat) (granted : Option Nat) : Video :=
  match setQueueType core av type with
  | (av, .error _) => av
  | (av, .ok ()) =>
    match granted, ipu6IsysQueueSetup av (some size) with
    | some n, .ok size => { av with vbq.bufs := av.vbq.bufs ++ List.replicate n ⟨size, 0⟩ }
    | _, _ => av

def ipu6IsysBufPrepare (av : Video) (vb : Vb2Buffer) : Except Errno Vb2Buffer :=
  let bytesperline := ipu6IsysGetBytesPerLine av
  let height := ipu6IsysGetFrameHeight av
  let size := ipu6IsysGetDataSize av
  if size > vb.planeSize then .error .EINVAL
  else .ok { vb with payload := bytesperline * height % 2 ^ 32 }

def vb2Qbuf (av : Video) (index : Nat) : Video :=
  match av.vbq.bufs[index]? with
  | none => av
  | some vb =>
    match ipu6IsysBufPrepare av vb with
    | .ok vb => { av with vbq.bufs := av.vbq.bufs.set index vb }
    | .error _ => av

/-- The part of the output pin that `ipu6_isys_fw_pin_cfg` fills from the
node's format. -/
structure OutputPin where
  width : Nat
  height : Nat
  stride : Nat
  payloadBufSize : Nat
  deriving DecidableEq, Repr

def ipu6IsysFwPinCfg (av : Video) : OutputPin where
  width := ipu6IsysGetFrameWidth av
  height := ipu6IsysGetFrameHeight av
  stride := ipu6IsysGetBytesPerLine av
  payloadBufSize := ipu6IsysGetBytesPerLine av * ipu6IsysGetFrameHeight av % 2 ^ 32

-- ---------------------------------------------------------------------------
-- Runs of ioctls
-- ---------------------------------------------------------------------------

inductive Call
  | tryFmtVid (f : PixFormat)
  | tryFmtMeta (f : MetaFormat)
  | sFmtVid (f : PixFormat)
  | sFmtMeta (f : MetaFormat)
  | reqbufs (type : Nat) (granted : Option Nat)
  | createBufs (type size : Nat) (granted : Option Nat)
  | qbuf (index : Nat)
  deriving DecidableEq, Repr

/-- The buffer types that `ipu6_v4l2_ioctl_ops` has format functions for. A request for
another one does not reach the driver. -/
def checkFmt (type : Nat) : Bool := type == videoCapture || type == metaCapture

/-- What a call leaves of the node. Try calls only write to the user's copy. -/
def call (av : Video) : Call → Video
  | .tryFmtVid _ => av
  | .tryFmtMeta _ => av
  | .sFmtVid f => ipu6IsysVidiocSFmtVidCap av f
  | .sFmtMeta f => (ipu6IsysVidiocSFmtMetaCap av f).toOption.getD av
  | .reqbufs type granted => if checkFmt type then ipu6IsysVidiocReqbufs core av type granted else av
  | .createBufs type size granted =>
    if checkFmt type then ipu6IsysVidiocCreateBufs core av type size granted else av
  | .qbuf index => vb2Qbuf av index

end

-- ---------------------------------------------------------------------------
-- Sanitised formats
-- ---------------------------------------------------------------------------

/-- Results of `ipu6_isys_try_fmt_cap`: applying it again changes nothing. -/
def Sanitised (type : Nat) (f : CapFormat) : Prop := ipu6IsysTryFmtCap type f = some f

instance : Decidable (Sanitised type f) := inferInstanceAs (Decidable (_ = _))

/-- The size a buffer is checked against, its payload, and the resolution,
stride and payload size the firmware is given are those of `f`. -/
structure ReadsFrom (av : Video) (f : CapFormat) : Prop where
  prepare : ∀ vb, ipu6IsysBufPrepare av vb =
    if f.sizeimage > vb.planeSize then .error .EINVAL
    else .ok { vb with payload := f.bytesperline * f.height % 2 ^ 32 }
  pin : ipu6IsysFwPinCfg av =
    ⟨f.width, f.height, f.bytesperline, f.bytesperline * f.height % 2 ^ 32⟩

/-- Both formats are sanitised, and so is the one the queue works with. -/
structure Sane (av : Video) : Prop where
  pix : Sanitised videoCapture av.pixFmt.cap
  metadata : Sanitised metaCapture av.metaFmt
  one : ∃ f, Sanitised av.vbq.type f ∧ ReadsFrom av f

/-- A call keeps the formats sanitised, and changes none of them while the
queue is busy. -/
structure FormatsKept (core : Vb2Core) (av : Video) (c : Call) : Prop where
  before : Sane av
  after : Sane (call core av c)
  busy : vb2IsBusy av.vbq → (call core av c).pixFmt = av.pixFmt ∧ (call core av c).metaFmt = av.metaFmt ∧
    ∀ f, ReadsFrom av f → ReadsFrom (call core av c) f

/-- A call is harmless unless it sets another video format on a busy queue. -/
def Harmless (av : Video) : Call → Prop
  | .sFmtVid f => vb2IsBusy av.vbq → f = av.pixFmt
  | _ => True

theorem sanitised_get (ht : type = videoCapture ∨ type = metaCapture) (f : CapFormat)
    (h : (ipu6IsysTryFmtCap type f).isSome = true) :
    Sanitised type ((ipu6IsysTryFmtCap type f).get h) :=
  tryFmtCap_idem ht (Option.some_get h).symm

theorem sanitised_tryFmtVidCap (f : PixFormat) : Sanitised videoCapture (tryFmtVidCap f).cap :=
  sanitised_get (.inl rfl) f.cap _

theorem sanitised_tryFmtMetaCap (f : MetaFormat) :
    Sanitised metaCapture (ipu6IsysVidiocTryFmtMetaCap f) :=
  sanitised_get (.inr rfl) f _

/-- The invariant of the node: both formats sanitised, the queue of one of
the two capture types. -/
structure Inv (av : Video) : Prop where
  pix : Sanitised videoCapture av.pixFmt.cap
  metadata : Sanitised metaCapture av.metaFmt
  type : checkFmt av.vbq.type = true

/-- The format the queue type selects. -/
def Video.current (av : Video) : CapFormat :=
  if av.vbq.type = videoCapture then av.pixFmt.cap else av.metaFmt

theorem select_eq {av : Video} (ht : checkFmt av.vbq.type = true) (get : CapFormat → Nat) :
    av.select get = get av.current := by
  have hm : av.vbq.type ≠ videoCapture → av.vbq.type = metaCapture := by
    intro hne
    simpa [checkFmt, hne] using ht
  unfold Video.select Video.current
  split
  · rfl
  · rename_i hne
    rw [if_pos (hm hne)]

theorem readsFrom_current {av : Video} (ht : checkFmt av.vbq.type = true) : ReadsFrom av av.current where
  prepare := by
    intro vb
    simp only [ipu6IsysBufPrepare, ipu6IsysGetDataSize, ipu6IsysGetBytesPerLine,
      ipu6IsysGetFrameHeight, select_eq ht]
  pin := by
    simp only [ipu6IsysFwPinCfg, ipu6IsysGetFrameWidth, ipu6IsysGetBytesPerLine,
      ipu6IsysGetFrameHeight, select_eq ht]

theorem Inv.sane (h : Inv av) : Sane av := by
  refine ⟨h.pix, h.metadata, av.current, ?_, readsFrom_current h.type⟩
  have ht := h.type
  simp only [checkFmt, Bool.or_eq_true, beq_iff_eq] at ht
  unfold Video.current
  rcases ht with ht | ht
  · rw [if_pos ht, ht]
    exact h.pix
  · rw [if_neg (by rw [ht]; decide), ht]
    exact h.metadata

theorem inv_init : Inv ipu6IsysVideoInit where
  pix := sanitised_tryFmtVidCap _
  metadata := sanitised_tryFmtMetaCap _
  type := rfl

-- ---------------------------------------------------------------------------
-- What one call does
-- ---------------------------------------------------------------------------

section
variable (core : Vb2Core)

/-- The frame of a call that touches neither format: the queue type stays a
capture type, and a busy queue keeps the type it has. -/
structure Frame (av av' : Video) : Prop where
  pix : av'.pixFmt = av.pixFmt
  metadata : av'.metaFmt = av.metaFmt
  type : checkFmt av.vbq.type → checkFmt av'.vbq.type
  busy : vb2IsBusy av.vbq → av'.vbq.type = av.vbq.type

theorem Frame.refl (av : Video) : Frame av av := ⟨rfl, rfl, id, fun _ => rfl⟩

theorem Frame.bufs (h : Frame av av') (bufs : List Vb2Buffer) :
    Frame av { av' with vbq.bufs := bufs } :=
  ⟨h.pix, h.metadata, h.type, h.busy⟩

theorem frame_setQueueType (ht : checkFmt type) : Frame av (setQueueType core av type).1 := by
  unfold setQueueType
  dsimp only
  split
  · rename_i q' heq
    obtain rfl := core.changed _ _ _ heq
    refine ⟨rfl, rfl, fun _ => ht, fun hb => ?_⟩
    -- another type would have been refused
    by_contra hne
    obtain ⟨e, he⟩ := (core.refused_iff { av.vbq with
      isMultiplanar := typeIsMultiplanar type
      isOutput := typeIsOutput type } type).mpr ⟨hb, hne⟩
    cases he.symm.trans heq
  · exact ⟨rfl, rfl, id, fun _ => rfl⟩

theorem frame_reqbufs (ht : checkFmt type) : Frame av (ipu6IsysVidiocReqbufs core av type granted) := by
  have hf : Frame av (setQueueType core av type).1 := frame_setQueueType core ht
  unfold ipu6IsysVidiocReqbufs
  split
  · rename_i heq
    rwa [heq] at hf
  · rename_i heq
    rw [heq] at hf
    split
    · exact hf.bufs _
    · exact hf

theorem frame_createBufs (ht : checkFmt type) :
    Frame av (ipu6IsysVidiocCreateBufs core av type size granted) := by
  have hf : Frame av (setQueueType core av type).1 := frame_setQueueType core ht
  unfold ipu6IsysVidiocCreateBufs
  split
  · rename_i heq
    rwa [heq] at hf
  · rename_i heq
    rw [heq] at hf
    split
    · exact hf.bufs _
    · exact hf

theorem frame_qbuf (av : Video) (index : Nat) : Frame av (vb2Qbuf av index) := by
  unfold vb2Qbuf
  split
  · exact .refl av
  · split
    · exact (Frame.refl av).bufs _
    · exact .refl av

theorem call_cases (av : Video) (c : Call) :
    Frame av (call core av c) ∨
    (∃ f, c = .sFmtVid f ∧
      call core av c = { av with pixFmt := (if vb2IsBusy av.vbq then f else tryFmtVidCap f) }) ∨
    (∃ f, c = .sFmtMeta f ∧ vb2IsBusy av.vbq = false ∧
      call core av c = { av with metaFmt := ipu6IsysVidiocTryFmtMetaCap f }) := by
  cases c with
  | tryFmtVid f => exact .inl (.refl av)
  | tryFmtMeta f => exact .inl (.refl av)
  | sFmtVid f =>
    refine .inr (.inl ⟨f, rfl, ?_⟩)
    simp only [call, ipu6IsysVidiocSFmtVidCap, ipu6IsysVidiocTryFmtVidCap]
    cases vb2IsBusy av.vbq <;> rfl
  | sFmtMeta f =>
    simp only [call, ipu6IsysVidiocSFmtMetaCap]
    cases hb : vb2IsBusy av.vbq
    · exact .inr (.inr ⟨f, rfl, rfl, rfl⟩)
    · exact .inl (.refl av)
  | reqbufs type granted =>
    refine .inl ?_
    simp only [call]
    split
    · rename_i ht
      exact frame_reqbufs core ht
    · exact .refl av
  | createBufs type size granted =>
    refine .inl ?_
    simp only [call]
    split
    · rename_i ht
      exact frame_createBufs core ht
    · exact .refl av
  | qbuf index => exact .inl (frame_qbuf av index)

theorem Frame.inv (hf : Frame av av') (h : Inv av) : Inv av' :=
  ⟨hf.pix ▸ h.pix, hf.metadata ▸ h.metadata, hf.type h.type⟩

theorem inv_call (h : Inv av) (hc : Harmless av c) : Inv (call core av c) := by
  obtain hf | ⟨f, rfl, heq⟩ | ⟨f, rfl, -, heq⟩ := call_cases core av c
  · exact hf.inv h
  · rw [heq]
    refine ⟨?_, h.metadata, h.type⟩
    show Sanitised videoCapture (if vb2IsBusy av.vbq then f else tryFmtVidCap f).cap
    split
    · rename_i hb
      rw [hc hb]
      exact h.pix
    · exact sanitised_tryFmtVidCap f
  · rw [heq]
    exact ⟨h.pix, sanitised_tryFmtMetaCap f, h.type⟩

theorem ReadsFrom.congr {av av' : Video} (h : ReadsFrom av f) (hp : av'.pixFmt = av.pixFmt)
    (hm : av'.metaFmt = av.metaFmt) (ht : av'.vbq.type = av.vbq.type) : ReadsFrom av' f := by
  have hsel : ∀ get, av'.select get = av.select get := by
    intro get
    unfold Video.select
    rw [hp, hm, ht]
  constructor
  · intro vb
    rw [← h.prepare vb]
    unfold ipu6IsysBufPrepare ipu6IsysGetDataSize ipu6IsysGetBytesPerLine ipu6IsysGetFrameHeight
    rw [hsel, hsel, hsel]
  · rw [← h.pin]
    unfold ipu6IsysFwPinCfg ipu6IsysGetFrameWidth ipu6IsysGetBytesPerLine ipu6IsysGetFrameHeight
    rw [hsel, hsel, hsel]

theorem formatsKept_iff (h : Inv av) : FormatsKept core av c ↔ Harmless av c := by
  constructor
  · intro hk
    cases c with
    | sFmtVid f =>
      intro hb
      have hpix := (hk.busy hb).1
      simpa [call, ipu6IsysVidiocSFmtVidCap, ipu6IsysVidiocTryFmtVidCap, hb] using hpix
    | _ => trivial
  · intro hc
    refine ⟨h.sane, (inv_call core h hc).sane, fun hb => ?_⟩
    obtain hf | ⟨f, rfl, heq⟩ | ⟨f, rfl, hidle, heq⟩ := call_cases core av c
    · exact ⟨hf.pix, hf.metadata, fun f hr => hr.congr hf.pix hf.metadata (hf.busy hb)⟩
    · have hsame : call core av (.sFmtVid f) = av := by
        rw [heq, if_pos hb, hc hb]
      rw [hsame]
      exact ⟨rfl, rfl, fun _ hr => hr⟩
    · rw [hidle] at hb
      cases hb

-- ---------------------------------------------------------------------------
-- Whole runs
-- ---------------------------------------------------------------------------

/-- The formats of a node stay sanitised and unchanged while its queue is busy
along a run, exactly if no call of the run sets another video format while
the queue is busy. -/
theorem formats_kept_iff_harmless (calls : List Call) :
    (∀ x ∈ visited (call core) ipu6IsysVideoInit calls, FormatsKept core x.1 x.2) ↔
      ∀ x ∈ visited (call core) ipu6IsysVideoInit calls, Harmless x.1 x.2 :=
  forall_visited_iff inv_init (fun _ _ h => formatsKept_iff core h) (fun _ _ h hc => inv_call core h hc)

end

/-- The core as it is in the kernel. -/
def kernelVb2 : Vb2Core where
  vb2QueueChangeType q type :=
    if type = q.type then .ok q else if vb2IsBusy q then .error .EBUSY else .ok { q with type := type }
  changed := by
    intro q type q' h
    split at h
    · rename_i heq
      obtain rfl := Except.ok.inj h
      rw [heq]
    · split at h
      · cases h
      · exact (Except.ok.inj h).symm
  refused_iff := by
    intro q type
    by_cases heq : type = q.type
    · simp [heq]
    · cases vb2IsBusy q <;> simp [heq]

def rawFormat : PixFormat :=
  ⟨⟨fourcc 'B' 'G' '1' '2', 60000, 60000, 1, 1⟩, fieldNone, colorspaceRaw, 0, 0, 0, 0, 0⟩

theorem sFmtVidCap_stores_raw_format :
    ¬ ∀ x ∈ visited (call kernelVb2) ipu6IsysVideoInit
      [.reqbufs videoCapture (some 1), .sFmtVid rawFormat], FormatsKept kernelVb2 x.1 x.2 := by
  intro h
  have hkept := h (call kernelVb2 ipu6IsysVideoInit (.reqbufs videoCapture (some 1)), .sFmtVid rawFormat)
    (by simp [visited])
  exact absurd (hkept.busy (by decide)).1 (by decide)

end Ipu4.Isys.Ioctl
