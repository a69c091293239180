import Ipu4.Isys.Routes
import Ipu4.Isys.Timing
import Ipu4.Lib.Prog
import Ipu4.Lib.Runs
import Ipu4.Lib.Errno

/-!
# The CSI-2 receiver under its streams

A port of the input system has one receiver, and a stream for each virtual channel of
the sensor behind it. `ipu6_isys_csi2_enable_streams` sets up the receiver before it
starts the sensor, and `ipu6_isys_csi2_disable_streams` takes it down, whichever stream
it is called for. The functions are programs here: accesses to the registers of the
port, to `receiver_errors`, and calls of the sensor and of the stream slots.
-/

namespace Ipu4.Isys.Receiver

open Routes (Route OneToOne)

-- ---------------------------------------------------------------------------
-- Registers of a port
-- ---------------------------------------------------------------------------

def CSI2_REG_CSI_RX_ENABLE : Nat := 0x00
def CSI2_REG_CSI_RX_NOF_ENABLED_LANES : Nat := 0x04
def CSI2_REG_CSI_RX_CONFIG : Nat := 0x08
def CSI2_REG_CSI_RX_DLY_CNT_TERMEN_CLANE : Nat := 0x2c
def CSI2_REG_CSI_RX_DLY_CNT_SETTLE_CLANE : Nat := 0x30
def CSI2_REG_CSI_RX_DLY_CNT_TERMEN_DLANE (n : Nat) : Nat := 0x34 + n * 8
def CSI2_REG_CSI_RX_DLY_CNT_SETTLE_DLANE (n : Nat) : Nat := 0x38 + n * 8

def CSI2_REG_CSI2PART_IRQ_EDGE : Nat := 0x400
def CSI2_REG_CSI2PART_IRQ_MASK : Nat := 0x404
def CSI2_REG_CSI2PART_IRQ_STATUS : Nat := 0x408
def CSI2_REG_CSI2PART_IRQ_CLEAR : Nat := 0x40c
def CSI2_REG_CSI2PART_IRQ_ENABLE : Nat := 0x410
def CSI2_REG_CSI2PART_IRQ_LEVEL_NOT_PULSE : Nat := 0x414

def CSI2_REG_CSIRX_IRQ_EDGE : Nat := 0x500
def CSI2_REG_CSIRX_IRQ_MASK : Nat := 0x504
def CSI2_REG_CSIRX_IRQ_STATUS : Nat := 0x508
def CSI2_REG_CSIRX_IRQ_CLEAR : Nat := 0x50c
def CSI2_REG_CSIRX_IRQ_ENABLE : Nat := 0x510
def CSI2_REG_CSIRX_IRQ_LEVEL_NOT_PULSE : Nat := 0x514

def CSI2_REG_CSI2S2M_IRQ_MASK : Nat := 0x604
def CSI2_REG_CSI2S2M_IRQ_ENABLE : Nat := 0x610

def CSI2_CSI_RX_ENABLE_ENABLE : Nat := 0x01
def CSI2_CSI_RX_CONFIG_RELEASE_LP11 : Nat := 0x1
def CSI2_CSI_RX_CONFIG_DISABLE_BYTE_CLK_GATING : Nat := 0x2
def CSI2_CSI2PART_IRQ_CSIRX : Nat := 0x10000
def CSI2_CSIRX_NUM_ERRORS : Nat := 17
def NR_OF_CSI2_VC : Nat := 4

def IPU_CSI_RX_IRQ_FS_VC (chn : Nat) : Nat := 1 <<< (chn * 4)
def IPU_CSI_RX_IRQ_FE_VC (chn : Nat) : Nat := 2 <<< (chn * 4)

/-- The strings of `ipu4_isys_csi2_error`, and which of them are for information only. -/
def errors : List (String × Bool) :=
  [("Single packet header error corrected", true),
    ("Multiple packet header errors detected", true),
    ("Payload checksum (CRC) error", true),
    ("FIFO overflow", false),
    ("Reserved short packet data type detected", true),
    ("Reserved long packet data type detected", true),
    ("Incomplete long packet detected", false),
    ("Frame sync error", false),
    ("Line sync error", false),
    ("DPHY recoverable synchronization error", true),
    ("DPHY non-recoverable synchronization error", false),
    ("Escape mode error", true),
    ("Escape mode trigger event", true),
    ("Escape mode ultra-low power state for data lane(s)", true),
    ("Escape mode ultra-low power state exit for clock lane", true),
    ("Inter-frame short packet discarded", true),
    ("Inter-frame long packet discarded", true)]

-- ---------------------------------------------------------------------------
-- Calls
-- ---------------------------------------------------------------------------

/-- What `ipu6_isys_csi2_get_link_freq` gives: an error number, or a frequency for which
`calc_timing` is defined. -/
def LinkFreq : Type := { f : Int // (ipu6IsysCsi2CalcTiming f CSI2_ACCINV).isSome }

def LinkFreq.timing (f : LinkFreq) : Except Int Csi2Timing := (ipu6IsysCsi2CalcTiming f.1 CSI2_ACCINV).get f.2

/-- Registers go by their offset in the port, stream slots by their index. `enableStreams`
and `disableStreams` are for streams of the remote sub-device. -/
inductive Call
  | readl (off : Nat)
  | writel (val off : Nat)
  | getLinkFreq
  | enableStreams (streams : Nat)
  | disableStreams (streams : Nat)
  | loadErrors
  | storeErrors (val : Nat)
  | report (error : String × Bool)
  | queryStreamBySource (vc : Nat)
  | putStream (stream : Nat)

@[reducible]
def Call.Ans : Call → Type
  | .readl _ | .loadErrors => Nat
  | .getLinkFreq => LinkFreq
  | .enableStreams _ | .disableStreams _ => Int
  | .queryStreamBySource _ => Option Nat
  | .writel .. | .storeErrors _ | .report _ | .putStream _ => Unit

abbrev Code (α : Type) : Type := Prog Call.Ans α

abbrev Event : Type := Prog.Event Call.Ans

def readl (off : Nat) : Code Nat := Prog.ask (Call.readl off)
def writel (val off : Nat) : Code Unit := Prog.ask (Call.writel val off)
def getLinkFreq : Code LinkFreq := Prog.ask Call.getLinkFreq
def enableStreams (streams : Nat) : Code Int := Prog.ask (Call.enableStreams streams)
def disableStreams (streams : Nat) : Code Int := Prog.ask (Call.disableStreams streams)
def loadErrors : Code Nat := Prog.ask Call.loadErrors
def storeErrors (val : Nat) : Code Unit := Prog.ask (Call.storeErrors val)
def report (error : String × Bool) : Code Unit := Prog.ask (Call.report error)
def queryStreamBySource (vc : Nat) : Code (Option Nat) := Prog.ask (Call.queryStreamBySource vc)
def putStream (stream : Nat) : Code Unit := Prog.ask (Call.putStream stream)

-- ---------------------------------------------------------------------------
-- ipu6-isys-csi2.c and `ipu6_isys_csi2_isr`
-- ---------------------------------------------------------------------------

def ipu4IsysRegisterErrors : Code Unit := do
  let status ← readl CSI2_REG_CSIRX_IRQ_STATUS
  writel status CSI2_REG_CSIRX_IRQ_CLEAR
  let receiverErrors ← loadErrors
  storeErrors (receiverErrors ||| status)

def ipu4IsysCsi2Error : Code Unit := do
  ipu4IsysRegisterErrors
  let status ← loadErrors
  storeErrors 0
  errors.zipIdx.forM fun (error, i) => Prog.when (status.testBit i) (report error)

/-- `ipu6_isys_csi2_set_stream` with `enable` 0. -/
def setStreamOff : Code Unit := do
  ipu4IsysCsi2Error
  let val ← readl CSI2_REG_CSI_RX_CONFIG
  writel (val &&& (0xffffffff ^^^
    (CSI2_CSI_RX_CONFIG_DISABLE_BYTE_CLK_GATING ||| CSI2_CSI_RX_CONFIG_RELEASE_LP11))) CSI2_REG_CSI_RX_CONFIG
  writel 0 CSI2_REG_CSI_RX_ENABLE
  writel 0 CSI2_REG_CSI2S2M_IRQ_MASK
  writel 0 CSI2_REG_CSI2S2M_IRQ_ENABLE
  writel 0 CSI2_REG_CSI2PART_IRQ_MASK
  writel 0 CSI2_REG_CSI2PART_IRQ_ENABLE

def csi2part : Nat :=
  (List.range NR_OF_CSI2_VC).foldl (fun m i => m ||| (IPU_CSI_RX_IRQ_FS_VC i ||| IPU_CSI_RX_IRQ_FE_VC i)) 0

def csi2csirx : Nat := 1 <<< CSI2_CSIRX_NUM_ERRORS - 1

def writeLane (timing : Csi2Timing) (i : Nat) : Code Unit := do
  writel timing.dtermen (CSI2_REG_CSI_RX_DLY_CNT_TERMEN_DLANE i)
  writel timing.dsettle (CSI2_REG_CSI_RX_DLY_CNT_SETTLE_DLANE i)

/-- `ipu6_isys_csi2_set_stream` with `enable` 1. -/
def setStreamOn (timing : Csi2Timing) (nlanes : Nat) : Code Unit := do
  writel timing.ctermen CSI2_REG_CSI_RX_DLY_CNT_TERMEN_CLANE
  writel timing.csettle CSI2_REG_CSI_RX_DLY_CNT_SETTLE_CLANE
  (List.range nlanes).forM (writeLane timing)
  let val ← readl CSI2_REG_CSI_RX_CONFIG
  writel (val ||| (CSI2_CSI_RX_CONFIG_DISABLE_BYTE_CLK_GATING ||| CSI2_CSI_RX_CONFIG_RELEASE_LP11))
    CSI2_REG_CSI_RX_CONFIG
  writel nlanes CSI2_REG_CSI_RX_NOF_ENABLED_LANES
  writel CSI2_CSI_RX_ENABLE_ENABLE CSI2_REG_CSI_RX_ENABLE
  -- the errors of the receiver
  writel csi2csirx CSI2_REG_CSIRX_IRQ_EDGE
  writel 0 CSI2_REG_CSIRX_IRQ_LEVEL_NOT_PULSE
  writel csi2csirx CSI2_REG_CSIRX_IRQ_CLEAR
  writel csi2csirx CSI2_REG_CSIRX_IRQ_MASK
  writel csi2csirx CSI2_REG_CSIRX_IRQ_ENABLE
  -- start and end of frame
  writel csi2part CSI2_REG_CSI2PART_IRQ_EDGE
  writel 0 CSI2_REG_CSI2PART_IRQ_LEVEL_NOT_PULSE
  writel csi2part CSI2_REG_CSI2PART_IRQ_CLEAR
  writel csi2part CSI2_REG_CSI2PART_IRQ_MASK
  writel csi2part CSI2_REG_CSI2PART_IRQ_ENABLE

/-- What the core of V4L2 works out, given the routes of a sub-device and the streams that
are on at each of its source pads: the sink streams that go with streams of a source pad,
and whether it comes back before it asks the driver. -/
structure V4l2Core where
  xlateStreams : List Route → Nat → Nat → Nat
  enableRefused : List Route → (Nat → Nat) → Nat → Nat → Option Int
  disableRefused : List Route → (Nat → Nat) → Nat → Nat → Option Int
  testBit_xlate : ∀ routes pad mask k, (xlateStreams routes pad mask).testBit k = true ↔
    ∃ r ∈ routes, (r.active = true ∧ r.sourcePad = pad ∧ mask.testBit r.sourceStream = true) ∧ r.sinkStream = k
  enable_some : ∀ routes enabled pad mask, enableRefused routes enabled pad mask = none → mask ≠ 0
  disable_on : ∀ routes enabled pad mask, disableRefused routes enabled pad mask = none →
    enabled pad &&& mask = mask

/-- The receiver: its routes, which stay as they are while a stream is on, and the
lanes that are wired, of which V4L2 knows 8. Streams are numbered up to 63. -/
structure Csi2 where
  core : V4l2Core
  routes : List Route
  oneToOne : OneToOne routes
  sinkStream_lt : ∀ r ∈ routes, r.sinkStream < 64
  nlanes : Nat
  nlanes_le : nlanes ≤ 8

def ipu6IsysCsi2EnableStreams (c : Csi2) (pad streamsMask : Nat) : Code Int := do
  let sinkStreams := c.core.xlateStreams c.routes pad streamsMask
  match (← getLinkFreq).timing with
  | .error ret => return ret
  | .ok timing =>
    setStreamOn timing c.nlanes
    let ret ← enableStreams sinkStreams
    if ret ≠ 0 then
      setStreamOff
    return ret

def ipu6IsysCsi2DisableStreams (c : Csi2) (pad streamsMask : Nat) : Code Int := do
  let sinkStreams := c.core.xlateStreams c.routes pad streamsMask
  setStreamOff
  let _ ← disableStreams sinkStreams
  return 0

/-- One of the two looks for a stream in `ipu6_isys_csi2_isr`. -/
def isrVc (vc : Nat) : Code Unit := do
  match ← queryStreamBySource vc with
  | some stream => putStream stream
  | none => return

def ipu6IsysCsi2Isr : Code Unit := do
  let status ← readl CSI2_REG_CSI2PART_IRQ_STATUS
  writel status CSI2_REG_CSI2PART_IRQ_CLEAR
  Prog.when (status &&& CSI2_CSI2PART_IRQ_CSIRX ≠ 0) ipu4IsysRegisterErrors
  (List.range NR_OF_CSI2_VC).forM fun i => do
    Prog.when (status &&& IPU_CSI_RX_IRQ_FS_VC i ≠ 0) (isrVc i)
    Prog.when (status &&& IPU_CSI_RX_IRQ_FE_VC i ≠ 0) (isrVc i)

-- ---------------------------------------------------------------------------
-- The core of V4L2
-- ---------------------------------------------------------------------------

def v4l2SubdevEnableStreams (c : Csi2) (enabled : Nat → Nat) (pad mask : Nat) : Code (Int × (Nat → Nat)) :=
  match c.core.enableRefused c.routes enabled pad mask with
  | some ret => return (ret, enabled)
  | none => do
    let ret ← ipu6IsysCsi2EnableStreams c pad mask
    return (ret, if ret = 0 then Function.update enabled pad (enabled pad ||| mask) else enabled)

def v4l2SubdevDisableStreams (c : Csi2) (enabled : Nat → Nat) (pad mask : Nat) : Code (Int × (Nat → Nat)) :=
  match c.core.disableRefused c.routes enabled pad mask with
  | some ret => return (ret, enabled)
  | none => do
    let ret ← ipu6IsysCsi2DisableStreams c pad mask
    return (ret, if ret = 0 then Function.update enabled pad (enabled pad ^^^ mask) else enabled)

-- ---------------------------------------------------------------------------
-- A port from outside
-- ---------------------------------------------------------------------------

/-- What has been seen of a port: what was written to each register last, the timing of
the last link frequency, the streams that the sensor has on, the stream slots
that have been found and not put since, and how often the sensor has refused to start. -/
structure Seen where
  regs : Nat → Nat
  timing : Csi2Timing
  remote : Nat
  held : List Nat
  refusals : Nat

/-- The receiver as `ipu6_isys_csi2_set_stream` sets it up. -/
structure Running (c : Csi2) (timing : Csi2Timing) (regs : Nat → Nat) : Prop where
  enable : regs CSI2_REG_CSI_RX_ENABLE = CSI2_CSI_RX_ENABLE_ENABLE
  config : regs CSI2_REG_CSI_RX_CONFIG &&&
      (CSI2_CSI_RX_CONFIG_DISABLE_BYTE_CLK_GATING ||| CSI2_CSI_RX_CONFIG_RELEASE_LP11) =
    CSI2_CSI_RX_CONFIG_DISABLE_BYTE_CLK_GATING ||| CSI2_CSI_RX_CONFIG_RELEASE_LP11
  lanes : regs CSI2_REG_CSI_RX_NOF_ENABLED_LANES = c.nlanes
  ctermen : regs CSI2_REG_CSI_RX_DLY_CNT_TERMEN_CLANE = timing.ctermen
  csettle : regs CSI2_REG_CSI_RX_DLY_CNT_SETTLE_CLANE = timing.csettle
  dtermen : ∀ i < c.nlanes, regs (CSI2_REG_CSI_RX_DLY_CNT_TERMEN_DLANE i) = timing.dtermen
  dsettle : ∀ i < c.nlanes, regs (CSI2_REG_CSI_RX_DLY_CNT_SETTLE_DLANE i) = timing.dsettle
  errors : regs CSI2_REG_CSIRX_IRQ_MASK = csi2csirx ∧ regs CSI2_REG_CSIRX_IRQ_ENABLE = csi2csirx
  frames : regs CSI2_REG_CSI2PART_IRQ_MASK = csi2part ∧ regs CSI2_REG_CSI2PART_IRQ_ENABLE = csi2part

/-- The receiver is off, and does not interrupt for frames. -/
structure Quiet (regs : Nat → Nat) : Prop where
  enable : regs CSI2_REG_CSI_RX_ENABLE = 0
  config : regs CSI2_REG_CSI_RX_CONFIG &&&
    (CSI2_CSI_RX_CONFIG_DISABLE_BYTE_CLK_GATING ||| CSI2_CSI_RX_CONFIG_RELEASE_LP11) = 0
  frames : regs CSI2_REG_CSI2PART_IRQ_MASK = 0 ∧ regs CSI2_REG_CSI2PART_IRQ_ENABLE = 0

def Seen.write (t : Seen) (val off : Nat) : Seen := { t with regs := Function.update t.regs off val }

def Seen.next (t : Seen) : Event → Seen
  | ⟨.writel val off, _⟩ => t.write val off
  | ⟨.getLinkFreq, f⟩ => { t with timing := f.timing.toOption.getD t.timing }
  | ⟨.enableStreams streams, ret⟩ =>
    if ret = 0 then { t with remote := t.remote ||| streams } else { t with refusals := t.refusals + 1 }
  | ⟨.disableStreams streams, ret⟩ =>
    if ret = 0 then { t with remote := t.remote &&& (0xffffffffffffffff ^^^ streams) } else t
  | ⟨.queryStreamBySource _, found⟩ => { t with held := found.toList ++ t.held }
  | ⟨.putStream stream, _⟩ => { t with held := t.held.erase stream }
  | _ => t

/-- The sensor may start only while the receiver runs, and a stream slot must be found
before it is put. -/
def Seen.allows (c : Csi2) (t : Seen) : Event → Prop
  | ⟨.enableStreams _, _⟩ => Running c t.timing t.regs
  | ⟨.putStream stream, _⟩ => stream ∈ t.held
  | _ => True

def watch (c : Csi2) : Trace.Monitor Seen Event := ⟨Seen.next, Seen.allows c⟩

-- ---------------------------------------------------------------------------
-- What the functions do to it
-- ---------------------------------------------------------------------------

section
variable {c : Csi2} {t t' : Seen}

theorem write_at (t : Seen) (val off : Nat) : (t.write val off).regs off = val := Function.update_self ..

theorem write_off (t : Seen) (val : Nat) (h : o ≠ off) : (t.write val off).regs o = t.regs o :=
  Function.update_of_ne h ..

theorem write_timing (t : Seen) (val off : Nat) : (t.write val off).timing = t.timing := rfl

@[simp]
theorem meets_readl {Q : Nat → Seen → Prop} : Prog.Meets (watch c) (readl off) t Q ↔ ∀ val, Q val t :=
  forall_congr' fun _ => iff_of_eq (true_and _)

@[simp]
theorem meets_writel {Q : Unit → Seen → Prop} : Prog.Meets (watch c) (writel val off) t Q ↔
    Q () (t.write val off) :=
  ⟨fun h => (h ()).2, fun h _ => ⟨trivial, h⟩⟩

@[simp]
theorem meets_loadErrors {Q : Nat → Seen → Prop} :
    Prog.Meets (watch c) loadErrors t Q ↔ ∀ val, Q val t :=
  forall_congr' fun _ => iff_of_eq (true_and _)

@[simp]
theorem meets_storeErrors {Q : Unit → Seen → Prop} :
    Prog.Meets (watch c) (storeErrors val) t Q ↔ Q () t :=
  ⟨fun h => (h ()).2, fun h _ => ⟨trivial, h⟩⟩

@[simp]
theorem meets_report {Q : Unit → Seen → Prop} :
    Prog.Meets (watch c) (report e) t Q ↔ Q () t :=
  ⟨fun h => (h ()).2, fun h _ => ⟨trivial, h⟩⟩

/-- Registers alone have been written. -/
def Seen.Wrote (t t' : Seen) : Prop := t' = { t with regs := t'.regs }

/-- Nothing but interrupts have been cleared. -/
structure Seen.Cleared (t t' : Seen) : Prop where
  wrote : t.Wrote t'
  regs : ∀ off, off ≠ CSI2_REG_CSIRX_IRQ_CLEAR → off ≠ CSI2_REG_CSI2PART_IRQ_CLEAR → t'.regs off = t.regs off

theorem Seen.Wrote.refl (t : Seen) : t.Wrote t := rfl

theorem Seen.Wrote.trans (h : t.Wrote t') (h' : t'.Wrote t'') : t.Wrote t'' := by
  unfold Seen.Wrote at h h' ⊢
  rw [h', h]

theorem Seen.Wrote.write (h : t.Wrote t') (val off : Nat) : t.Wrote (t'.write val off) := h.trans rfl

theorem Seen.Cleared.refl (t : Seen) : t.Cleared t := ⟨rfl, fun _ _ _ => rfl⟩

theorem Seen.Cleared.trans (h : t.Cleared t') (h' : t'.Cleared t'') : t.Cleared t'' :=
  ⟨h.wrote.trans h'.wrote, fun off hrx hpart => (h'.regs off hrx hpart).trans (h.regs off hrx hpart)⟩

theorem Seen.Cleared.write (h : t.Cleared t')
    (hoff : off = CSI2_REG_CSIRX_IRQ_CLEAR ∨ off = CSI2_REG_CSI2PART_IRQ_CLEAR) (val : Nat) :
    t.Cleared (t'.write val off) := by
  refine h.trans ⟨rfl, fun o hrx hpart => write_off _ _ ?_⟩
  rcases hoff with rfl | rfl
  · exact hrx
  · exact hpart

theorem Running.cleared (h : Running c t.timing t.regs) (hc : t.Cleared t') : Running c t'.timing t'.regs := by
  have hregs : ∀ off, off < 0x400 ∨ off = CSI2_REG_CSI2PART_IRQ_MASK ∨ off = CSI2_REG_CSI2PART_IRQ_ENABLE ∨
      off = CSI2_REG_CSIRX_IRQ_MASK ∨ off = CSI2_REG_CSIRX_IRQ_ENABLE → t'.regs off = t.regs off := by
    intro off hoff
    refine hc.regs off ?_ ?_
    all_goals
      simp only [CSI2_REG_CSI2PART_IRQ_MASK, CSI2_REG_CSI2PART_IRQ_ENABLE, CSI2_REG_CSIRX_IRQ_MASK,
        CSI2_REG_CSIRX_IRQ_ENABLE, CSI2_REG_CSIRX_IRQ_CLEAR, CSI2_REG_CSI2PART_IRQ_CLEAR] at hoff ⊢
      omega
  have hnlanes := c.nlanes_le
  have htiming : t'.timing = t.timing := by rw [hc.wrote]
  have hlane : ∀ i < c.nlanes, CSI2_REG_CSI_RX_DLY_CNT_TERMEN_DLANE i < 0x400 ∧
      CSI2_REG_CSI_RX_DLY_CNT_SETTLE_DLANE i < 0x400 := by
    intro i hi
    unfold CSI2_REG_CSI_RX_DLY_CNT_TERMEN_DLANE CSI2_REG_CSI_RX_DLY_CNT_SETTLE_DLANE
    omega
  refine ⟨?_, ?_, ?_, ?_, ?_, fun i hi => ?_, fun i hi => ?_, ?_, ?_⟩
  · rw [hregs _ (.inl (by decide)), h.enable]
  · rw [hregs _ (.inl (by decide)), h.config]
  · rw [hregs _ (.inl (by decide)), h.lanes]
  · rw [hregs _ (.inl (by decide)), h.ctermen, htiming]
  · rw [hregs _ (.inl (by decide)), h.csettle, htiming]
  · rw [hregs _ (.inl (hlane i hi).1), h.dtermen i hi, htiming]
  · rw [hregs _ (.inl (hlane i hi).2), h.dsettle i hi, htiming]
  · rw [hregs _ (by simp), hregs _ (by simp)]
    exact h.errors
  · rw [hregs _ (by simp), hregs _ (by simp)]
    exact h.frames

theorem Quiet.cleared (h : Quiet t.regs) (hc : t.Cleared t') : Quiet t'.regs := by
  refine ⟨?_, ?_, ?_⟩
  · rw [hc.regs _ (by decide) (by decide), h.enable]
  · rw [hc.regs _ (by decide) (by decide), h.config]
  · rw [hc.regs _ (by decide) (by decide), hc.regs _ (by decide) (by decide)]
    exact h.frames

theorem Quiet.not_running (h : Quiet regs) : ¬ Running c timing regs := fun hrun => by
  have heq := hrun.enable.symm.trans h.enable
  exact absurd heq (by decide)

theorem registerErrors_meets (t : Seen) :
    Prog.Meets (watch c) ipu4IsysRegisterErrors t fun _ t' => t.Cleared t' := by
  simp only [ipu4IsysRegisterErrors, Prog.meets_bind, meets_readl, meets_writel, meets_loadErrors,
    meets_storeErrors]
  exact fun status _ => (Seen.Cleared.refl t).write (.inl rfl) status

theorem csi2Error_meets (t : Seen) :
    Prog.Meets (watch c) ipu4IsysCsi2Error t fun _ t' => t.Cleared t' := by
  simp only [ipu4IsysCsi2Error, Prog.meets_bind, meets_loadErrors, meets_storeErrors]
  refine (registerErrors_meets t).imp fun _ t' ht' _ => ?_
  refine Prog.meets_forM (I := t.Cleared) _ ht' fun x _ t'' ht'' => ?_
  rw [Prog.meets_when]
  exact ⟨fun _ => meets_report.mpr ht'', fun _ => ht''⟩

theorem clearLow_and (val : Nat) : val &&& (0xffffffff ^^^ 3) &&& 3 = 0 := by
  rw [Nat.and_assoc]
  exact Nat.and_zero val

theorem setLow_and (val : Nat) : (val ||| 3) &&& 3 = 3 := by
  refine Nat.eq_of_testBit_eq fun i => ?_
  rw [Nat.testBit_and, Nat.testBit_or]
  cases Nat.testBit 3 i <;> simp

theorem setStreamOff_meets (t : Seen) :
    Prog.Meets (watch c) setStreamOff t fun _ t' => t.Wrote t' ∧ Quiet t'.regs := by
  simp only [setStreamOff, Prog.meets_bind, meets_readl, meets_writel]
  refine (csi2Error_meets t).imp fun _ t' ht' val => ⟨ht'.wrote.trans rfl, ?_, ?_, ?_, ?_⟩
  · simp (disch := decide) only [write_off, write_at]
  · simp (disch := decide) only [write_off, write_at]
    exact clearLow_and val
  · simp (disch := decide) only [write_off, write_at]
  · simp (disch := decide) only [write_at]

/-- The lanes below `n` have been written, and nothing below them. -/
structure Lanes (timing : Csi2Timing) (t : Seen) (n : Nat) (t' : Seen) : Prop where
  wrote : t.Wrote t'
  dtermen : ∀ i < n, t'.regs (CSI2_REG_CSI_RX_DLY_CNT_TERMEN_DLANE i) = timing.dtermen
  dsettle : ∀ i < n, t'.regs (CSI2_REG_CSI_RX_DLY_CNT_SETTLE_DLANE i) = timing.dsettle
  below : ∀ off < 0x34, t'.regs off = t.regs off

theorem writeLane_meets (h : Lanes timing t n t') :
    Prog.Meets (watch c) (writeLane timing n) t' fun _ t'' => Lanes timing t (n + 1) t'' := by
  simp only [writeLane, Prog.meets_bind, meets_writel]
  have hne : ∀ i < n + 1, CSI2_REG_CSI_RX_DLY_CNT_TERMEN_DLANE i ≠ CSI2_REG_CSI_RX_DLY_CNT_SETTLE_DLANE n := by
    intro i _
    unfold CSI2_REG_CSI_RX_DLY_CNT_TERMEN_DLANE CSI2_REG_CSI_RX_DLY_CNT_SETTLE_DLANE
    omega
  refine ⟨(h.wrote.write _ _).write _ _, fun i hi => ?_, fun i hi => ?_, fun off hoff => ?_⟩
  · rw [write_off _ _ (hne i hi)]
    rcases Nat.lt_succ_iff_lt_or_eq.mp hi with hlt | rfl
    · rw [write_off, h.dtermen i hlt]
      unfold CSI2_REG_CSI_RX_DLY_CNT_TERMEN_DLANE
      omega
    · rw [write_at]
  · rcases Nat.lt_succ_iff_lt_or_eq.mp hi with hlt | rfl
    · rw [write_off, write_off, h.dsettle i hlt]
      all_goals
        unfold CSI2_REG_CSI_RX_DLY_CNT_SETTLE_DLANE
        try unfold CSI2_REG_CSI_RX_DLY_CNT_TERMEN_DLANE
        omega
    · rw [write_at]
  · rw [write_off, write_off, h.below off hoff]
    · unfold CSI2_REG_CSI_RX_DLY_CNT_TERMEN_DLANE
      omega
    · unfold CSI2_REG_CSI_RX_DLY_CNT_SETTLE_DLANE
      omega

theorem setStreamOn_meets (t : Seen) :
    Prog.Meets (watch c) (setStreamOn t.timing c.nlanes) t fun _ t' =>
      t.Wrote t' ∧ Running c t'.timing t'.regs := by
  simp only [setStreamOn, Prog.meets_bind, meets_readl, meets_writel]
  refine (Prog.meets_forM_range c.nlanes (I := Lanes t.timing _) ⟨.refl _, ?_, ?_, fun _ _ => rfl⟩
    fun i _ t' ht' => writeLane_meets ht').imp fun _ t' ht' val => ?_
  · exact fun i hi => absurd hi (Nat.not_lt_zero i)
  · exact fun i hi => absurd hi (Nat.not_lt_zero i)
  have hwrote : t.Wrote t' := ((Seen.Wrote.refl t).write _ _ |>.write _ _).trans ht'.wrote
  have htiming : t'.timing = t.timing := by rw [hwrote]
  have hnlanes := c.nlanes_le
  -- the registers of the lanes are apart from those that are written after them
  have hlane : ∀ i < c.nlanes, ∀ off, off ≤ 8 ∨ 0x400 ≤ off →
      CSI2_REG_CSI_RX_DLY_CNT_TERMEN_DLANE i ≠ off ∧ CSI2_REG_CSI_RX_DLY_CNT_SETTLE_DLANE i ≠ off := by
    intro i hi off hoff
    unfold CSI2_REG_CSI_RX_DLY_CNT_TERMEN_DLANE CSI2_REG_CSI_RX_DLY_CNT_SETTLE_DLANE
    omega
  refine ⟨hwrote.trans rfl, ?_, ?_, ?_, ?_, ?_, fun i hi => ?_, fun i hi => ?_, ⟨?_, ?_⟩, ?_, ?_⟩
  · simp (disch := decide) only [write_off, write_at]
  · simp (disch := decide) only [write_off, write_at]
    exact setLow_and val
  · simp (disch := decide) only [write_off, write_at]
  · simp (disch := decide) only [write_off, write_timing]
    rw [ht'.below _ (by decide), htiming]
    simp (disch := decide) only [write_off, write_at]
  · simp (disch := decide) only [write_off, write_timing]
    rw [ht'.below _ (by decide), htiming]
    simp (disch := decide) only [write_at]
  · have hne := fun off hoff => (hlane i hi off hoff).1
    simp (disch := exact hne _ (by decide)) only [write_off, write_timing]
    rw [ht'.dtermen i hi, htiming]
  · have hne := fun off hoff => (hlane i hi off hoff).2
    simp (disch := exact hne _ (by decide)) only [write_off, write_timing]
    rw [ht'.dsettle i hi, htiming]
  all_goals simp (disch := decide) only [write_off, write_at]

theorem timing_error {f : LinkFreq} (h : f.timing = .error e) : e ≠ 0 := by
  obtain ⟨f, hf⟩ := f
  have hsome : ipu6IsysCsi2CalcTiming f CSI2_ACCINV = some (.error e) := by
    rw [← h]
    exact (Option.some_get hf).symm
  unfold ipu6IsysCsi2CalcTiming at hsome
  split at hsome
  · next hneg =>
    obtain rfl : f = e := by simpa using hsome
    omega
  · simp [Option.bind_eq_some_iff] at hsome

@[simp]
theorem meets_getLinkFreq {Q : LinkFreq → Seen → Prop} : Prog.Meets (watch c) getLinkFreq t Q ↔
    ∀ f : LinkFreq, Q f { t with timing := f.timing.toOption.getD t.timing } :=
  forall_congr' fun _ => iff_of_eq (true_and _)

theorem meets_enableStreams {Q : Int → Seen → Prop} : Prog.Meets (watch c) (enableStreams streams) t Q ↔
    ∀ ret : Int, Running c t.timing t.regs ∧ Q ret (if ret = 0 then { t with remote := t.remote ||| streams }
      else { t with refusals := t.refusals + 1 }) :=
  Iff.rfl

/-- What `ipu6_isys_csi2_enable_streams` leaves of a port. -/
inductive Enabled (c : Csi2) (sinkStreams : Nat) (t : Seen) : Int → Seen → Prop
  | noFreq (h : ret ≠ 0) : Enabled c sinkStreams t ret t
  | started (h : Running c u.timing u.regs) (remote : u.remote = t.remote ||| sinkStreams)
      (held : u.held = t.held)
      (refusals : u.refusals = t.refusals) : Enabled c sinkStreams t 0 u
  | refused (hret : ret ≠ 0) (h : Quiet u.regs) (remote : u.remote = t.remote) (held : u.held = t.held)
      (refusals : u.refusals = t.refusals + 1) : Enabled c sinkStreams t ret u

theorem enableStreams_meets (pad mask : Nat) (t : Seen) :
    Prog.Meets (watch c) (ipu6IsysCsi2EnableStreams c pad mask) t
      (Enabled c (c.core.xlateStreams c.routes pad mask) t) := by
  unfold ipu6IsysCsi2EnableStreams
  rw [Prog.meets_bind, meets_getLinkFreq]
  intro f
  cases hf : f.timing with
  | error ret => exact .noFreq (timing_error hf)
  | ok timing =>
    simp only [Except.toOption, Option.getD_some, Prog.meets_bind]
    refine (setStreamOn_meets { t with timing := timing }).imp fun _ t' ht' => ?_
    have hsame : t'.remote = t.remote ∧ t'.held = t.held ∧ t'.refusals = t.refusals := by
      rw [ht'.1]
      exact ⟨rfl, rfl, rfl⟩
    rw [meets_enableStreams]
    refine fun ret => ⟨ht'.2, ?_⟩
    by_cases hret : ret = 0
    · subst hret
      exact .started ht'.2 (by rw [← hsame.1]; rfl) hsame.2.1 hsame.2.2
    · rw [if_neg hret, Prog.meets_ite]
      refine ⟨fun _ => ?_, fun hzero => absurd hret hzero⟩
      simp only [Prog.meets_bind]
      refine (setStreamOff_meets _).imp fun _ t'' ht'' => ?_
      refine .refused hret ht''.2 ?_ ?_ ?_
      all_goals
        rw [ht''.1]
        simp only [hsame]

/-- What `ipu6_isys_csi2_disable_streams` leaves of a port. The sensor is asked to stop, and
what it answers is not looked at. -/
structure Disabled (sinkStreams : Nat) (t : Seen) (ret : Int) (t' : Seen) : Prop where
  ret : ret = 0
  quiet : Quiet t'.regs
  remote : t'.remote = t.remote ∨ t'.remote = t.remote &&& (0xffffffffffffffff ^^^ sinkStreams)
  held : t'.held = t.held
  refusals : t'.refusals = t.refusals

theorem meets_disableStreams {Q : Int → Seen → Prop} : Prog.Meets (watch c) (disableStreams streams) t Q ↔
    ∀ ret : Int, Q ret (if ret = 0 then { t with remote := t.remote &&& (0xffffffffffffffff ^^^ streams) }
      else t) :=
  forall_congr' fun _ => iff_of_eq (true_and _)

theorem disableStreams_meets (pad mask : Nat) (t : Seen) :
    Prog.Meets (watch c) (ipu6IsysCsi2DisableStreams c pad mask) t
      (Disabled (c.core.xlateStreams c.routes pad mask) t) := by
  simp only [ipu6IsysCsi2DisableStreams, Prog.meets_bind]
  refine (setStreamOff_meets t).imp fun _ t' ht' => ?_
  have hsame : t'.remote = t.remote ∧ t'.held = t.held ∧ t'.refusals = t.refusals := by
    rw [ht'.1]
    exact ⟨rfl, rfl, rfl⟩
  rw [meets_disableStreams]
  intro ret
  by_cases hret : ret = 0
  · rw [if_pos hret]
    exact ⟨rfl, ht'.2, .inr (by rw [← hsame.1]), hsame.2.1, hsame.2.2⟩
  · rw [if_neg hret]
    exact ⟨rfl, ht'.2, .inl hsame.1, hsame.2.1, hsame.2.2⟩

theorem meets_queryStreamBySource {Q : Option Nat → Seen → Prop} :
    Prog.Meets (watch c) (queryStreamBySource vc) t Q ↔
      ∀ found : Option Nat, Q found { t with held := found.toList ++ t.held } :=
  forall_congr' fun _ => iff_of_eq (true_and _)

theorem meets_putStream {Q : Unit → Seen → Prop} : Prog.Meets (watch c) (putStream stream) t Q ↔
    stream ∈ t.held ∧ Q () { t with held := t.held.erase stream } :=
  ⟨fun h => h (), fun h _ => h⟩

theorem isrVc_meets (vc : Nat) (t : Seen) : Prog.Meets (watch c) (isrVc vc) t fun _ t' => t' = t := by
  unfold isrVc
  rw [Prog.meets_bind, meets_queryStreamBySource]
  intro found
  cases found with
  | none => rfl
  | some stream =>
    refine meets_putStream.mpr ⟨List.mem_cons_self, ?_⟩
    simp

theorem isr_meets (t : Seen) : Prog.Meets (watch c) ipu6IsysCsi2Isr t fun _ t' => t.Cleared t' := by
  simp only [ipu6IsysCsi2Isr, Prog.meets_bind, meets_readl, meets_writel]
  intro status
  have hclear := (Seen.Cleared.refl t).write (.inr rfl) status
  refine Prog.Meets.imp (Q := fun _ t' => t.Cleared t') ?_ fun _ t' ht' => ?_
  · rw [Prog.meets_when]
    exact ⟨fun _ => (registerErrors_meets _).imp fun _ t' ht' => hclear.trans ht', fun _ => hclear⟩
  · have hvc : ∀ (bit : Prop) [Decidable bit] vc t', t.Cleared t' →
        Prog.Meets (watch c) (Prog.when bit (isrVc vc)) t' fun _ t'' => t.Cleared t'' := by
      intro bit _ vc t' ht'
      rw [Prog.meets_when]
      exact ⟨fun _ => (isrVc_meets vc t').imp fun _ t'' heq => heq ▸ ht', fun _ => ht'⟩
    refine Prog.meets_forM (I := t.Cleared) _ ht' fun vc _ t'' ht'' => ?_
    rw [Prog.meets_bind]
    exact (hvc _ vc t'' ht'').imp fun _ t₁ ht₁ => hvc _ vc t₁ ht₁

end

-- ---------------------------------------------------------------------------
-- Sessions
-- ---------------------------------------------------------------------------

/-- What happens on a port. `device` is all that goes on without the driver. -/
inductive PortEvent (σ : Type)
  | enable (pad mask : Nat)
  | disable (pad mask : Nat)
  | isr
  | device (dev : σ)

/-- The other side, the streams that V4L2 has on, and what has been seen. -/
structure Port (σ : Type) where
  dev : σ
  enabled : Nat → Nat
  seen : Seen

/-- The program of an event. It gives the streams that are on after it. -/
def PortEvent.code (c : Csi2) (enabled : Nat → Nat) : PortEvent σ → Code (Nat → Nat)
  | .enable pad mask => Prod.snd <$> v4l2SubdevEnableStreams c enabled pad mask
  | .disable pad mask => Prod.snd <$> v4l2SubdevDisableStreams c enabled pad mask
  | .isr => do
    ipu6IsysCsi2Isr
    return enabled
  | .device _ => return enabled

def Port.devAt (x : Port σ) : PortEvent σ → σ
  | .device dev => dev
  | _ => x.dev

/-- The sensor refuses to start. -/
def refusal : Event → Bool
  | ⟨.enableStreams _, ret⟩ => ret ≠ 0
  | _ => false

section
variable {σ : Type} (M : Machine Call.Ans σ) (c : Csi2)

def Port.log (x : Port σ) (e : PortEvent σ) : List Event := (e.code c x.enabled).log M (x.devAt e)

def Port.next (x : Port σ) (e : PortEvent σ) : Port σ where
  dev := ((e.code c x.enabled).run M (x.devAt e)).2
  enabled := ((e.code c x.enabled).run M (x.devAt e)).1
  seen := Trace.after (watch c) x.seen (x.log M c e)

/-- No stream is on, and no register has been written. -/
def Port.start (dev : σ) : Port σ := ⟨dev, fun _ => 0, ⟨fun _ => 0, ⟨0, 0, 0, 0⟩, 0, [], 0⟩⟩

/-- While streams are on, one of them is stopped or one more is refused by the sensor. -/
def Port.CutsOff (x : Port σ) : PortEvent σ → Prop
  | .enable pad mask => c.core.enableRefused c.routes x.enabled pad mask = none ∧ (∃ p, x.enabled p ≠ 0) ∧
      (x.log M c (.enable pad mask)).any refusal = true
  | .disable pad mask => c.core.disableRefused c.routes x.enabled pad mask = none ∧
      ∃ p, Function.update x.enabled pad (x.enabled pad ^^^ mask) p ≠ 0
  | _ => False

/-- If streams are on, the receiver runs. -/
def Port.Covered (x : Port σ) : Prop := (∃ p, x.enabled p ≠ 0) → Running c x.seen.timing x.seen.regs

/-- What holds of a port at all times. -/
structure Port.Ok (x : Port σ) : Prop where
  either : Running c x.seen.timing x.seen.regs ∨ Quiet x.seen.regs
  quiet : (∀ p, x.enabled p = 0) → Quiet x.seen.regs
  remote : ∀ r ∈ c.routes, r.active = true → (x.enabled r.sourcePad).testBit r.sourceStream = true →
    x.seen.remote.testBit r.sinkStream = true
  held : x.seen.held = []

end

/-- How an event ends. -/
inductive Outcome {σ : Type} (c : Csi2) (enabled : Nat → Nat) (t : Seen) :
    PortEvent σ → (Nat → Nat) → Seen → Prop
  | same (h : t.Cleared t')
      (hd : ∀ pad mask, e = .disable pad mask → c.core.disableRefused c.routes enabled pad mask ≠ none) :
    Outcome c enabled t e enabled t'
  | started (ha : c.core.enableRefused c.routes enabled pad mask = none) (h : Running c t'.timing t'.regs)
      (remote : t'.remote = t.remote ||| c.core.xlateStreams c.routes pad mask) (held : t'.held = t.held)
      (refusals : t'.refusals = t.refusals) :
    Outcome c enabled t (.enable pad mask) (Function.update enabled pad (enabled pad ||| mask)) t'
  | refused (ha : c.core.enableRefused c.routes enabled pad mask = none) (h : Quiet t'.regs)
      (remote : t'.remote = t.remote)
      (held : t'.held = t.held) (refusals : t'.refusals = t.refusals + 1) :
    Outcome c enabled t (.enable pad mask) enabled t'
  | stopped (ha : c.core.disableRefused c.routes enabled pad mask = none) (h : Quiet t'.regs)
      (remote : t'.remote = t.remote ∨
        t'.remote = t.remote &&& (0xffffffffffffffff ^^^ c.core.xlateStreams c.routes pad mask))
      (held : t'.held = t.held) (refusals : t'.refusals = t.refusals) :
    Outcome c enabled t (.disable pad mask) (Function.update enabled pad (enabled pad ^^^ mask)) t'

section
variable {σ : Type} {M : Machine Call.Ans σ} {c : Csi2} {x : Port σ}

theorem code_meets (e : PortEvent σ) (enabled : Nat → Nat) (t : Seen) :
    Prog.Meets (watch c) (e.code c enabled) t (Outcome c enabled t e) := by
  cases e with
  | enable pad mask =>
    show Prog.Meets (watch c) (v4l2SubdevEnableStreams c enabled pad mask >>= fun r => pure r.2) t _
    unfold v4l2SubdevEnableStreams
    rw [Prog.meets_bind]
    split
    · exact .same (.refl t) fun _ _ h => by cases h
    · next ha =>
      rw [Prog.meets_bind]
      refine (enableStreams_meets pad mask t).imp fun ret t' h => ?_
      cases h with
      | noFreq hret =>
        simp only [Prog.meets_pure, if_neg hret]
        exact .same (.refl t) fun _ _ h => by cases h
      | started h remote held refusals => exact .started ha h remote held refusals
      | refused hret h remote held refusals =>
        simp only [Prog.meets_pure, if_neg hret]
        exact .refused ha h remote held refusals
  | disable pad mask =>
    show Prog.Meets (watch c) (v4l2SubdevDisableStreams c enabled pad mask >>= fun r => pure r.2) t _
    unfold v4l2SubdevDisableStreams
    rw [Prog.meets_bind]
    split
    · next ha =>
      refine .same (.refl t) fun pad mask h => ?_
      cases h
      simp [ha]
    · next ha =>
      rw [Prog.meets_bind]
      refine (disableStreams_meets pad mask t).imp fun ret t' h => ?_
      obtain ⟨rfl, quiet, remote, held, refusals⟩ := h
      exact .stopped ha quiet remote held refusals
  | isr =>
    unfold PortEvent.code
    rw [Prog.meets_bind]
    exact (isr_meets t).imp fun _ t' ht' => .same ht' fun _ _ h => by cases h
  | device dev => exact .same (.refl t) fun _ _ h => by cases h

theorem refusals_after (t : Seen) (es : List Event) :
    (Trace.after (watch c) t es).refusals = t.refusals + es.countP refusal := by
  induction es generalizing t with
  | nil => rfl
  | cons e es ih =>
    rw [Trace.after_cons, ih, List.countP_cons]
    have hnext : ((watch c).next t e).refusals = t.refusals + if refusal e = true then 1 else 0 := by
      obtain ⟨e, ans⟩ := e
      cases e with
      | enableStreams streams =>
        show (Seen.next t ⟨.enableStreams streams, ans⟩).refusals = _
        by_cases hret : ans = 0
        · simp [Seen.next, refusal, hret]
        · simp [Seen.next, refusal, hret]
      | disableStreams streams =>
        show (Seen.next t ⟨.disableStreams streams, ans⟩).refusals = _
        by_cases hret : ans = 0
        · simp [Seen.next, refusal, hret]
        · simp [Seen.next, refusal, hret]
      | _ => rfl
    omega

theorem Port.next_spec (x : Port σ) (e : PortEvent σ) : Trace.Clean (watch c) x.seen (x.log M c e) ∧
    Outcome c x.enabled x.seen e (x.next M c e).enabled (x.next M c e).seen :=
  (code_meets e x.enabled x.seen).run M (x.devAt e)

theorem two_pow_sub_one_xor (m k : Nat) (hk : k < 64) :
    (0xffffffffffffffff ^^^ m).testBit k = !m.testBit k := by
  have hones : Nat.testBit 0xffffffffffffffff k = true := by
    rw [show 0xffffffffffffffff = 2 ^ 64 - 1 from rfl, Nat.testBit_two_pow_sub_one]
    simpa using hk
  rw [Nat.testBit_xor, hones, Bool.true_xor]

theorem not_xlate (hsub : enabled pad &&& mask = mask) (hr : r ∈ c.routes) (ha : r.active = true)
    (hon : (Function.update enabled pad (enabled pad ^^^ mask) r.sourcePad).testBit r.sourceStream = true) :
    (c.core.xlateStreams c.routes pad mask).testBit r.sinkStream = false := by
  by_contra hx
  obtain ⟨r', hr', ⟨-, hpad, hbit⟩, hsink⟩ :=
    (c.core.testBit_xlate c.routes pad mask r.sinkStream).mp (by simpa using hx)
  obtain rfl := c.oneToOne.sink_unique hr' hr hsink
  rw [hpad, Function.update_self, Nat.testBit_xor, hbit] at hon
  have hmask : (enabled pad &&& mask).testBit r'.sourceStream = true := by rw [hsub, hbit]
  rw [Nat.testBit_and, hbit, Bool.and_true] at hmask
  rw [hmask] at hon
  exact absurd hon (by decide)

theorem Outcome.ok {e : PortEvent σ} (h : x.Ok c) (hend : Outcome c x.enabled x.seen e enabled t) (dev : σ) :
    Port.Ok c ⟨dev, enabled, t⟩ := by
  cases hend with
  | same hclear hd =>
    have hsame : t.remote = x.seen.remote ∧ t.held = x.seen.held := by
      rw [hclear.wrote]
      exact ⟨rfl, rfl⟩
    refine ⟨h.either.imp (·.cleared hclear) (·.cleared hclear), fun h0 => (h.quiet h0).cleared hclear, ?_,
      hsame.2.trans h.held⟩
    show ∀ r ∈ c.routes, _ → _ → t.remote.testBit _ = true
    rw [hsame.1]
    exact h.remote
  | @started pad mask _ ha hrun remote held refusals =>
    refine ⟨.inl hrun, fun h0 => absurd (h0 pad) ?_, fun r hr hactive hon => ?_, held.trans h.held⟩
    · show Function.update x.enabled pad (x.enabled pad ||| mask) pad ≠ 0
      rw [Function.update_self]
      exact fun hz => c.core.enable_some _ _ _ _ ha (Nat.or_eq_zero_iff.mp hz).2
    · replace hon :
          (Function.update x.enabled pad (x.enabled pad ||| mask) r.sourcePad).testBit r.sourceStream =
            true := hon
      show t.remote.testBit r.sinkStream = true
      rw [remote, Nat.testBit_or, Bool.or_eq_true]
      by_cases hpad : r.sourcePad = pad
      · rw [hpad, Function.update_self, Nat.testBit_or, Bool.or_eq_true] at hon
        refine hon.imp (fun hold => h.remote r hr hactive (by rw [hpad]; exact hold)) fun hnew => ?_
        exact (c.core.testBit_xlate _ _ _ _).mpr ⟨r, hr, ⟨hactive, hpad, hnew⟩, rfl⟩
      · rw [Function.update_of_ne hpad] at hon
        exact .inl (h.remote r hr hactive hon)
  | refused ha hquiet remote held refusals =>
    refine ⟨.inr hquiet, fun _ => hquiet, ?_, held.trans h.held⟩
    show ∀ r ∈ c.routes, _ → _ → t.remote.testBit _ = true
    rw [remote]
    exact h.remote
  | @stopped pad mask _ ha hquiet remote held refusals =>
    have hsub := c.core.disable_on _ _ _ _ ha
    refine ⟨.inr hquiet, fun _ => hquiet, fun r hr hactive hon => ?_, held.trans h.held⟩
    replace hon :
        (Function.update x.enabled pad (x.enabled pad ^^^ mask) r.sourcePad).testBit r.sourceStream = true := hon
    show t.remote.testBit r.sinkStream = true
    have hold : x.seen.remote.testBit r.sinkStream = true := by
      refine h.remote r hr hactive ?_
      by_cases hpad : r.sourcePad = pad
      · rw [hpad, Function.update_self, Nat.testBit_xor] at hon
        rw [hpad]
        by_contra hoff
        rw [← hsub, Nat.testBit_and] at hon
        simp [hoff] at hon
      · rwa [Function.update_of_ne hpad] at hon
    rcases remote with remote | remote
    · exact remote ▸ hold
    · rw [remote, Nat.testBit_and, hold, two_pow_sub_one_xor _ _ (c.sinkStream_lt r hr),
        not_xlate hsub hr hactive hon]
      rfl

theorem Port.covered_next (hc : x.Covered c) (e : PortEvent σ) :
    (x.next M c e).Covered c ↔ ¬ x.CutsOff M c e := by
  have hrefusals : (x.next M c e).seen.refusals = _ := refusals_after x.seen (x.log M c e)
  have hend := (x.next_spec e (M := M) (c := c)).2
  unfold Port.Covered
  generalize (x.next M c e).enabled = enabled, (x.next M c e).seen = t at hrefusals hend
  cases hend with
  | same hclear hd =>
    refine iff_of_true (fun hon => (hc hon).cleared hclear) ?_
    cases e with
    | enable pad mask =>
      rintro ⟨-, -, hany⟩
      obtain ⟨ev, hev, href⟩ := List.any_eq_true.mp hany
      have hpos : 0 < (x.log M c (.enable pad mask)).countP refusal :=
        List.countP_pos_iff.mpr ⟨ev, hev, href⟩
      have hsame : t.refusals = x.seen.refusals := by rw [hclear.wrote]
      omega
    | disable pad mask => exact fun hcut => hd pad mask rfl hcut.1
    | isr => exact id
    | device dev => exact id
  | @started pad mask _ ha hrun remote held refusals =>
    refine iff_of_true (fun _ => hrun) ?_
    rintro ⟨-, -, hany⟩
    obtain ⟨ev, hev, href⟩ := List.any_eq_true.mp hany
    have hpos : 0 < (x.log M c (.enable pad mask)).countP refusal := List.countP_pos_iff.mpr ⟨ev, hev, href⟩
    omega
  | @refused pad mask _ ha hquiet remote held refusals =>
    have hpos : 0 < (x.log M c (.enable pad mask)).countP refusal := by omega
    obtain ⟨ev, hev, href⟩ := List.countP_pos_iff.mp hpos
    have hany : (x.log M c (.enable pad mask)).any refusal = true := List.any_eq_true.mpr ⟨ev, hev, href⟩
    constructor
    · exact fun hcov hcut => hquiet.not_running (hcov hcut.2.1)
    · exact fun hno hon => absurd ⟨ha, hon, hany⟩ hno
  | @stopped pad mask _ ha hquiet remote held refusals =>
    constructor
    · exact fun hcov hcut => hquiet.not_running (hcov hcut.2)
    · exact fun hno hon => absurd ⟨ha, hon⟩ hno

theorem start_ok (dev : σ) : (Port.start dev).Ok c := by
  have hquiet : Quiet fun _ => 0 := ⟨rfl, Nat.zero_and _, rfl, rfl⟩
  refine ⟨.inr hquiet, fun _ => hquiet, fun r _ _ hon => ?_, rfl⟩
  exact absurd hon (by simp [Port.start])

/-- Over any run of a port, the receiver runs whenever a stream is on, exactly if no stream
is stopped, and none is refused by the sensor, while another one is on. -/
theorem receiver_covers_iff (M : Machine Call.Ans σ) (c : Csi2) (dev : σ) (es : List (PortEvent σ)) :
    (∀ y ∈ Runs.visited (Port.next M c) (.start dev) es, (y.1.next M c y.2).Covered c) ↔
      ∀ y ∈ Runs.visited (Port.next M c) (.start dev) es, ¬ y.1.CutsOff M c y.2 := by
  refine Runs.forall_visited_iff (I := fun x : Port σ => x.Ok c ∧ x.Covered c)
    ⟨start_ok dev, fun hon => absurd rfl hon.choose_spec⟩
    (fun x e hx => Port.covered_next hx.2 e) fun x e hx hcut => ?_
  exact ⟨(Port.next_spec x e).2.ok hx.1 _, (Port.covered_next hx.2 e).mpr hcut⟩

/-- Over any run of a port, the sensor is started only while the receiver runs, exactly the
stream slots that are found are put, the sensor has every stream on that V4L2 has on, and
the receiver is off whenever there is none. -/
theorem receiver_session (M : Machine Call.Ans σ) (c : Csi2) (dev : σ) (es : List (PortEvent σ)) :
    ∀ y ∈ Runs.visited (Port.next M c) (.start dev) es,
      Trace.Clean (watch c) y.1.seen (y.1.log M c y.2) ∧ (y.1.next M c y.2).Ok c := by
  have hok : ∀ y ∈ Runs.visited (Port.next M c) (.start dev) es, (y.1.next M c y.2).Ok c :=
    Runs.forall_visited_of (C := fun _ _ => True) (start_ok dev) (fun x e hx _ => (Port.next_spec x e).2.ok hx _)
      fun _ _ => trivial
  exact fun y hy => ⟨(Port.next_spec y.1 y.2).1, hok y hy⟩

end

-- ---------------------------------------------------------------------------
-- The core as it is in the kernel
-- ---------------------------------------------------------------------------

/-- The bits that routes from a source pad give for its streams. -/
def routeMask (bit : Route → Nat) (routes : List Route) (pad mask : Nat) : Nat :=
  routes.foldl (fun m r => if r.active ∧ r.sourcePad = pad ∧ mask.testBit r.sourceStream then
    m ||| 1 <<< bit r else m) 0

/-- `v4l2_subdev_collect_streams` finds those of the streams that the pad has. -/
def foundStreams : List Route → Nat → Nat → Nat := routeMask Route.sourceStream

def enableRefused (routes : List Route) (enabled : Nat → Nat) (pad mask : Nat) : Option Int :=
  if mask = 0 then some 0
  else if foundStreams routes pad mask ≠ mask then some (-EINVAL)
  else if enabled pad &&& mask ≠ 0 then some (-EALREADY)
  else none

def disableRefused (routes : List Route) (enabled : Nat → Nat) (pad mask : Nat) : Option Int :=
  if mask = 0 then some 0
  else if foundStreams routes pad mask ≠ mask then some (-EINVAL)
  else if enabled pad &&& mask ≠ mask then some (-EALREADY)
  else none

theorem testBit_foldl_mask (p : Route → Prop) [DecidablePred p] (bit : Route → Nat) (routes : List Route)
    (m k : Nat) :
    (routes.foldl (fun m r => if p r then m ||| 1 <<< bit r else m) m).testBit k = true ↔
      m.testBit k = true ∨ ∃ r ∈ routes, p r ∧ bit r = k := by
  induction routes generalizing m with
  | nil => simp
  | cons r routes ih =>
    rw [List.foldl_cons, ih]
    by_cases hr : p r
    · simp [hr, Nat.testBit_or, Nat.one_shiftLeft, Nat.testBit_two_pow, or_assoc]
    · simp [hr]

def kernelCore : V4l2Core where
  xlateStreams := routeMask Route.sinkStream
  enableRefused := enableRefused
  disableRefused := disableRefused
  testBit_xlate := fun routes pad mask k => by
    unfold routeMask
    rw [testBit_foldl_mask]
    simp
  enable_some := fun routes enabled pad mask h => by
    unfold enableRefused at h
    grind
  disable_on := fun routes enabled pad mask h => by
    unfold disableRefused at h
    grind

def twoRoutes : Csi2 where
  core := kernelCore
  routes := [⟨0, 0, 1, 0, 1⟩, ⟨0, 1, 2, 0, 1⟩]
  oneToOne := ⟨by decide, by decide, by decide⟩
  sinkStream_lt := by decide
  nlanes := 2
  nlanes_le := by decide

/-- Frames start and end on the first two channels, whose streams are in slots 4 and 5, and
the sensor does as it is told. -/
def twoChannels : Machine Call.Ans Unit where
  step
    | .readl off, _ => (if off = CSI2_REG_CSI2PART_IRQ_STATUS then 0x33 else 0, ())
    | .loadErrors, _ => (0, ())
    | .getLinkFreq, _ => (⟨400000000, by decide⟩, ())
    | .enableStreams _, _ | .disableStreams _, _ => (0, ())
    | .queryStreamBySource vc, _ => (some (4 + vc), ())
    | .writel .., _ | .storeErrors _, _ | .report _, _ | .putStream _, _ => ((), ())

def bothOn : Port Unit := [.enable 1 1, .enable 2 1].foldl (Port.next twoChannels twoRoutes) (.start ())

theorem receiver_session_two_streams :
    Trace.Clean (watch twoRoutes) bothOn.seen (bothOn.log twoChannels twoRoutes .isr) ∧
      (bothOn.next twoChannels twoRoutes .isr).Ok twoRoutes :=
  receiver_session twoChannels twoRoutes () [.enable 1 1, .enable 2 1, .isr] (bothOn, .isr)
    (by simp [Runs.visited, bothOn])

end Ipu4.Isys.Receiver
