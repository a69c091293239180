import Ipu4.Qemu.Guest

/-!
# The register space of the QEMU model

The BAR of the device as `ipu4_mmio_read` and `ipu4_mmio_write` decode it: single
registers, the DMEM and MMU windows, and six CSI-2 ports. A write in DMEM runs
the responder on guest memory. Values are of 32 bits; an address may be unaligned.
-/

namespace Ipu4.Qemu

open FwCom (SysQueue)

-- ---------------------------------------------------------------------------
-- Interrupt blocks and CSI-2 ports
-- ---------------------------------------------------------------------------

/-- The latches of one interrupt block. -/
structure IrqBlock where
  edge : Nat
  mask : Nat
  status : Nat
  enable : Nat
  level : Nat
  deriving DecidableEq, Repr

def IrqBlock.reset : IrqBlock := ⟨0, 0, 0, 0, 0⟩

inductive IrqReg
  | edge | mask | status | clear | enable | levelNotPulse
  deriving DecidableEq, Repr

/-- Write-1-to-clear of a 32-bit register. -/
def clearBits (x val : Nat) : Nat := x &&& (0xffffffff ^^^ val % 2 ^ 32)

/-- Only enabled bits are shown. -/
def IrqBlock.read (b : IrqBlock) : IrqReg → Option Nat
  | .edge => some b.edge
  | .mask => some b.mask
  | .status => some (b.status &&& b.enable)
  | .clear => none
  | .enable => some b.enable
  | .levelNotPulse => some b.level

def IrqBlock.write (b : IrqBlock) (val : Nat) : IrqReg → Option IrqBlock
  | .edge => some { b with edge := val }
  | .mask => some { b with mask := val }
  | .status => none
  | .clear => some { b with status := clearBits b.status val }
  | .enable => some { b with enable := val }
  | .levelNotPulse => some { b with level := val }

/-- `Ipu4Csi2Port`. -/
structure Csi2Port where
  rxEnable : Nat
  rxNofLanes : Nat
  rxConfig : Nat
  dlyTermenC : Nat
  dlySettleC : Nat
  dlyTermenD0 : Nat
  dlySettleD0 : Nat
  part : IrqBlock
  rx : IrqBlock
  s2m : IrqBlock
  deriving DecidableEq, Repr

def Csi2Port.reset : Csi2Port := ⟨0, 0, 0, 0, 0, 0, 0, .reset, .reset, .reset⟩

inductive Csi2Reg
  | rxEnable | rxNofLanes | rxConfig | dlyTermenC | dlySettleC | dlyTermenD0 | dlySettleD0
  | part (r : IrqReg) | rx (r : IrqReg) | s2m (r : IrqReg)
  deriving DecidableEq, Repr

/-- The `CSI2_PORT_REG_*` offsets. -/
def csi2Regs : List (Nat × Csi2Reg) :=
  [(0x000, .rxEnable), (0x004, .rxNofLanes), (0x008, .rxConfig), (0x02c, .dlyTermenC),
    (0x030, .dlySettleC), (0x034, .dlyTermenD0), (0x038, .dlySettleD0),
    (0x400, .part .edge), (0x404, .part .mask), (0x408, .part .status), (0x40c, .part .clear),
    (0x410, .part .enable), (0x414, .part .levelNotPulse),
    (0x500, .rx .edge), (0x504, .rx .mask), (0x508, .rx .status), (0x50c, .rx .clear),
    (0x510, .rx .enable), (0x514, .rx .levelNotPulse),
    (0x600, .s2m .edge), (0x604, .s2m .mask), (0x608, .s2m .status), (0x60c, .s2m .clear),
    (0x610, .s2m .enable), (0x614, .s2m .levelNotPulse)]

def Csi2Port.readReg (p : Csi2Port) : Csi2Reg → Option Nat
  | .rxEnable => some p.rxEnable
  | .rxNofLanes => some p.rxNofLanes
  | .rxConfig => some p.rxConfig
  | .dlyTermenC => some p.dlyTermenC
  | .dlySettleC => some p.dlySettleC
  | .dlyTermenD0 => some p.dlyTermenD0
  | .dlySettleD0 => some p.dlySettleD0
  | .part r => p.part.read r
  | .rx r => p.rx.read r
  | .s2m r => p.s2m.read r

def Csi2Port.writeReg (p : Csi2Port) (val : Nat) : Csi2Reg → Option Csi2Port
  | .rxEnable => some { p with rxEnable := val }
  | .rxNofLanes => some { p with rxNofLanes := val }
  | .rxConfig => some { p with rxConfig := val }
  | .dlyTermenC => some { p with dlyTermenC := val }
  | .dlySettleC => some { p with dlySettleC := val }
  | .dlyTermenD0 => some { p with dlyTermenD0 := val }
  | .dlySettleD0 => some { p with dlySettleD0 := val }
  | .part r => (p.part.write val r).map fun b => { p with part := b }
  | .rx r => (p.rx.write val r).map fun b => { p with rx := b }
  | .s2m r => (p.s2m.write val r).map fun b => { p with s2m := b }

/-- `none` is the unimplemented register. -/
def ipu4Csi2PortRead (p : Csi2Port) (regOff : Nat) : Option Nat :=
  (csi2Regs.lookup regOff).bind p.readReg

def ipu4Csi2PortWrite (p : Csi2Port) (regOff val : Nat) : Option Csi2Port :=
  (csi2Regs.lookup regOff).bind (p.writeReg val)

/-- Base and size of the ports. -/
def ipu4Csi2Ports : List (Nat × Nat) :=
  [(0x64000, 0x1000), (0x65000, 0x1000), (0x66000, 0x1000), (0x67000, 0x1000), (0x6c000, 0x800),
    (0x6c800, 0x800)]

/-- The loop over the ports, from port `i` on. -/
def resolveFrom (addr : Nat) : Nat → List (Nat × Nat) → Option (Nat × Nat)
  | _, [] => none
  | i, (base, size) :: ports =>
    if base ≤ addr ∧ addr < base + size then some (i, addr - base)
    else resolveFrom addr (i + 1) ports

/-- The port and the offset in it. -/
def ipu4Csi2Resolve (addr : Nat) : Option (Nat × Nat) := resolveFrom addr 0 ipu4Csi2Ports

-- ---------------------------------------------------------------------------
-- The device
-- ---------------------------------------------------------------------------

/-- `Ipu4State` of the source, but for the PCI device. -/
structure Device where
  btrsCtrl : Nat
  fwResetCtl : Nat
  isFreqCtl : Nat
  psFreqCtl : Nat
  isPowered : Bool
  psPowered : Bool
  fabricCmd : Nat
  pwrState : Nat
  isrEnable : Nat
  isrStatus : Nat
  fwSrcLo : Nat
  fwSrcHi : Nat
  fwSrcSize : Nat
  securityCtl : Nat
  iu2cseCsr : Nat
  cse2iuCsr : Nat
  cse2iuData0 : Nat
  isUnispart : IrqBlock
  isUnispartSwIrqMux : Nat
  csi2 : Nat → Csi2Port
  isDmem : Nat → Nat
  isSpcStatusCtrl : Nat
  psSpcStatusCtrl : Nat
  isMmu : Nat → Nat
  psMmu : Nat → Nat
  isMmuL1Pfn : Nat
  syscomConfigIova : Nat
  isSendQ : Nat → Option SysQueue
  isRecvQ : Option SysQueue
  isSendWrSeen : Nat → Nat

/-- `ipu4_reset`. -/
def Device.reset : Device where
  btrsCtrl := 0x10
  fwResetCtl := 0
  isFreqCtl := 0
  psFreqCtl := 0
  isPowered := false
  psPowered := false
  fabricCmd := 0
  pwrState := 0
  isrEnable := 0
  isrStatus := 0
  fwSrcLo := 0
  fwSrcHi := 0
  fwSrcSize := 0
  securityCtl := 0x37002
  iu2cseCsr := 0
  cse2iuCsr := 0
  cse2iuData0 := 0
  isUnispart := .reset
  isUnispartSwIrqMux := 0
  csi2 := fun _ => .reset
  isDmem := fun _ => 0
  isSpcStatusCtrl := 0
  psSpcStatusCtrl := 0
  isMmu := fun _ => 0
  psMmu := fun _ => 0
  isMmuL1Pfn := 0
  syscomConfigIova := 0
  isSendQ := fun _ => none
  isRecvQ := none
  isSendWrSeen := fun _ => 0

/-- What the responder sees of the device, with nothing posted in this access yet. -/
def Device.responder (d : Device) : Ipu4State where
  isDmem := d.isDmem
  syscomConfigIova := d.syscomConfigIova
  isSendQ := d.isSendQ
  isRecvQ := d.isRecvQ
  isSendWrSeen := d.isSendWrSeen
  isUnispartIrqStatus := d.isUnispart.status
  isrStatus := d.isrStatus
  csi2PartStatus := (d.csi2 0).part.status
  resps := fun _ => default
  posted := []
  dispatched := []

def Csi2Port.setPartStatus (p : Csi2Port) (status : Nat) : Csi2Port :=
  { p with part := { p.part with status := status } }

/-- The device after the responder. -/
def Device.after (d : Device) (s : Ipu4State) : Device :=
  { d with
    isDmem := s.isDmem
    syscomConfigIova := s.syscomConfigIova
    isSendQ := s.isSendQ
    isRecvQ := s.isRecvQ
    isSendWrSeen := s.isSendWrSeen
    isUnispart := { d.isUnispart with status := s.isUnispartIrqStatus }
    isrStatus := s.isrStatus
    csi2 := Function.update d.csi2 0 ((d.csi2 0).setPartStatus s.csi2PartStatus) }

-- ---------------------------------------------------------------------------
-- Decoding
-- ---------------------------------------------------------------------------

inductive Reg
  | wdt | btrsCtrl | fwResetCtl | isFreqCtl | psFreqCtl | pwrState | fwSourceBaseLo
  | fwSourceBaseHi | fwSourceSize | fabricCmd | isrStatus | isrEnabledStatus | isrEnable | isrClear
  | iu2cseDb0 | iu2cseData0 | iu2cseCsr | tscLo | tscHi | securityCtl | cse2iuDb0 | cse2iuData0
  | cse2iuCsr | sku
  | unispart (r : IrqReg) | unispartSwIrq | unispartSwIrqMux
  | isSpcStatusCtrl | psSpcStatusCtrl
  deriving DecidableEq, Repr

def regs : List (Nat × Reg) :=
  [(0x008, .wdt), (0x00c, .btrsCtrl), (0x030, .fwResetCtl), (0x034, .isFreqCtl),
    (0x038, .psFreqCtl), (0x05c, .pwrState), (0x078, .fwSourceBaseLo), (0x07c, .fwSourceBaseHi),
    (0x080, .fwSourceSize), (0x088, .fabricCmd), (0x090, .isrStatus), (0x094, .isrEnabledStatus),
    (0x098, .isrEnable), (0x09c, .isrClear), (0x100, .iu2cseDb0), (0x104, .iu2cseData0),
    (0x108, .iu2cseCsr), (0x164, .tscLo), (0x168, .tscHi), (0x300, .securityCtl),
    (0x304, .cse2iuDb0), (0x308, .cse2iuData0), (0x30c, .cse2iuCsr), (0x314, .sku),
    (0x17c000, .unispart .edge), (0x17c004, .unispart .mask), (0x17c008, .unispart .status),
    (0x17c00c, .unispart .clear), (0x17c010, .unispart .enable),
    (0x17c014, .unispart .levelNotPulse), (0x17c414, .unispartSwIrq), (0x17c418, .unispartSwIrqMux),
    (0x100000, .isSpcStatusCtrl), (0x400000, .psSpcStatusCtrl)]

/-- Where an address of the BAR leads. -/
inductive Place
  | reg (r : Reg)
  | dmem (i : Nat)
  | isMmu (i : Nat)
  | psMmu (i : Nat)
  | csi2 (port off : Nat)
  | nowhere
  deriving DecidableEq, Repr

def IS_DMEM_BASE : Nat := 0x108000
def IS_DMEM_SIZE : Nat := 0x100
def IS_DMEM_SYSCOM_STATE : Nat := IS_DMEM_BASE + 0x008
def IS_DMEM_FW_COM_SEND_RD_POS : Nat := IS_DMEM_BASE + 0x02c
def IS_MMU_BASE : Nat := 0x1e0000
def IS_MMU_SIZE : Nat := 0x500
def IS_MMU_SUB0_REG_L1_PHYS : Nat := IS_MMU_BASE + 0x004
def PS_MMU_BASE : Nat := 0x4b0000
def PS_MMU_SIZE : Nat := 0xa00

/-- The switch of the two handlers and the windows of its default case. -/
def decode (addr : Nat) : Place :=
  match regs.lookup addr with
  | some r => .reg r
  | none =>
    if IS_DMEM_BASE ≤ addr ∧ addr < IS_DMEM_BASE + IS_DMEM_SIZE then .dmem ((addr - IS_DMEM_BASE) / 4)
    else if IS_MMU_BASE ≤ addr ∧ addr < IS_MMU_BASE + IS_MMU_SIZE then .isMmu ((addr - IS_MMU_BASE) / 4)
    else if PS_MMU_BASE ≤ addr ∧ addr < PS_MMU_BASE + PS_MMU_SIZE then .psMmu ((addr - PS_MMU_BASE) / 4)
    else
      match ipu4Csi2Resolve addr with
      | some (port, off) => .csi2 port off
      | none => .nowhere

-- ---------------------------------------------------------------------------
-- Reads
-- ---------------------------------------------------------------------------

def BTRS_PWR_STATE_PWR_RDY : Nat := 3
def BTRS_PWR_STATE_HH_DONE : Nat := 2 <<< 12
def BTRS_PWR_STATE_IS_RDY : Nat := 0xa <<< 20
def BTRS_PWR_STATE_PS_PWR_UP : Nat := 0xf <<< 24

def powerState (d : Device) : Nat :=
  BTRS_PWR_STATE_PWR_RDY ||| BTRS_PWR_STATE_HH_DONE |||
    (if d.isPowered then BTRS_PWR_STATE_IS_RDY else 0) |||
    (if d.psPowered then BTRS_PWR_STATE_PS_PWR_UP else 0)

/-- READY forced on and START forced off. -/
def spcStatus (latch : Nat) : Nat := clearBits latch (1 <<< 1) ||| 1 <<< 5

/-- `clock` is the virtual clock in nanoseconds. A register that is not listed reads
as 0. -/
def readReg (clock : Nat) (d : Device) : Reg → Device × Nat
  | .wdt => (d, 0xfff0fff)
  | .btrsCtrl => (d, d.btrsCtrl)
  | .fwResetCtl =>
    let ctl := if d.fwResetCtl.testBit 0 then d.fwResetCtl ||| 1 <<< 1 else d.fwResetCtl
    ({ d with fwResetCtl := ctl }, ctl)
  | .pwrState => ({ d with pwrState := powerState d }, powerState d)
  | .isrStatus => (d, d.isrStatus &&& d.isrEnable)
  | .isrEnabledStatus => (d, d.isrStatus &&& d.isrEnable)
  | .isrEnable => (d, d.isrEnable)
  | .securityCtl => (d, d.securityCtl)
  | .iu2cseCsr => (d, d.iu2cseCsr)
  | .cse2iuCsr => (d, d.cse2iuCsr)
  | .cse2iuData0 => (d, d.cse2iuData0)
  | .sku => (d, 0)
  | .tscLo => (d, clock % 2 ^ 32)
  | .tscHi => (d, clock / 2 ^ 32)
  | .unispart .edge => (d, d.isUnispart.edge)
  | .unispart .mask => (d, d.isUnispart.mask)
  | .unispart .status => (d, d.isUnispart.status)
  | .unispart .enable => (d, d.isUnispart.enable)
  | .unispart .levelNotPulse => (d, d.isUnispart.level)
  | .unispartSwIrqMux => (d, d.isUnispartSwIrqMux)
  | .isSpcStatusCtrl => (d, spcStatus d.isSpcStatusCtrl)
  | .psSpcStatusCtrl => (d, spcStatus d.psSpcStatusCtrl)
  | .isFreqCtl | .psFreqCtl | .fwSourceBaseLo | .fwSourceBaseHi | .fwSourceSize | .fabricCmd
  | .isrClear | .iu2cseDb0 | .iu2cseData0 | .cse2iuDb0 | .unispart .clear | .unispartSwIrq => (d, 0)

def ipu4MmioRead (clock : Nat) (d : Device) (addr : Nat) : Device × Nat :=
  match decode addr with
  | .reg r => readReg clock d r
  | .dmem i =>
    -- the exact address: a byte read behind it is a read of the latch
    (d, if addr = IS_DMEM_FW_COM_SEND_RD_POS then d.isDmem 10
      else if addr = IS_DMEM_SYSCOM_STATE then SYSCOM_STATE_READY
      else d.isDmem i)
  | .isMmu i => (d, d.isMmu i)
  | .psMmu i => (d, d.psMmu i)
  | .csi2 port off => (d, (ipu4Csi2PortRead (d.csi2 port) off).getD 0)
  | .nowhere => (d, 0)

theorem decode_dmem (hreg : reg < 64) : decode (IS_DMEM_BASE + 4 * reg) = .dmem reg := by
  revert reg
  decide +kernel

theorem ipu4MmioRead_dmem (hreg : reg < 64) (clock : Nat) (d : Device) :
    ipu4MmioRead clock d (IS_DMEM_BASE + 4 * reg) = (d, ipu4DmemRead d.responder reg) := by
  unfold ipu4MmioRead ipu4DmemRead
  rw [decode_dmem hreg]
  have hrd : IS_DMEM_BASE + 4 * reg = IS_DMEM_FW_COM_SEND_RD_POS ↔ reg = 11 := by
    unfold IS_DMEM_FW_COM_SEND_RD_POS
    omega
  have hstate : IS_DMEM_BASE + 4 * reg = IS_DMEM_SYSCOM_STATE ↔ reg = SYSCOM_STATE_REG := by
    unfold IS_DMEM_SYSCOM_STATE SYSCOM_STATE_REG
    omega
  simp only [hrd, hstate]
  rfl

-- ---------------------------------------------------------------------------
-- Writes
-- ---------------------------------------------------------------------------

/-- CSR_OUT: the answers that let the driver's reset of the IPC end. -/
def iu2cseCsrWrite (d : Device) (val : Nat) : Device :=
  let csr := if val.testBit 0 then d.cse2iuCsr ||| 1 <<< 1 else d.cse2iuCsr
  let csr := if val.testBit 3 then csr ||| 1 <<< 4 else csr
  { d with iu2cseCsr := val, cse2iuCsr := csr }

def writeReg (d : Device) (val : Nat) : Reg → Device
  | .btrsCtrl => { d with btrsCtrl := val }
  | .fwResetCtl => { d with fwResetCtl := val }
  | .isFreqCtl => { d with isFreqCtl := val, isPowered := val.testBit 31 }
  | .psFreqCtl => { d with psFreqCtl := val, psPowered := val.testBit 31 }
  | .fabricCmd => { d with fabricCmd := val }
  | .fwSourceBaseLo => { d with fwSrcLo := val }
  | .fwSourceBaseHi => { d with fwSrcHi := val }
  | .fwSourceSize => { d with fwSrcSize := val }
  | .isrEnable => { d with isrEnable := val }
  | .isrClear => { d with isrStatus := clearBits d.isrStatus val }
  | .securityCtl => { d with securityCtl := val }
  | .iu2cseData0 => { d with iu2cseCsr := val }
  | .iu2cseCsr => iu2cseCsrWrite d val
  | .cse2iuCsr => { d with cse2iuCsr := clearBits d.cse2iuCsr val }
  | .cse2iuDb0 => { d with cse2iuData0 := 0 }
  | .unispart r => { d with isUnispart := (d.isUnispart.write val r).getD d.isUnispart }
  | .unispartSwIrqMux => { d with isUnispartSwIrqMux := val }
  | .isSpcStatusCtrl => { d with isSpcStatusCtrl := val }
  | .psSpcStatusCtrl => { d with psSpcStatusCtrl := val }
  | .wdt | .iu2cseDb0 | .unispartSwIrq | .pwrState | .isrStatus | .isrEnabledStatus | .cse2iuData0
  | .sku | .tscLo | .tscHi => d

/-- The guest memory after the write and the responses posted during it. -/
structure Effect where
  mem : Memory
  posted : List RespInfo

def ipu4MmioWrite (mem : Memory) (d : Device) (addr val : Nat) : Device × Effect :=
  match decode addr with
  | .reg r => (writeReg d val r, ⟨mem, []⟩)
  | .dmem i =>
    let g := Guest.dmemWrite ⟨d.responder, d.isMmuL1Pfn, mem⟩ i val
    (d.after g.dev, ⟨g.mem, g.dev.posted⟩)
  | .isMmu i =>
    let l1Pfn := if addr = IS_MMU_SUB0_REG_L1_PHYS then val else d.isMmuL1Pfn
    ({ d with isMmuL1Pfn := l1Pfn, isMmu := Function.update d.isMmu i val }, ⟨mem, []⟩)
  | .psMmu i => ({ d with psMmu := Function.update d.psMmu i val }, ⟨mem, []⟩)
  | .csi2 port off =>
    match ipu4Csi2PortWrite (d.csi2 port) off val with
    | some p => ({ d with csi2 := Function.update d.csi2 port p }, ⟨mem, []⟩)
    | none => (d, ⟨mem, []⟩)
  | .nowhere => (d, ⟨mem, []⟩)

end Ipu4.Qemu
