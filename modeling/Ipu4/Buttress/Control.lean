import Ipu4.Buttress.Auth
import Ipu4.Buttress.Reset
import Ipu4.Lib.Errno

/-!
# Power, start and resume

The other entries of the buttress: the islands are switched through their frequency
registers, the time stamp counter is synchronised, and probe, resume and a reset of the
device bring the IPC and the interrupts back.
-/

namespace Ipu4.Buttress

def BUTTRESS_FW_RESET_CTL_START : Nat := 1 <<< 0
def BUTTRESS_FW_RESET_CTL_DONE : Nat := 1 <<< 1
def BUTTRESS_FREQ_CTL_START : Nat := 1 <<< 31
def IPU4_BUTTRESS_FREQ_CTL_ICCMAX_LEVEL : Nat := 0
def BUTTRESS_FABRIC_CMD_START_TSC_SYNC : Nat := 1 <<< 0
def BUTTRESS_PWR_STATE_HH_STATE_DONE : Nat := 2
def BUTTRESS_PWR_STATE_HH_STATE_ERR : Nat := 3
def BUTTRESS_TSW_CTL_SOFT_RESET : Nat := 1 <<< 8
def BUTTRESS_TSC_SYNC_RESET_TRIAL_MAX : Nat := 10
def BUTTRESS_CSE_IPC_RESET_RETRY : Nat := 4

/-- `struct ipu6_buttress_ctrl`. -/
structure ButtressCtrl where
  freqCtl : Nat
  pwrStsShift : Nat
  pwrStsMask : Nat
  pwrStsOn : Nat
  pwrStsOff : Nat
  ratio : Nat
  qosFloor : Nat

def ipu4IsysButtressCtrl : ButtressCtrl where
  freqCtl := IPU6_BUTTRESS_REG_IS_FREQ_CTL
  pwrStsShift := 20
  pwrStsMask := 0xf <<< 20
  pwrStsOn := 0xa
  pwrStsOff := 0
  ratio := 0x4
  qosFloor := 0

def ipu4PsysButtressCtrl : ButtressCtrl where
  freqCtl := IPU6_BUTTRESS_REG_PS_FREQ_CTL
  pwrStsShift := 24
  pwrStsMask := 0x1f <<< 24
  pwrStsOn := 0xf
  pwrStsOff := 0
  ratio := 0x12
  qosFloor := 0x12

/-- What is written to the frequency register. -/
def freqCtlVal (ctrl : ButtressCtrl) (on : Bool) : Nat :=
  if on then
    BUTTRESS_FREQ_CTL_START ||| (ctrl.ratio &&& 0xff) ||| (ctrl.qosFloor <<< 8 &&& 0xff00) |||
      IPU4_BUTTRESS_FREQ_CTL_ICCMAX_LEVEL
  else 0

/-- What PWR_STATE is to show. -/
def pwrSts (ctrl : ButtressCtrl) (on : Bool) : Nat :=
  (if on then ctrl.pwrStsOn else ctrl.pwrStsOff) <<< ctrl.pwrStsShift

def ipu6ButtressPower (polls : Nat) (ctrl : Option ButtressCtrl) (on : Bool) : Code Int :=
  match ctrl with
  | none => return 0
  | some ctrl => do
    lock .power
    writel (freqCtlVal ctrl on) ctrl.freqCtl
    let (ret, _) ← readlPollTimeout polls BUTTRESS_REG_PWR_STATE fun val =>
      val &&& ctrl.pwrStsMask = pwrSts ctrl on
    unlock .power
    return ret

def ipu6ButtressResetAuthentication (polls : Nat) (secureMode : Bool) : Code Int :=
  if !secureMode then return 0
  else do
    writel BUTTRESS_FW_RESET_CTL_START BUTTRESS_REG_FW_RESET_CTL
    let (ret, _) ← readlPollTimeout polls BUTTRESS_REG_FW_RESET_CTL fun val =>
      val &&& BUTTRESS_FW_RESET_CTL_DONE ≠ 0
    if ret ≠ 0 then return ret
    writel 0 BUTTRESS_REG_FW_RESET_CTL
    return 0

/-- The field HH_STATUS, bits 13 and 12. -/
def hhStatus (pwrState : Nat) : Nat := pwrState / 2 ^ 12 % 4

def ipu6ButtressSendTscRequest (polls : Nat) : Code Int := do
  writel BUTTRESS_FABRIC_CMD_START_TSC_SYNC BUTTRESS_REG_FABRIC_CMD
  let val ← readl BUTTRESS_REG_PWR_STATE
  if hhStatus val = BUTTRESS_PWR_STATE_HH_STATE_ERR then return -EINVAL
  let (ret, _) ← readlPollTimeout polls BUTTRESS_REG_PWR_STATE fun val =>
    hhStatus val = BUTTRESS_PWR_STATE_HH_STATE_DONE
  return ret

/-- So many trials; `polls` is the patience of each. -/
def tscSyncLoop (polls : Nat → Nat) : Nat → Code Int
  | 0 => return -ETIMEDOUT
  | n + 1 => do
    let ret ← ipu6ButtressSendTscRequest (polls n)
    if ret ≠ -ETIMEDOUT then return ret
    let val ← readl BUTTRESS_REG_TSW_CTL
    let val := val ||| BUTTRESS_TSW_CTL_SOFT_RESET
    writel val BUTTRESS_REG_TSW_CTL
    writel (val &&& (0xffffffff ^^^ BUTTRESS_TSW_CTL_SOFT_RESET)) BUTTRESS_REG_TSW_CTL
    tscSyncLoop polls n

def ipu6ButtressStartTscSync (polls : Nat → Nat) : Code Int :=
  tscSyncLoop polls BUTTRESS_TSC_SYNC_RESET_TRIAL_MAX

-- ---------------------------------------------------------------------------
-- Probe, resume, reset
-- ---------------------------------------------------------------------------

/-- The state of the driver that these entries keep. -/
structure Drv where
  secureMode : Bool
  needIpcReset : Bool
  wdtCachedValue : Nat
  refClk : Nat
  deriving DecidableEq, Repr

/-- As `devm_kzalloc` leaves it. -/
def Drv.fresh : Drv := ⟨false, false, 0, 0⟩

/-- `b->ref_clk` from the two bits of BTRS_CTRL. -/
def refClkOf (btrsCtrl : Nat) : Nat :=
  match btrsCtrl / 2 ^ 8 % 4 with
  | 0 => 240
  | 1 => 192
  | 2 => 384
  | _ => 192

/-- The reset of the IPC, up to `n` times more than once. -/
def ipcResetLoop (secureMode : Bool) : Nat → Code Int
  | 0 => ipu6ButtressIpcReset secureMode cse
  | n + 1 => do
    let ret ← ipu6ButtressIpcReset secureMode cse
    if ret = 0 then return 0
    ipcResetLoop secureMode n

/-- The debug message reads SECURITY_TOUCH and CAMERA_MASK. -/
def ipu6ButtressInit (drv : Drv) : Code (Int × Drv) := do
  let secureMode ← ipu6ButtressGetSecureMode
  let _ ← readl BUTTRESS_REG_SECURITY_TOUCH
  let _ ← readl BUTTRESS_REG_CAMERA_MASK
  let wdt ← readl BUTTRESS_REG_WDT
  writel BUTTRESS_IRQS BUTTRESS_REG_ISR_CLEAR
  writel BUTTRESS_IRQS BUTTRESS_REG_ISR_ENABLE
  let val ← readl BUTTRESS_REG_BTRS_CTRL
  let ret ← ipcResetLoop secureMode BUTTRESS_CSE_IPC_RESET_RETRY
  return (ret, { drv with secureMode := secureMode, wdtCachedValue := wdt, refClk := refClkOf val })

def ipu6ButtressExit : Code Unit := writel 0 BUTTRESS_REG_ISR_ENABLE

/-- Neither virtual channel is arbitrated by stalling. -/
def ipu6ConfigureVcMechanism : Code Unit := do
  let val ← readl BUTTRESS_REG_BTRS_CTRL
  writel (val &&& (0xffffffff ^^^ 3)) BUTTRESS_REG_BTRS_CTRL

def ipu6RuntimeResume (drv : Drv) : Code (Int × Drv) := do
  ipu6ConfigureVcMechanism
  ipu6ButtressRestore drv.wdtCachedValue
  if drv.needIpcReset then
    let _ ← ipu6ButtressIpcReset drv.secureMode cse
    return (0, { drv with needIpcReset := false })
  else return (0, drv)

/-- The patience of the waits for an island to come up and to go down again. -/
structure BusPolls where
  up : Nat
  down : Nat

def busPmRuntimeResume (polls : BusPolls) (c : Child) (ctrl : ButtressCtrl) : Code Int := do
  let ret ← ipu6ButtressPower polls.up (some ctrl) true
  if ret ≠ 0 then return ret
  let ret ← Prog.ask (Call.pmGenericRuntimeResume c)
  if ret = (0 : Int) then return 0
  let _ ← ipu6ButtressPower polls.down (some ctrl) false
  return -EBUSY

/-- `pm_runtime_resume_and_get` of the processing system, whose bus is of this driver. -/
def psysResumeAndGet (polls : BusPolls) : Code Int := do
  match ← Prog.ask (Call.rpmResume .psys) with
  | .answers ret => return ret
  | .callsBus => busPmRuntimeResume polls .psys ipu4PsysButtressCtrl

/-- Errors of the reset and of the authentication are only reported. -/
def ipu6Resume (isp : Isp) (bus : BusPolls) (polls : AuthPolls) (drv : Drv) : Code (Int × Drv) := do
  ipu6ConfigureVcMechanism
  let secureMode ← ipu6ButtressGetSecureMode
  ipu6ButtressRestore drv.wdtCachedValue
  let _ ← ipu6ButtressIpcReset secureMode cse
  let ret ← psysResumeAndGet bus
  if ret < 0 then return (0, { drv with secureMode := secureMode })
  let _ ← ipu6ButtressAuthenticate { isp with secureMode := secureMode } polls
  Prog.ask Call.pmPut
  return (0, { drv with secureMode := secureMode })

/-- The part of `ipu6_pci_reset_done` that is about the device. -/
def ipu6PciResetDone (polls : Nat) (drv : Drv) : Code (Int × Drv) := do
  ipu6ButtressRestore drv.wdtCachedValue
  let _ ← if drv.secureMode then ipu6ButtressResetAuthentication polls drv.secureMode else pure 0
  return (0, { drv with needIpcReset := true })

end Ipu4.Buttress
