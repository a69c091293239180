import Ipu4.Lib.Logged
import Ipu4.Lib.Objects

/-!
# Probing the PCI device

`ipu6_pci_probe` from the firmware request on, with the functions of the bus, of
the buttress and of the package directory that it goes through. What the kernel
answers to each call is an input. The objects are the allocations, references and
mappings the probe makes; an MMU counts as one object, with the trash buffer that
`ipu6_mmu_hw_init` adds to it. Every pointer that is followed is logged.
-/

namespace Ipu4.Probe

open Objects

inductive Dev
  | isys
  | psys
  deriving DecidableEq, Repr

/-- A range of the IOVA domain of the PSYS MMU. -/
inductive Range
  | fwImage
  | pkgDir
  deriving DecidableEq, Repr

inductive Res
  | firmware
  | bridge
  | pdata (d : Dev)
  | adev (d : Dev)
  | mmu (d : Dev)
  | pages
  | sgTable
  | pciMapping
  | iova (r : Range)
  | psysPm
  | irq
  deriving DecidableEq, Repr

/-- An int that is 0 or a negative error number. -/
abbrev Ret := Option Errno

def ENOMEM : Errno := ⟨12, by decide, by decide⟩
def EINVAL : Errno := ⟨22, by decide, by decide⟩
def EDOM : Errno := ⟨33, by decide, by decide⟩

-- ---------------------------------------------------------------------------
-- State
-- ---------------------------------------------------------------------------

/-- `struct sg_table`. -/
structure SgTable where
  sgl : Ptr Unit
  nents : Nat

/-- `struct ipu6_bus_device`, with the ranges that are allocated in the IOVA
domain of its MMU. A range stands for its first address; address 0 is in none. -/
structure Ipu6BusDevice where
  pdata : Ptr Dev
  mmu : Ptr Dev
  fwSgt : SgTable
  pkgDirDmaAddr : Option Range
  iovad : List Range

/-- What `kzalloc` leaves in a bus device. -/
def Ipu6BusDevice.zero : Ipu6BusDevice := ⟨.null, .null, ⟨.null, 0⟩, none, []⟩

/-- `struct ipu6_device`, the bus devices it leads to, and the bridge that
`static_bridge` or `g_virt_sensor` points to. -/
structure Ipu6Device where
  isys : Ptr Dev
  psys : Ptr Dev
  devices : List Dev
  adev : Dev → Ipu6BusDevice
  bridge : Ptr Unit

def Ptr.sgTable (p : Ptr Unit) : Ptr Res := p.map fun _ => .sgTable
def Ptr.bridge (p : Ptr Unit) : Ptr Res := p.map fun _ => .bridge

abbrev Prog := StateT Ipu6Device (Logged (Access Res))

def log (a : Access Res) : Prog Unit := fun isp => do
  Logged.emit a
  return ((), isp)

def acquire (r : Res) : Prog Unit := log (.get r)
def deref (p : Ptr Res) : Prog Unit := log (.use p)
def release (p : Ptr Res) : Prog Unit := log (.put p)

def Ptr.target (isp : Ipu6Device) : Ptr Dev → Ipu6BusDevice
  | .obj d => isp.adev d
  | _ => .zero

/-- The bus device behind a pointer. -/
def load (p : Ptr Dev) : Prog Ipu6BusDevice := do
  deref (p.map .adev)
  return Ptr.target (← get) p

def store (p : Ptr Dev) (f : Ipu6BusDevice → Ipu6BusDevice) : Prog Unit :=
  match p with
  | .obj d => modify fun isp => { isp with adev := Function.update isp.adev d (f (isp.adev d)) }
  | _ => return

-- ---------------------------------------------------------------------------
-- Answers of the kernel
-- ---------------------------------------------------------------------------

/-- What one of `ipu6_isys_init` and `ipu6_psys_init` meets. -/
structure BusEnv where
  kzallocPdata : Bool
  kzallocAdev : Bool
  auxiliaryDeviceInit : Ret
  ipu6MmuInit : Ret
  auxiliaryDeviceAdd : Ret

/-- What `ipu6_buttress_map_fw_image` meets; the calls on the table give an error
or a number of entries. -/
structure FwImageEnv where
  addrValid : Bool
  kmallocPages : Bool
  vmallocToPage : Bool
  sgAllocTable : Except Errno Nat
  dmaMapSgtable : Except Errno Nat
  ipu6DmaMapSg : Except Errno Nat

/-- `ambu_ipu_bridge_init` returns 0 without a bridge if there are no sensors. -/
structure Env where
  virtSensor : Bool
  requestFirmware : Ret
  validateCpdFile : Ret
  checkFwnodeGraph : Ret
  fwnodeSecondary : Bool
  bridgeInit : Except Errno Bool
  isys : BusEnv
  psys : BusEnv
  pmRuntimeResumeAndGet : Ret
  ipu6MmuHwInit : Ret
  fwImage : FwImageEnv
  ipu6DmaAlloc : Bool
  parseModuleData : Ret
  requestIrq : Ret
  authenticate : Ret

-- ---------------------------------------------------------------------------
-- The bus
-- ---------------------------------------------------------------------------

/-- The last `put_device`, which runs `ipu6_bus_release`. -/
def putDevice (d : Dev) : Prog Unit := do
  let adev ← load (.obj d)
  release (adev.pdata.map .pdata)
  release (.obj (.adev d))

def ipu6BusInitializeDevice (env : BusEnv) (d : Dev) (pdata : Ptr Dev) : Prog (Ptr Dev) := do
  if !env.kzallocAdev then
    return .err ENOMEM
  acquire (.adev d)
  store (.obj d) fun _ => { Ipu6BusDevice.zero with pdata := pdata }
  match env.auxiliaryDeviceInit with
  | some ret =>
    release (.obj (.adev d))
    return .err ret
  | none => return .obj d

/-- A device that cannot be added is put by `auxiliary_device_uninit`. -/
def ipu6BusAddDevice (env : BusEnv) (d : Dev) : Prog Ret :=
  match env.auxiliaryDeviceAdd with
  | some ret => do
    putDevice d
    return some ret
  | none => do
    modify fun isp => { isp with devices := d :: isp.devices }
    return none

/-- The youngest device goes first, so a child goes before its parent. -/
def ipu6BusDelDevices : Prog Unit := do
  (← get).devices.forM fun d => putDevice d
  modify fun isp => { isp with devices := [] }

/-- `ipu6_psys_init`, and `ipu6_isys_init` once it has a sensor. -/
def busInit (env : BusEnv) (d : Dev) : Prog (Ptr Dev) := do
  if !env.kzallocPdata then
    return .err ENOMEM
  acquire (.pdata d)
  match ← ipu6BusInitializeDevice env d (.obj d) with
  | .obj _ =>
    match env.ipu6MmuInit with
    | some ret =>
      store (.obj d) fun adev => { adev with mmu := .err ret }
      putDevice d
      release (.obj (.pdata d))
      discard <| load (.obj d)
      return .err ret
    | none =>
      acquire (.mmu d)
      store (.obj d) fun adev => { adev with mmu := .obj d }
      deref (.obj (.mmu d))
      match ← ipu6BusAddDevice env d with
      | some ret =>
        release (.obj (.pdata d))
        return .err ret
      | none => return .obj d
  | p =>
    release (.obj (.pdata d))
    return p

/-- `ipu4_virt_sensor_install` and `ambu_ipu_bridge_init`. -/
def bridgeInstall (env : Env) : Prog Ret :=
  match env.bridgeInit with
  | .error ret => return some ret
  | .ok installed => do
    if installed || env.virtSensor then
      acquire .bridge
      modify fun isp => { isp with bridge := .obj () }
    return none

/-- `ipu4_virt_sensor_remove` looks whether there is a sensor,
`ambu_ipu_bridge_uninit` does not. -/
def bridgeRemove (env : Env) : Prog Unit := do
  let bridge := (← get).bridge
  if env.virtSensor && bridge == .null then
    return
  deref (Ptr.bridge bridge)
  release (Ptr.bridge bridge)
  modify fun isp => { isp with bridge := .null }

def ipu6IsysInit (env : Env) : Prog (Ptr Dev) :=
  match env.checkFwnodeGraph with
  | none => busInit env.isys .isys
  | some _ =>
    if env.fwnodeSecondary then
      return .err EINVAL
    else do
      match ← bridgeInstall env with
      | some ret => return .err ret
      | none => busInit env.isys .isys

def ipu6PsysInit (env : Env) : Prog (Ptr Dev) := busInit env.psys .psys

-- ---------------------------------------------------------------------------
-- The firmware image and its package directory
-- ---------------------------------------------------------------------------

/-- A failure to map the table through the MMU goes unseen: the table is left
with no entries, and the call gives 0. -/
def ipu6DmaMapSgtable (env : FwImageEnv) (sys : Ptr Dev) : Prog Ret :=
  match env.ipu6DmaMapSg with
  | .error ret => return some ret
  | .ok nents => do
    if nents ≠ 0 then
      acquire (.iova .fwImage)
    store sys fun adev =>
      { adev with
        fwSgt := { adev.fwSgt with nents := nents }
        iovad := if nents = 0 then adev.iovad else .fwImage :: adev.iovad }
    return none

def sgFreeTable (sys : Ptr Dev) : Prog Unit := do
  release (.obj .sgTable)
  store sys fun adev => { adev with fwSgt := ⟨.null, 0⟩ }

/-- The part of `ipu6_buttress_map_fw_image` up to `out`. -/
def mapFwPages (env : FwImageEnv) (sys : Ptr Dev) : Prog Ret := do
  if !env.vmallocToPage then
    return some ENOMEM
  match env.sgAllocTable with
  | .error _ => return some ENOMEM
  | .ok nents =>
    acquire .sgTable
    store sys fun adev => { adev with fwSgt := ⟨.obj (), nents⟩ }
    match env.dmaMapSgtable with
    | .error ret =>
      sgFreeTable sys
      return some ret
    | .ok nents =>
      acquire .pciMapping
      store sys fun adev => { adev with fwSgt := { adev.fwSgt with nents } }
      match ← ipu6DmaMapSgtable env sys with
      | some ret =>
        release (.obj .pciMapping)
        sgFreeTable sys
        return some ret
      | none => return none

def ipu6ButtressMapFwImage (env : FwImageEnv) (sys : Ptr Dev) : Prog Ret := do
  deref (.obj .firmware)
  if !env.addrValid then
    return some EDOM
  if !env.kmallocPages then
    return some ENOMEM
  acquire .pages
  let ret ← mapFwPages env sys
  release (.obj .pages)
  return ret

/-- `find_iova` reads the first entry before the number of entries is looked at. -/
def ipu6DmaUnmapSg (sys : Ptr Dev) : Prog Unit := do
  let adev ← load sys
  deref (adev.mmu.map .mmu)
  deref (Ptr.sgTable adev.fwSgt.sgl)
  if adev.fwSgt.nents = 0 ∨ .fwImage ∉ adev.iovad then
    return
  release (.obj (.iova .fwImage))
  store sys fun adev => { adev with iovad := adev.iovad.erase .fwImage }

/-- On the `fw_sgt` of the device. -/
def ipu6ButtressUnmapFwImage (sys : Ptr Dev) : Prog Unit := do
  ipu6DmaUnmapSg sys
  release (.obj .pciMapping)
  release (.obj .sgTable)
  store sys fun adev => { adev with fwSgt := ⟨.null, 0⟩ }

/-- An address in no allocated range is warned about and left. -/
def ipu6DmaFree (sys : Ptr Dev) (dmaHandle : Option Range) : Prog Unit := do
  let adev ← load sys
  deref (adev.mmu.map .mmu)
  match dmaHandle with
  | none => return
  | some range =>
    if range ∉ adev.iovad then
      return
    release (.obj (.iova range))
    store sys fun adev => { adev with iovad := adev.iovad.erase range }

def ipu6CpdFreePkgDir (sys : Ptr Dev) : Prog Unit := do
  ipu6DmaFree sys (← load sys).pkgDirDmaAddr

def ipu6CpdCreatePkgDir (env : Env) (sys : Ptr Dev) : Prog Ret := do
  let adev ← load sys
  deref (Ptr.sgTable adev.fwSgt.sgl)
  deref (.obj .firmware)
  deref (adev.mmu.map .mmu)
  if !env.ipu6DmaAlloc then
    return some ENOMEM
  acquire (.iova .pkgDir)
  store sys fun adev => { adev with pkgDirDmaAddr := some .pkgDir, iovad := .pkgDir :: adev.iovad }
  match env.parseModuleData with
  | some ret =>
    ipu6DmaFree sys (some .pkgDir)
    return some ret
  | none => return none

-- ---------------------------------------------------------------------------
-- The probe
-- ---------------------------------------------------------------------------

/-- `ipu6_mmu_cleanup` of a bus device, unless there is none or it has no MMU. -/
def mmuCleanup (p : Ptr Dev) : Prog Unit :=
  match p with
  | .obj _ => do
    match (← load p).mmu with
    | .obj d => release (.obj (.mmu d))
    | _ => return
  | _ => return

def outIpu6BusDelDevices : Prog Unit := do
  let isp ← get
  if isp.psys ≠ .null then
    ipu6CpdFreePkgDir isp.psys
    ipu6ButtressUnmapFwImage isp.psys
  mmuCleanup isp.psys
  mmuCleanup isp.isys
  ipu6BusDelDevices
  release (.obj .firmware)

def outIpuBridgeUninit (env : Env) : Prog Unit := do
  bridgeRemove env
  outIpu6BusDelDevices

def outFreeIrq (env : Env) : Prog Unit := do
  release (.obj .irq)
  outIpuBridgeUninit env

/-- From the package directory on. -/
def probePkgDir (env : Env) : Prog Ret := do
  let psys := (← get).psys
  if let some ret ← ipu6CpdCreatePkgDir env psys then
    outIpuBridgeUninit env
    return some ret
  if let some ret := env.requestIrq then
    outIpuBridgeUninit env
    return some ret
  acquire .irq
  if let some ret := env.authenticate then
    outFreeIrq env
    return some ret
  discard <| load psys
  release (.obj .psysPm)
  return none

/-- From the runtime-PM reference on. -/
def probePsys (env : Env) : Prog Ret := do
  let psys := (← get).psys
  let adev ← load psys
  if let some ret := env.pmRuntimeResumeAndGet then
    outIpuBridgeUninit env
    return some ret
  acquire .psysPm
  deref (adev.mmu.map .mmu)
  if let some ret := env.ipu6MmuHwInit then
    outIpuBridgeUninit env
    return some ret
  if let some ret ← ipu6ButtressMapFwImage env.fwImage psys then
    outIpuBridgeUninit env
    return some ret
  probePkgDir env

/-- From the ISYS on. -/
def probeIsys (env : Env) : Prog Ret := do
  let isys ← ipu6IsysInit env
  modify fun isp => { isp with isys }
  if let .err ret := isys then
    outIpu6BusDelDevices
    return some ret
  let psys ← ipu6PsysInit env
  modify fun isp => { isp with psys }
  if let .err ret := psys then
    outIpuBridgeUninit env
    return some ret
  probePsys env

def ipu6PciProbe (env : Env) : Prog Ret := do
  if let some ret := env.requestFirmware then
    return some ret
  acquire .firmware
  deref (.obj .firmware)
  if let some ret := env.validateCpdFile then
    outIpu6BusDelDevices
    return some ret
  probeIsys env

def Ipu6Device.zero : Ipu6Device := ⟨.null, .null, [], fun _ => .zero, .null⟩

/-- What a probe returns, and what it does with its objects. -/
def probe (env : Env) : Logged (Access Res) Ret := Prod.fst <$> ipu6PciProbe env .zero

end Ipu4.Probe
