import Ipu4.Lib.Acquire
import Ipu4.Probe.Steps

/-!
# Probing and removing the input system

`isys_probe` and `isys_remove`, with the registration of the media device, the video nodes,
the CSI-2 sub-devices and the notifier. Each resource is got and given back by calls, and
the kernel answers whether there is one. Whatever it answers, all is given back in the
end, but for the connections of a notifier that stops at a bad endpoint.
-/

namespace Ipu4.IsysProbe

open Probe (Ret)
open Objects (Errno)
open Prog (undoing unwind initFrom firstError)

-- ---------------------------------------------------------------------------
-- Calls
-- ---------------------------------------------------------------------------

/-- `mmuReady` is what `ipu6_mmu_hw_init` leaves. `endpoint` is a reference on a node of the
firmware graph, `connection` what the notifier keeps of one. -/
inductive Res
  | mmuReady
  | mutex
  | streamMutex
  | streamsMutex (i : Nat)
  | fwImage
  | pkgDir
  | pmQos
  | fwMsg (i : Nat)
  | mediaDev
  | mediaNode
  | v4l2Dev
  | videoMutex (i : Nat)
  | videoQueue (i : Nat)
  | videoDev (i : Nat)
  | csi2State (i : Nat)
  | csi2Sd (i : Nat)
  | endpoint (i : Nat)
  | connection (i : Nat)
  | notifier
  deriving DecidableEq

/-- What can fail and leaves nothing. -/
inductive Query
  | devmAlloc
  | mediaEntityPadsInit
  | mediaCreatePadLink (port pad video : Nat)
  | v4l2FwnodeEndpointParse (i : Nat)
  deriving DecidableEq

/-- `get` may fail and `take` may not. `drop` gives back what may not be there. -/
inductive Call
  | get (r : Res)
  | take (r : Res)
  | put (r : Res)
  | drop (r : Res)
  | ask (q : Query)
  | vb2VideoUnregisterDevice (i : Nat)
  | v4l2AsyncNfCleanup

@[reducible]
def Call.Ans : Call → Type
  | .get _ | .ask _ => Ret
  | .take _ | .put _ | .drop _ | .vb2VideoUnregisterDevice _ | .v4l2AsyncNfCleanup => Unit

abbrev Code (α : Type) : Type := Prog Call.Ans α

abbrev Event : Type := Prog.Event Call.Ans

def get (r : Res) : Code Ret := Prog.ask (Call.get r)
def take (r : Res) : Code Unit := Prog.ask (Call.take r)
def put (r : Res) : Code Unit := Prog.ask (Call.put r)
def drop (r : Res) : Code Unit := Prog.ask (Call.drop r)
def ask (q : Query) : Code Ret := Prog.ask (Call.ask q)
def vb2VideoUnregisterDevice (i : Nat) : Code Unit := Prog.ask (Call.vb2VideoUnregisterDevice i)
def v4l2AsyncNfCleanup : Code Unit := Prog.ask Call.v4l2AsyncNfCleanup

-- ---------------------------------------------------------------------------
-- Video nodes and CSI-2 sub-devices
-- ---------------------------------------------------------------------------

def NR_OF_VIDEO_DEVICE : Nat := 31
def IPU4_ISYS_MAX_STREAMS : Nat := 8
def ISYS_MAX_PORTS : Nat := 8
def EPROBE_DEFER : Errno := ⟨517, by decide, by decide⟩

/-- `csi2.nports` of the platform. -/
def nports : Nat := 6

/-- A step that cannot fail. -/
def taking (r : Res) : Code Ret := do
  take r
  return none

/-- `video_register_device`. Its failure unregisters a device that is not registered. -/
def registerVideo (i : Nat) : Code Ret := do
  if let some ret ← ask .mediaEntityPadsInit then return some ret
  if let some ret ← get (.videoDev i) then
    vb2VideoUnregisterDevice i
    return some ret
  return none

def ipu6IsysVideoInit (i : Nat) : Code Ret :=
  undoing (taking (.videoMutex i)) (put (.videoMutex i)) <|
    undoing (get (.videoQueue i)) (put (.videoQueue i)) (registerVideo i)

def ipu6IsysVideoCleanup (i : Nat) : Code Unit := do
  vb2VideoUnregisterDevice i
  put (.videoMutex i)

def isysRegisterVideoDevices : Code Ret :=
  initFrom ipu6IsysVideoInit ipu6IsysVideoCleanup 0 NR_OF_VIDEO_DEVICE

def isysUnregisterVideoDevices : Code Unit := (List.range NR_OF_VIDEO_DEVICE).forM ipu6IsysVideoCleanup

def ipu6IsysCsi2Cleanup (i : Nat) : Code Unit := do
  drop (.csi2Sd i)
  drop (.csi2State i)

/-- `ipu6_isys_subdev_init`, `v4l2_subdev_init_finalize` and `v4l2_device_register_subdev`. -/
def csi2Steps (i : Nat) : Code Ret := do
  if let some _ ← ask .devmAlloc then return some Probe.ENOMEM
  if let some ret ← ask .mediaEntityPadsInit then return some ret
  if let some ret ← get (.csi2State i) then return some ret
  get (.csi2Sd i)

def ipu6IsysCsi2Init (i : Nat) : Code Ret := do
  if let some ret ← csi2Steps i then
    ipu6IsysCsi2Cleanup i
    return some ret
  return none

def isysCsi2RegisterSubdevices : Code Ret := do
  if let some _ ← ask .devmAlloc then return some Probe.ENOMEM
  initFrom ipu6IsysCsi2Init ipu6IsysCsi2Cleanup 0 nports

def isysCsi2UnregisterSubdevices : Code Unit := (List.range nports).forM ipu6IsysCsi2Cleanup

-- ---------------------------------------------------------------------------
-- Links and the notifier
-- ---------------------------------------------------------------------------

/-- From each of the source pads 1 to 4 of each port to each video node. -/
def links : List Query :=
  (List.range nports).flatMap fun i => (List.range NR_OF_VIDEO_DEVICE).flatMap fun j =>
    [1, 2, 3, 4].map fun k => .mediaCreatePadLink i k j

def isysCsi2CreateMediaLinks : Code Ret := firstError ask links

def addConnection (i : Nat) : Code Ret := do
  if let some ret ← ask (.v4l2FwnodeEndpointParse i) then return some ret
  get (.connection i)

/-- One port of `isys_notifier_init`. A port without endpoint is passed over. -/
def notifierPort (i : Nat) : Code Ret := do
  if let some _ ← get (.endpoint i) then return none
  let ret ← addConnection i
  put (.endpoint i)
  return ret

def isysNotifierInit : Code Ret := do
  if let some ret ← firstError notifierPort (List.range ISYS_MAX_PORTS) then return some ret
  if let some ret ← get .notifier then
    v4l2AsyncNfCleanup
    return some ret
  return none

def isysNotifierCleanup : Code Unit := do
  put .notifier
  v4l2AsyncNfCleanup

-- ---------------------------------------------------------------------------
-- The probe and the removal
-- ---------------------------------------------------------------------------

/-- The label `out_media_device_unregister`. -/
def unregisterMedia : Code Unit := do
  drop .mediaNode
  put .mediaDev

def registerMedia : Code Ret := do
  take .mediaDev
  if let some ret ← get .mediaNode then
    unregisterMedia
    return some ret
  return none

def linkAndNotify : Code Ret := do
  if let some ret ← isysCsi2CreateMediaLinks then return some ret
  isysNotifierInit

def isysRegisterDevices : Code Ret :=
  undoing registerMedia unregisterMedia <|
  undoing (get .v4l2Dev) (put .v4l2Dev) <|
  undoing isysRegisterVideoDevices isysUnregisterVideoDevices <|
  undoing isysCsi2RegisterSubdevices isysCsi2UnregisterSubdevices linkAndNotify

def isysUnregisterDevices : Code Unit := do
  isysUnregisterVideoDevices
  isysCsi2UnregisterSubdevices
  put .v4l2Dev
  unregisterMedia

def putFwMsg (i : Nat) : Code Unit := put (.fwMsg i)

/-- `alloc_fw_msg_bufs` on empty lists. -/
def allocFwMsgBufs (amount : Nat) : Code Ret := do
  if let some _ ← initFrom (fun i => get (.fwMsg i)) putFwMsg 0 amount then return some Probe.ENOMEM
  return none

def initMutexes : Code Ret := do
  take .mutex
  take .streamMutex
  (List.range IPU4_ISYS_MAX_STREAMS).forM fun i => take (.streamsMutex i)
  return none

def destroyStreamMutexes : Code Unit := (List.range IPU4_ISYS_MAX_STREAMS).forM fun i => put (.streamsMutex i)

def destroyMutexes : Code Unit := do
  destroyStreamMutexes
  put .mutex
  put .streamMutex

def probeDevices : Code Ret :=
  undoing (taking .pmQos) (put .pmQos) <|
  undoing (allocFwMsgBufs 20) (unwind putFwMsg 20) isysRegisterDevices

def probeFirmware (secureMode : Bool) : Code Ret :=
  if secureMode then probeDevices
  else
    undoing (get .fwImage) (put .fwImage) <|
    undoing (get .pkgDir) (put .pkgDir) probeDevices

def isysProbe (busReadyToProbe secureMode : Bool) : Code Ret := do
  if !busReadyToProbe then return some EPROBE_DEFER
  if let some _ ← ask .devmAlloc then return some Probe.ENOMEM
  if let some _ ← ask .devmAlloc then return some Probe.ENOMEM
  if let some ret ← get .mmuReady then return some ret
  let ret ← undoing initMutexes destroyMutexes (probeFirmware secureMode)
  put .mmuReady
  return ret

/-- `bufs` are the messages on the lists of `free_fw_msg_bufs`. -/
def isysRemove (secureMode : Bool) (bufs : List Nat) : Code Unit := do
  bufs.forM putFwMsg
  isysUnregisterDevices
  isysNotifierCleanup
  put .pmQos
  Prog.when (secureMode = false) do
    put .pkgDir
    put .fwImage
  destroyStreamMutexes
  put .streamMutex
  put .mutex

/-- The messages of the probe, in some order. -/
def Bufs : Type := { bufs : List Nat // bufs.Perm (List.range 20) }

/-- A probe, and the removal if it went well. -/
def life (busReadyToProbe secureMode : Bool) (bufs : Bufs) : Code Ret := do
  if let some ret ← isysProbe busReadyToProbe secureMode then return some ret
  isysRemove secureMode bufs.1
  return none

end Ipu4.IsysProbe
