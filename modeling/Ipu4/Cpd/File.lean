import Mathlib.Algebra.Group.Int.Defs
import Mathlib.Algebra.GroupWithZero.Nat
import Ipu4.Lib.Logged
import Ipu4.Lib.Errno

/-!
# Firmware files

`ipu6-cpd.c` reads a firmware file through the offsets and lengths that are in it: a
directory of entries at the start, a manifest, metadata with a table of components, and
module data with a directory of its own. Memory is what is at an offset from the start of
the file, also where that is outside the file. Every access is logged; one field that is
read again is logged once.
-/

namespace Ipu4.Cpd

open Logged (emit forErr)

-- ---------------------------------------------------------------------------
-- Memory
-- ---------------------------------------------------------------------------

inductive Access where
  | read (addr len : Nat)
  | write (addr : Nat) (bytes : List UInt8)
  deriving DecidableEq, Repr

abbrev Mem := Nat → UInt8

def u8 (mem : Mem) (addr : Nat) : Nat := (mem addr).toNat

/-- A little-endian 32-bit field. -/
def u32 (mem : Mem) (addr : Nat) : Nat :=
  u8 mem addr + 2 ^ 8 * u8 mem (addr + 1) + 2 ^ 16 * u8 mem (addr + 2) + 2 ^ 24 * u8 mem (addr + 3)

def bytesAt (mem : Mem) (addr len : Nat) : List UInt8 := (List.range len).map fun k => mem (addr + k)

def readU8 (mem : Mem) (addr : Nat) : Logged Access Nat := do
  emit (.read addr 1)
  return u8 mem addr

def readU32 (mem : Mem) (addr : Nat) : Logged Access Nat := do
  emit (.read addr 4)
  return u32 mem addr

/-- The little-endian bytes of a `u64`. -/
def u64Bytes (v : Nat) : List UInt8 := (List.range 8).map fun k => UInt8.ofNat (v / 2 ^ (8 * k))

-- ---------------------------------------------------------------------------
-- The layout of ipu6-cpd.h
-- ---------------------------------------------------------------------------

def CPD_HDR_MARK : Nat := 0x44504324
def PKG_DIR_HDR_MARK : Nat := 0x5f4955504b44525f
def MAX_PKG_DIR_ENT_CNT : Nat := 16
def PKG_DIR_ENT_LEN : Nat := 2
def PKG_DIR_SIZE : Nat := MAX_PKG_DIR_ENT_CNT * PKG_DIR_ENT_LEN * 8
def MAX_MANIFEST_SIZE : Nat := 2048 * 4
def MAX_METADATA_SIZE : Nat := 65536
def MAX_COMPONENT_ID : Nat := 127
def MAX_COMPONENT_VERSION : Nat := 0xffff
def IPU6_CPD_METADATA_EXTN_TYPE_IUNIT : Nat := 0x10
def IPU6_CPD_METADATA_IMAGE_TYPE_MAIN_FIRMWARE : Nat := 2

/-- The sizes of `struct ipu6_cpd_ent`, `ipu6_cpd_module_data_hdr`,
`ipu6_cpd_metadata_extn` and, for IPU4, `ipu6se_cpd_metadata_cmpnt`. -/
def entSize : Nat := 24
def modHdrSize : Nat := 44
def extnSize : Nat := 28
def cpdMetadataCmpntSize : Nat := 68

/-- Where the entries of a directory start. -/
def entAddr (cpd hdrLen i : Nat) : Nat := cpd + hdrLen + entSize * i

/-- The fields of a directory at `cpd`. -/
def hdrLen (mem : Mem) (cpd : Nat) : Nat := u8 mem (cpd + 10)
def entCnt (mem : Mem) (cpd : Nat) : Nat := u32 mem (cpd + 4)
def entOffset (mem : Mem) (cpd i : Nat) : Nat := u32 mem (entAddr cpd (hdrLen mem cpd) i + 12)
def entLen (mem : Mem) (cpd i : Nat) : Nat := u32 mem (entAddr cpd (hdrLen mem cpd) i + 16)

def readEntOffset (mem : Mem) (ent : Nat) : Logged Access Nat := readU32 mem (ent + 12)
def readEntLen (mem : Mem) (ent : Nat) : Logged Access Nat := readU32 mem (ent + 16)

def MANIFEST_IDX : Nat := 0
def METADATA_IDX : Nat := 1
def MODULEDATA_IDX : Nat := 2

-- ---------------------------------------------------------------------------
-- The validator
-- ---------------------------------------------------------------------------

/-- One round of the loop of `ipu6_cpd_validate_cpd`. -/
def validateEnt (mem : Mem) (cpd hdrLen dataSize i : Nat) : Logged Access Int := do
  let ent := entAddr cpd hdrLen i
  let offset ← readEntOffset mem ent
  if dataSize < offset then return -EINVAL
  let len ← readEntLen mem ent
  if dataSize - offset < len then return -EINVAL
  return 0

def ipu6CpdValidateCpd (mem : Mem) (cpd cpdSize dataSize : Nat) : Logged Access Int := do
  let len ← readU8 mem (cpd + 10)
  if cpdSize < len then return -EINVAL
  let cnt ← readU32 mem (cpd + 4)
  if (cpdSize - len) / entSize < cnt then return -EINVAL
  forErr (validateEnt mem cpd len dataSize) cnt 0

/-- The debug message reads `fw_pkg_date`. -/
def ipu6CpdValidateModuledata (mem : Mem) (moduledata size : Nat) : Logged Access Int := do
  if size < modHdrSize then return -EINVAL
  let len ← readU32 mem moduledata
  if size < len then return -EINVAL
  emit (.read (moduledata + 8) 4)
  ipu6CpdValidateCpd mem (moduledata + len) (size - len) size

/-- `img_type` is read in any case, for the comparison or for the message. -/
def ipu6CpdValidateMetadata (mem : Mem) (metadata size : Nat) : Logged Access Int := do
  if size < extnSize ∨ size > MAX_METADATA_SIZE then return -EINVAL
  let extnType ← readU32 mem metadata
  let imgType ← readU32 mem (metadata + 8)
  if extnType ≠ IPU6_CPD_METADATA_EXTN_TYPE_IUNIT ∨
      imgType ≠ IPU6_CPD_METADATA_IMAGE_TYPE_MAIN_FIRMWARE then return -EINVAL
  if (size - extnSize) % cpdMetadataCmpntSize ≠ 0 then return -EINVAL
  return 0

def ipu6CpdGetEntry (mem : Mem) (cpd idx : Nat) : Logged Access Nat := do
  let len ← readU8 mem (cpd + 10)
  return entAddr cpd len idx

def ipu6CpdValidateCpdFile (mem : Mem) (size : Nat) : Logged Access Int := do
  let ret ← ipu6CpdValidateCpd mem 0 size size
  if ret ≠ 0 then return ret
  let mark ← readU32 mem 0
  if mark ≠ CPD_HDR_MARK then return -EINVAL
  let ent ← ipu6CpdGetEntry mem 0 MANIFEST_IDX
  let len ← readEntLen mem ent
  if len > MAX_MANIFEST_SIZE then return -EINVAL
  let ent ← ipu6CpdGetEntry mem 0 METADATA_IDX
  let offset ← readEntOffset mem ent
  let len ← readEntLen mem ent
  let ret ← ipu6CpdValidateMetadata mem offset len
  if ret ≠ 0 then return ret
  let ent ← ipu6CpdGetEntry mem 0 MODULEDATA_IDX
  let offset ← readEntOffset mem ent
  let len ← readEntLen mem ent
  ipu6CpdValidateModuledata mem offset len

-- ---------------------------------------------------------------------------
-- The package directory
-- ---------------------------------------------------------------------------

/-- The address of a component; `none` is `-EINVAL`. The index is a `u8`, and the size
of the table a `size_t`. -/
def ipu6CpdMetadataGetCmpnt (metadata size i : Nat) : Option Nat :=
  let idx := i % 2 ^ 8
  let cmpntCount := (size + 2 ^ 64 - extnSize) % 2 ^ 64 / cpdMetadataCmpntSize
  if idx > MAX_COMPONENT_ID ∨ idx ≥ cmpntCount then none
  else some (metadata + extnSize + idx * cpdMetadataCmpntSize)

/-- A `u32` as an `int`. -/
def toInt (v : Nat) : Int := if v < 2 ^ 31 then v else v - 2 ^ 32

def ipu6CpdMetadataGetCmpntId (mem : Mem) (metadata size i : Nat) : Logged Access Int :=
  match ipu6CpdMetadataGetCmpnt metadata size i with
  | none => return -EINVAL
  | some cmpnt => toInt <$> readU32 mem cmpnt

def ipu6CpdMetadataCmpntVersion (mem : Mem) (metadata size i : Nat) : Logged Access Int :=
  match ipu6CpdMetadataGetCmpnt metadata size i with
  | none => return -EINVAL
  | some cmpnt => toInt <$> readU32 mem (cmpnt + 8)

/-- The second word of an entry, by `FIELD_PREP`. -/
def fieldPrep (len id ver : Nat) : Nat :=
  len % 2 ^ 24 ||| (id % 2 ^ 7) * 2 ^ 48 ||| (ver % 2 ^ 16) * 2 ^ 32

/-- One round of the loop of `ipu6_cpd_parse_module_data`. -/
def parseEnt (mem : Mem) (dir len dmaAddr metadata metadataSize i : Nat) : Logged Access Int := do
  let ent := entAddr dir len i
  let p := 8 * (PKG_DIR_ENT_LEN * (1 + i))
  let offset ← readEntOffset mem ent
  emit (.write p (u64Bytes ((dmaAddr + offset) % 2 ^ 64)))
  let id ← ipu6CpdMetadataGetCmpntId mem metadata metadataSize i
  if id < 0 ∨ id > MAX_COMPONENT_ID then return -EINVAL
  let ver ← ipu6CpdMetadataCmpntVersion mem metadata metadataSize i
  if ver < 0 ∨ ver > MAX_COMPONENT_VERSION then return -EINVAL
  let len ← readEntLen mem ent
  emit (.write (p + 8) (u64Bytes (fieldPrep len id.toNat ver.toNat)))
  return 0

def ipu6CpdParseModuleData (mem : Mem) (moduleData dmaAddr metadata metadataSize : Nat) :
    Logged Access Int := do
  let modLen ← readU32 mem moduleData
  let dir := moduleData + modLen
  let len ← readU8 mem (dir + 10)
  emit (.write 0 (u64Bytes PKG_DIR_HDR_MARK))
  let cnt ← readU32 mem (dir + 4)
  emit (.write 8 (u64Bytes ((cnt + 1) % 2 ^ 32)))
  forErr (parseEnt mem dir len dmaAddr metadata metadataSize) cnt 0

/-- `memcpy` from the file to `pkg_dir`. -/
def copyOut (mem : Mem) (dst src len : Nat) : Logged Access Unit := do
  emit (.read src len)
  emit (.write dst (bytesAt mem src len))

def pkgDirSize (mem : Mem) : Nat :=
  (PKG_DIR_SIZE + entLen mem 0 MANIFEST_IDX + entLen mem 0 METADATA_IDX) % 2 ^ 32

/-- `dmaAddrSrc` is the address the file is mapped at, and `alloc` tells whether
`ipu6_dma_alloc` gives the `pkgDirSize` bytes. -/
def ipu6CpdCreatePkgDir (mem : Mem) (dmaAddrSrc : Nat) (alloc : Bool) : Logged Access Int := do
  let manEnt ← ipu6CpdGetEntry mem 0 MANIFEST_IDX
  let manSz ← readEntLen mem manEnt
  let metEnt ← ipu6CpdGetEntry mem 0 METADATA_IDX
  let metSz ← readEntLen mem metEnt
  if alloc = false then return -ENOMEM
  let ent ← ipu6CpdGetEntry mem 0 MODULEDATA_IDX
  let offset ← readEntOffset mem ent
  emit (.read (ent + 16) 4)
  let metOffset ← readEntOffset mem metEnt
  let ret ← ipu6CpdParseModuleData mem offset ((dmaAddrSrc + offset) % 2 ^ 64) metOffset metSz
  if ret ≠ 0 then return ret
  let manOffset ← readEntOffset mem manEnt
  let pos := 8 * (PKG_DIR_ENT_LEN * MAX_PKG_DIR_ENT_CNT)
  copyOut mem pos manOffset manSz
  copyOut mem (pos + manSz) metOffset metSz
  return 0

end Ipu4.Cpd
