import Ipu4.Cpd.File

/-!
# What the validator makes safe

`ipu6_cpd_validate_cpd_file` looks at its fields before it knows that they are in the
file, and it uses the entries 0 to 2 of a directory that may have fewer. For a directory
that has them, all that has to be seen to is the header of the file and that of the
directory in module data; every later read is then covered by a check.
-/

namespace Ipu4.Cpd

open Logged

-- ---------------------------------------------------------------------------
-- What is accepted
-- ---------------------------------------------------------------------------

/-- The data of entry `i` is within `dataSize` bytes. -/
def EntryAccepted (mem : Mem) (cpd dataSize i : Nat) : Prop :=
  entOffset mem cpd i ≤ dataSize ∧ entLen mem cpd i ≤ dataSize - entOffset mem cpd i

/-- The entries of a directory are within its `cpdSize` bytes. -/
structure TableAccepted (mem : Mem) (cpd cpdSize : Nat) : Prop where
  hdr : hdrLen mem cpd ≤ cpdSize
  cnt : entCnt mem cpd ≤ (cpdSize - hdrLen mem cpd) / entSize

structure DirAccepted (mem : Mem) (cpd cpdSize dataSize : Nat) : Prop
    extends TableAccepted mem cpd cpdSize where
  entries : ∀ i < entCnt mem cpd, EntryAccepted mem cpd dataSize i

structure MetadataAccepted (mem : Mem) (metadata size : Nat) : Prop where
  bound : extnSize ≤ size ∧ size ≤ MAX_METADATA_SIZE
  extnType : u32 mem metadata = IPU6_CPD_METADATA_EXTN_TYPE_IUNIT
  imgType : u32 mem (metadata + 8) = IPU6_CPD_METADATA_IMAGE_TYPE_MAIN_FIRMWARE
  table : (size - extnSize) % cpdMetadataCmpntSize = 0

/-- The directory in module data comes after a header. -/
def moduleDir (mem : Mem) (moduledata : Nat) : Nat := moduledata + u32 mem moduledata

structure ModuledataAccepted (mem : Mem) (moduledata size : Nat) : Prop where
  hdr : modHdrSize ≤ size
  len : u32 mem moduledata ≤ size
  dir : DirAccepted mem (moduleDir mem moduledata) (size - u32 mem moduledata) size

def Access.Inside (size : Nat) : Access → Prop
  | .read addr len => len = 0 ∨ addr + len ≤ size
  | .write _ _ => True

section
variable {mem : Mem} {size n : Nat}

@[simp] theorem val_readU8 (addr : Nat) : (readU8 mem addr).val = u8 mem addr := rfl

@[simp] theorem val_readU32 (addr : Nat) : (readU32 mem addr).val = u32 mem addr := rfl

@[simp] theorem val_readEntOffset (ent : Nat) : (readEntOffset mem ent).val = u32 mem (ent + 12) := rfl

@[simp] theorem val_readEntLen (ent : Nat) : (readEntLen mem ent).val = u32 mem (ent + 16) := rfl

@[simp] theorem inside_readU8 (addr : Nat) :
    All (Access.Inside size) (readU8 mem addr) ↔ addr + 1 ≤ size := by
  simp [readU8, Access.Inside]

@[simp] theorem inside_readU32 (addr : Nat) :
    All (Access.Inside size) (readU32 mem addr) ↔ addr + 4 ≤ size := by
  simp [readU32, Access.Inside]

@[simp] theorem inside_readEntOffset (ent : Nat) :
    All (Access.Inside size) (readEntOffset mem ent) ↔ ent + 16 ≤ size := by
  simp [readEntOffset]

@[simp] theorem inside_readEntLen (ent : Nat) :
    All (Access.Inside size) (readEntLen mem ent) ↔ ent + 20 ≤ size := by
  simp [readEntLen]

@[simp] theorem inside_write (addr : Nat) (bytes : List UInt8) :
    Access.Inside size (.write addr bytes) := trivial

theorem check_eq_zero {c : Prop} [Decidable c] {ret : Int} :
    (if c then -EINVAL else ret) = 0 ↔ ¬ c ∧ ret = 0 := by
  have hne : ¬ -EINVAL = 0 := by decide
  split
  · simp [*]
  · simp [*]

theorem val_validateEnt (cpd dataSize i : Nat) :
    (validateEnt mem cpd (hdrLen mem cpd) dataSize i).val = 0 ↔ EntryAccepted mem cpd dataSize i := by
  simp only [validateEnt, val_bind, val_ite, val_pure, check_eq_zero, Nat.not_lt, and_true]
  exact Iff.rfl

theorem inside_validateEnt (cpd dataSize i : Nat) :
    All (Access.Inside size) (validateEnt mem cpd (hdrLen mem cpd) dataSize i) ↔
      let ent := entAddr cpd (hdrLen mem cpd) i
      ent + 16 ≤ size ∧ (entOffset mem cpd i ≤ dataSize → ent + 20 ≤ size) := by
  simp only [validateEnt, all_bind, all_ite]
  simp [entOffset]

theorem tableAccepted_iff (cpd cpdSize : Nat) : TableAccepted mem cpd cpdSize ↔
    hdrLen mem cpd ≤ cpdSize ∧ entCnt mem cpd ≤ (cpdSize - hdrLen mem cpd) / entSize :=
  ⟨fun h => ⟨h.hdr, h.cnt⟩, fun h => ⟨h.1, h.2⟩⟩

theorem dirAccepted_iff (cpd cpdSize dataSize : Nat) : DirAccepted mem cpd cpdSize dataSize ↔
    TableAccepted mem cpd cpdSize ∧ ∀ i < entCnt mem cpd, EntryAccepted mem cpd dataSize i :=
  ⟨fun h => ⟨h.toTableAccepted, h.entries⟩, fun h => ⟨h.1, h.2⟩⟩

theorem val_validateCpd (cpd cpdSize dataSize : Nat) :
    (ipu6CpdValidateCpd mem cpd cpdSize dataSize).val = 0 ↔ DirAccepted mem cpd cpdSize dataSize := by
  rw [dirAccepted_iff, tableAccepted_iff, and_assoc]
  simp only [ipu6CpdValidateCpd, val_bind, val_ite, val_pure, check_eq_zero, Nat.not_lt]
  refine and_congr Iff.rfl (and_congr Iff.rfl ?_)
  refine (val_forErr _ 0).trans (forall₂_congr fun i _ => ?_)
  rw [Nat.zero_add]
  exact val_validateEnt cpd dataSize i

theorem inside_validateCpd (cpd cpdSize dataSize : Nat) :
    All (Access.Inside size) (ipu6CpdValidateCpd mem cpd cpdSize dataSize) ↔
      cpd + 11 ≤ size ∧ (TableAccepted mem cpd cpdSize → ∀ i < entCnt mem cpd,
        (∀ j < i, EntryAccepted mem cpd dataSize j) →
          let ent := entAddr cpd (hdrLen mem cpd) i
          ent + 16 ≤ size ∧ (entOffset mem cpd i ≤ dataSize → ent + 20 ≤ size)) := by
  rw [tableAccepted_iff]
  simp only [ipu6CpdValidateCpd, all_bind, all_ite, all_pure, all_forErr, Nat.not_lt]
  simp only [val_readU8, val_readU32, inside_readU8, inside_readU32, Nat.zero_add]
  change _ ∧ (_ → True) ∧ (hdrLen mem cpd ≤ cpdSize → _ ∧ (_ → True) ∧
    (entCnt mem cpd ≤ (cpdSize - hdrLen mem cpd) / entSize → ∀ k < entCnt mem cpd,
      (∀ j < k, (validateEnt mem cpd (hdrLen mem cpd) dataSize j).val = 0) →
        All (Access.Inside size) (validateEnt mem cpd (hdrLen mem cpd) dataSize k))) ↔ _
  simp only [val_validateEnt, inside_validateEnt]
  constructor
  · rintro ⟨hhdr, -, hrest⟩
    exact ⟨hhdr, fun h => (hrest h.1).2.2 h.2⟩
  · rintro ⟨hhdr, hrest⟩
    exact ⟨by omega, fun _ => trivial, fun hlen => ⟨by omega, fun _ => trivial, fun hcnt => hrest ⟨hlen, hcnt⟩⟩⟩

theorem DirAccepted.entry (h : DirAccepted mem cpd cpdSize dataSize) (hi : i < entCnt mem cpd) :
    entAddr cpd (hdrLen mem cpd) i + entSize ≤ cpd + cpdSize ∧
      entOffset mem cpd i + entLen mem cpd i ≤ dataSize := by
  have hfit := h.hdr
  have hcnt := h.cnt
  obtain ⟨hoff, hlen⟩ := h.entries i hi
  unfold entSize at hcnt
  unfold entAddr entSize
  omega

theorem inside_validateCpd_of_fits (mem : Mem) (hhdr : cpd + 11 ≤ size) (hdir : cpd + cpdSize ≤ size)
    (dataSize : Nat) :
    All (Access.Inside size) (ipu6CpdValidateCpd mem cpd cpdSize dataSize) := by
  rw [inside_validateCpd]
  refine ⟨hhdr, fun ⟨hlen, hcnt⟩ i hi _ => ?_⟩
  unfold entSize at hcnt
  unfold entAddr entSize
  dsimp only
  omega

-- ---------------------------------------------------------------------------
-- The parts of a file
-- ---------------------------------------------------------------------------

theorem val_validateMetadata (metadata len : Nat) :
    (ipu6CpdValidateMetadata mem metadata len).val = 0 ↔ MetadataAccepted mem metadata len := by
  simp only [ipu6CpdValidateMetadata, val_bind, val_ite, val_pure, check_eq_zero]
  simp only [val_readU32, not_or, Nat.not_lt, not_not, and_true, ne_eq]
  exact ⟨fun h => ⟨h.1, h.2.1.1, h.2.1.2, h.2.2⟩, fun h => ⟨h.bound, ⟨h.extnType, h.imgType⟩, h.table⟩⟩

theorem inside_validateMetadata (metadata len : Nat) :
    All (Access.Inside size) (ipu6CpdValidateMetadata mem metadata len) ↔
      (extnSize ≤ len ∧ len ≤ MAX_METADATA_SIZE → metadata + 12 ≤ size) := by
  simp only [ipu6CpdValidateMetadata, all_bind, all_ite, all_pure]
  simp only [inside_readU32, not_or, Nat.not_lt, implies_true, and_true, true_and]
  refine forall_congr' fun _ => ?_
  omega

theorem val_validateModuledata (moduledata len : Nat) :
    (ipu6CpdValidateModuledata mem moduledata len).val = 0 ↔
      ModuledataAccepted mem moduledata len := by
  simp only [ipu6CpdValidateModuledata, val_bind, val_ite, val_pure, check_eq_zero, Nat.not_lt,
    val_validateCpd]
  exact ⟨fun h => ⟨h.1, h.2.1, h.2.2⟩, fun h => ⟨h.hdr, h.len, h.dir⟩⟩

theorem inside_validateModuledata (moduledata len : Nat) :
    All (Access.Inside size) (ipu6CpdValidateModuledata mem moduledata len) ↔
      (modHdrSize ≤ len → moduledata + 4 ≤ size ∧ (u32 mem moduledata ≤ len →
        moduledata + 12 ≤ size ∧ All (Access.Inside size) (ipu6CpdValidateCpd mem
          (moduleDir mem moduledata) (len - u32 mem moduledata) len))) := by
  simp only [ipu6CpdValidateModuledata, all_bind, all_ite, all_pure, all_emit]
  simp only [val_readU32, inside_readU32, Nat.not_lt, implies_true, true_and, Access.Inside]
  refine forall_congr' fun _ => and_congr Iff.rfl (forall_congr' fun _ => and_congr ?_ Iff.rfl)
  omega

theorem u32_lt (mem : Mem) (addr : Nat) : u32 mem addr < 2 ^ 32 := by
  have hbyte : ∀ a, u8 mem a < 256 := fun a => UInt8.toNat_lt (mem a)
  have h0 := hbyte addr
  have h1 := hbyte (addr + 1)
  have h2 := hbyte (addr + 2)
  have h3 := hbyte (addr + 3)
  unfold u32
  omega

theorem toInt_le_iff {b : Nat} (hb : b < 2 ^ 31) (mem : Mem) (addr : Nat) :
    ¬ (toInt (u32 mem addr) < 0 ∨ toInt (u32 mem addr) > b) ↔ u32 mem addr ≤ b := by
  have hlt := u32_lt mem addr
  unfold toInt
  split <;> omega

/-- The component that entry `i` belongs to, and its checks. -/
def ComponentAccepted (mem : Mem) (metadata metadataSize i : Nat) : Prop :=
  ∃ cmpnt, ipu6CpdMetadataGetCmpnt metadata metadataSize i = some cmpnt ∧
    u32 mem cmpnt ≤ MAX_COMPONENT_ID ∧ u32 mem (cmpnt + 8) ≤ MAX_COMPONENT_VERSION

/-- The fields of a component that are read. -/
def ComponentInside (mem : Mem) (size metadata metadataSize i : Nat) : Prop :=
  ∀ cmpnt, ipu6CpdMetadataGetCmpnt metadata metadataSize i = some cmpnt →
    cmpnt + 4 ≤ size ∧ (u32 mem cmpnt ≤ MAX_COMPONENT_ID → cmpnt + 12 ≤ size)

theorem val_parseEnt (dir len dmaAddr metadata metadataSize i : Nat) :
    (parseEnt mem dir len dmaAddr metadata metadataSize i).val = 0 ↔
      ComponentAccepted mem metadata metadataSize i := by
  unfold ComponentAccepted
  simp only [parseEnt, val_bind, val_ite, val_pure, check_eq_zero, ipu6CpdMetadataGetCmpntId,
    ipu6CpdMetadataCmpntVersion]
  cases ipu6CpdMetadataGetCmpnt metadata metadataSize i with
  | none => simp [EINVAL]
  | some cmpnt =>
    simp only [val_map, val_readU32, Option.some.injEq, exists_eq_left', and_true]
    exact and_congr (toInt_le_iff (by decide) mem cmpnt) (toInt_le_iff (by decide) mem (cmpnt + 8))

theorem inside_parseEnt (dir dmaAddr metadata metadataSize i : Nat) :
    All (Access.Inside size)
        (parseEnt mem dir (hdrLen mem dir) dmaAddr metadata metadataSize i) ↔
      let ent := entAddr dir (hdrLen mem dir) i
      ent + 16 ≤ size ∧ ComponentInside mem size metadata metadataSize i ∧
        (ComponentAccepted mem metadata metadataSize i → ent + 20 ≤ size) := by
  unfold ComponentAccepted ComponentInside
  simp only [parseEnt, all_bind, all_ite, all_pure, ipu6CpdMetadataGetCmpntId,
    ipu6CpdMetadataCmpntVersion]
  cases ipu6CpdMetadataGetCmpnt metadata metadataSize i with
  | none => simp [EINVAL]
  | some cmpnt =>
    have hid := toInt_le_iff (b := MAX_COMPONENT_ID) (by decide) mem cmpnt
    have hver := toInt_le_iff (b := MAX_COMPONENT_VERSION) (by decide) mem (cmpnt + 8)
    simp only [val_map, val_readU32, all_map, inside_readU32, inside_readEntOffset, inside_readEntLen,
      all_emit, inside_write, Option.some.injEq, exists_eq_left', implies_true, true_and, and_true,
      hid, hver, forall_eq']
    constructor
    · rintro ⟨hoff, hc, hrest⟩
      exact ⟨hoff, ⟨hc, fun h => (hrest h).1⟩, fun h => (hrest h.1).2 h.2⟩
    · rintro ⟨hoff, ⟨hc, hid⟩, hrest⟩
      exact ⟨hoff, hc, fun h => ⟨hid h, fun h' => hrest ⟨h, h'⟩⟩⟩

-- ---------------------------------------------------------------------------
-- The two passes
-- ---------------------------------------------------------------------------

/-- The directory of the file is accepted, and the file has its mark. -/
structure Opened (mem : Mem) (size : Nat) : Prop where
  dir : DirAccepted mem 0 size size
  mark : u32 mem 0 = CPD_HDR_MARK

structure FileAccepted (mem : Mem) (size : Nat) : Prop extends Opened mem size where
  manifest : entLen mem 0 MANIFEST_IDX ≤ MAX_MANIFEST_SIZE
  metadata : MetadataAccepted mem (entOffset mem 0 METADATA_IDX) (entLen mem 0 METADATA_IDX)
  moduledata : ModuledataAccepted mem (entOffset mem 0 MODULEDATA_IDX) (entLen mem 0 MODULEDATA_IDX)

theorem opened_iff : Opened mem size ↔ DirAccepted mem 0 size size ∧ u32 mem 0 = CPD_HDR_MARK :=
  ⟨fun h => ⟨h.dir, h.mark⟩, fun h => ⟨h.1, h.2⟩⟩

theorem passed_eq_zero {ret rest : Int} : (if ret ≠ 0 then ret else rest) = 0 ↔ ret = 0 ∧ rest = 0 := by
  by_cases h : ret = 0
  · simp [h]
  · simp [h]

theorem val_validateCpdFile (mem : Mem) (size : Nat) :
    (ipu6CpdValidateCpdFile mem size).val = 0 ↔ FileAccepted mem size := by
  simp only [ipu6CpdValidateCpdFile, ipu6CpdGetEntry, val_bind, val_ite, val_pure, check_eq_zero,
    passed_eq_zero, val_validateCpd, val_validateMetadata, val_validateModuledata]
  simp only [ne_eq, not_not, gt_iff_lt, Nat.not_lt]
  constructor
  · rintro ⟨hdir, hmark, hman, hmet, hmod⟩
    exact ⟨⟨hdir, hmark⟩, hman, hmet, hmod⟩
  · rintro ⟨⟨hdir, hmark⟩, hman, hmet, hmod⟩
    exact ⟨hdir, hmark, hman, hmet, hmod⟩

theorem ent_inside {ent : Nat} {p : Prop} :
    ent + 16 ≤ size ∧ ent + 20 ≤ size ∧ p ↔ ent + 20 ≤ size ∧ p := by
  constructor
  · exact And.right
  · rintro ⟨hent, hp⟩
    exact ⟨by omega, hent, hp⟩

theorem inside_validateCpdFile (hsize : 11 ≤ size) :
    All (Access.Inside size) (ipu6CpdValidateCpdFile mem size) ↔
      (Opened mem size → entAddr 0 (hdrLen mem 0) MANIFEST_IDX + 20 ≤ size ∧
        (entLen mem 0 MANIFEST_IDX ≤ MAX_MANIFEST_SIZE →
          entAddr 0 (hdrLen mem 0) METADATA_IDX + 20 ≤ size ∧
          (extnSize ≤ entLen mem 0 METADATA_IDX ∧ entLen mem 0 METADATA_IDX ≤ MAX_METADATA_SIZE →
            entOffset mem 0 METADATA_IDX + 12 ≤ size) ∧
          (MetadataAccepted mem (entOffset mem 0 METADATA_IDX) (entLen mem 0 METADATA_IDX) →
            entAddr 0 (hdrLen mem 0) MODULEDATA_IDX + 20 ≤ size ∧
            All (Access.Inside size) (ipu6CpdValidateModuledata mem (entOffset mem 0 MODULEDATA_IDX)
              (entLen mem 0 MODULEDATA_IDX))))) := by
  have hdir := inside_validateCpd_of_fits mem (Nat.le_trans (by decide) hsize)
    (Nat.le_of_eq (Nat.zero_add size)) size
  have hmark : 0 + 4 ≤ size := by omega
  have hlen : 0 + 10 + 1 ≤ size := by omega
  rw [opened_iff, and_imp]
  simp only [ipu6CpdValidateCpdFile, ipu6CpdGetEntry, all_bind, all_ite, all_pure, hdir, val_bind, val_pure,
    inside_validateMetadata]
  simp only [ne_eq, not_not, gt_iff_lt, Nat.not_lt, val_validateCpd, val_validateMetadata, inside_readU8,
    inside_readU32, inside_readEntOffset, inside_readEntLen, hmark, hlen, implies_true, true_and, ent_inside]
  exact Iff.rfl

theorem val_parseModuleData (moduleData dmaAddr metadata metadataSize : Nat) :
    (ipu6CpdParseModuleData mem moduleData dmaAddr metadata metadataSize).val = 0 ↔
      ∀ i < entCnt mem (moduleDir mem moduleData), ComponentAccepted mem metadata metadataSize i := by
  simp only [ipu6CpdParseModuleData, val_bind, val_forErr, Nat.zero_add, val_parseEnt]
  exact Iff.rfl

theorem inside_parseModuleData (moduleData dmaAddr metadata metadataSize : Nat) :
    All (Access.Inside size)
        (ipu6CpdParseModuleData mem moduleData dmaAddr metadata metadataSize) ↔
      let dir := moduleDir mem moduleData
      moduleData + 4 ≤ size ∧ dir + 11 ≤ size ∧ ∀ i < entCnt mem dir,
        (∀ j < i, ComponentAccepted mem metadata metadataSize j) →
          entAddr dir (hdrLen mem dir) i + 16 ≤ size ∧
          ComponentInside mem size metadata metadataSize i ∧
          (ComponentAccepted mem metadata metadataSize i →
            entAddr dir (hdrLen mem dir) i + 20 ≤ size) := by
  simp only [ipu6CpdParseModuleData, all_bind, all_emit, inside_write, all_forErr, Nat.zero_add,
    val_parseEnt, true_and, inside_readU32, inside_readU8]
  refine and_congr Iff.rfl ?_
  constructor
  · rintro ⟨hlen, -, hrest⟩
    exact ⟨hlen, fun i hi hbefore => (inside_parseEnt _ _ _ _ i).mp (hrest i hi hbefore)⟩
  · rintro ⟨hlen, hrest⟩
    have hdir : moduleDir mem moduleData = moduleData + u32 mem moduleData := rfl
    have hcnt : moduleData + u32 mem moduleData + 4 + 4 ≤ size := by omega
    exact ⟨hlen, hcnt, fun i hi hbefore => (inside_parseEnt _ _ _ _ i).mpr (hrest i hi hbefore)⟩

/-- The copies that come after the entries. -/
def CopiesInside (mem : Mem) (size : Nat) : Prop :=
  Access.Inside size (.read (entOffset mem 0 MANIFEST_IDX) (entLen mem 0 MANIFEST_IDX)) ∧
    Access.Inside size (.read (entOffset mem 0 METADATA_IDX) (entLen mem 0 METADATA_IDX))

theorem inside_createPkgDir (hsize : 11 ≤ size) (dmaAddrSrc : Nat) :
    All (Access.Inside size) (ipu6CpdCreatePkgDir mem dmaAddrSrc true) ↔
      let metadata := entOffset mem 0 METADATA_IDX
      let metadataSize := entLen mem 0 METADATA_IDX
      let moduledata := entOffset mem 0 MODULEDATA_IDX
      entAddr 0 (hdrLen mem 0) MANIFEST_IDX + 20 ≤ size ∧
      entAddr 0 (hdrLen mem 0) METADATA_IDX + 20 ≤ size ∧
      entAddr 0 (hdrLen mem 0) MODULEDATA_IDX + 20 ≤ size ∧
      All (Access.Inside size) (ipu6CpdParseModuleData mem moduledata
        ((dmaAddrSrc + moduledata) % 2 ^ 64) metadata metadataSize) ∧
      ((∀ i < entCnt mem (moduleDir mem moduledata),
        ComponentAccepted mem metadata metadataSize i) → CopiesInside mem size) := by
  have hlen : 0 + 10 + 1 ≤ size := by omega
  simp only [ipu6CpdCreatePkgDir, ipu6CpdGetEntry, copyOut, all_bind, all_ite, all_pure, all_emit, val_bind,
    val_pure]
  simp only [ne_eq, not_not, inside_readU8, inside_write, reduceCtorEq, not_false_eq_true,
    val_parseModuleData, inside_readEntOffset, inside_readEntLen, hlen, implies_true, true_and, and_true]
  constructor
  · rintro ⟨hman, hmet, hrest⟩
    obtain ⟨hoff, hmod, -, hparse, hcopies⟩ := hrest trivial
    exact ⟨hman, hmet, hmod.resolve_left (by decide), hparse, fun h => (hcopies h).2⟩
  · rintro ⟨hman, hmet, hmod, hparse, hcopies⟩
    refine ⟨hman, hmet, fun _ => ⟨?_, .inr hmod, ?_, hparse, fun h => ⟨?_, hcopies h⟩⟩⟩
    · exact Nat.le_trans (Nat.add_le_add_left (by decide) _) hmod
    · exact Nat.le_trans (Nat.add_le_add_left (by decide) _) hmet
    · exact Nat.le_trans (Nat.add_le_add_left (by decide) _) hman

-- ---------------------------------------------------------------------------
-- The condition
-- ---------------------------------------------------------------------------

/-- The validator reads inside the file, and if it accepts the file, what builds the
package directory does so too. -/
def ReadsInside (mem : Mem) (size : Nat) : Prop :=
  All (Access.Inside size) (ipu6CpdValidateCpdFile mem size) ∧
    ((ipu6CpdValidateCpdFile mem size).val = 0 → ∀ dmaAddrSrc alloc,
      All (Access.Inside size) (ipu6CpdCreatePkgDir mem dmaAddrSrc alloc))

/-- The header of the directory in module data is in the file, if the checks before it
are passed. -/
def NestedInside (mem : Mem) (size : Nat) : Prop :=
  let moduledata := entOffset mem 0 MODULEDATA_IDX
  let len := entLen mem 0 MODULEDATA_IDX
  entLen mem 0 MANIFEST_IDX ≤ MAX_MANIFEST_SIZE →
    MetadataAccepted mem (entOffset mem 0 METADATA_IDX) (entLen mem 0 METADATA_IDX) →
    modHdrSize ≤ len → u32 mem moduledata ≤ len → moduleDir mem moduledata + 11 ≤ size

/-- The directory in module data, with its table up to the first entry that is refused. -/
def ModuleDirInside (mem : Mem) (size : Nat) : Prop :=
  let dir := moduleDir mem (entOffset mem 0 MODULEDATA_IDX)
  let len := entLen mem 0 MODULEDATA_IDX
  dir + 11 ≤ size ∧
    (TableAccepted mem dir (len - u32 mem (entOffset mem 0 MODULEDATA_IDX)) →
      ∀ i < entCnt mem dir, (∀ j < i, EntryAccepted mem dir len j) →
        entAddr dir (hdrLen mem dir) i + 16 ≤ size ∧
          (entOffset mem dir i ≤ len → entAddr dir (hdrLen mem dir) i + 20 ≤ size))

/-- The components up to the first that is refused, and then the copies. -/
def ComponentsInside (mem : Mem) (size : Nat) : Prop :=
  let cnt := entCnt mem (moduleDir mem (entOffset mem 0 MODULEDATA_IDX))
  let metadata := entOffset mem 0 METADATA_IDX
  let len := entLen mem 0 METADATA_IDX
  (∀ i < cnt, (∀ j < i, ComponentAccepted mem metadata len j) →
    ComponentInside mem size metadata len i) ∧
    ((∀ i < cnt, ComponentAccepted mem metadata len i) → CopiesInside mem size)

/-- What is read through the entries 0, 1 and 2 is in the file, although nothing has
checked that the directory has them. -/
def StrayInside (mem : Mem) (size : Nat) : Prop :=
  let metadata := entOffset mem 0 METADATA_IDX
  let metadataSize := entLen mem 0 METADATA_IDX
  let moduledata := entOffset mem 0 MODULEDATA_IDX
  let len := entLen mem 0 MODULEDATA_IDX
  entAddr 0 (hdrLen mem 0) MANIFEST_IDX + 20 ≤ size ∧
    (entLen mem 0 MANIFEST_IDX ≤ MAX_MANIFEST_SIZE →
      entAddr 0 (hdrLen mem 0) METADATA_IDX + 20 ≤ size ∧
      (extnSize ≤ metadataSize ∧ metadataSize ≤ MAX_METADATA_SIZE → metadata + 12 ≤ size) ∧
      (MetadataAccepted mem metadata metadataSize →
        entAddr 0 (hdrLen mem 0) MODULEDATA_IDX + 20 ≤ size ∧
        (modHdrSize ≤ len → moduledata + 4 ≤ size ∧
          (u32 mem moduledata ≤ len → moduledata + 12 ≤ size ∧ ModuleDirInside mem size ∧
            (ModuledataAccepted mem moduledata len → ComponentsInside mem size)))))

theorem inside_createPkgDir_noMem (dmaAddrSrc : Nat)
    (h : All (Access.Inside size) (ipu6CpdCreatePkgDir mem dmaAddrSrc true)) (alloc : Bool) :
    All (Access.Inside size) (ipu6CpdCreatePkgDir mem dmaAddrSrc alloc) := by
  cases alloc with
  | true => exact h
  | false =>
    simp only [ipu6CpdCreatePkgDir, all_bind] at h ⊢
    obtain ⟨h1, h2, h3, h4, -⟩ := h
    exact ⟨h1, h2, h3, h4, all_pure _⟩

theorem readsInside_iff_stray (hsize : 11 ≤ size) :
    ReadsInside mem size ↔ (Opened mem size → StrayInside mem size) := by
  unfold ReadsInside StrayInside
  rw [inside_validateCpdFile hsize, val_validateCpdFile]
  simp only [inside_validateModuledata, inside_validateCpd]
  constructor
  · rintro ⟨hfirst, hsecond⟩ hopen
    obtain ⟨hman, hrest⟩ := hfirst hopen
    refine ⟨hman, fun hmanLen => ?_⟩
    obtain ⟨hmet, hmetHdr, hrest⟩ := hrest hmanLen
    refine ⟨hmet, hmetHdr, fun hmetOk => ?_⟩
    obtain ⟨hmod, hrest⟩ := hrest hmetOk
    refine ⟨hmod, fun hlen => ⟨(hrest hlen).1, fun hhdr => ?_⟩⟩
    obtain ⟨hdate, hdir⟩ := (hrest hlen).2 hhdr
    refine ⟨hdate, hdir, fun hmodOk => ?_⟩
    have hcreate := hsecond ⟨hopen, hmanLen, hmetOk, hmodOk⟩ 0 true
    rw [inside_createPkgDir hsize] at hcreate
    obtain ⟨-, -, -, hparse, hcopies⟩ := hcreate
    rw [inside_parseModuleData] at hparse
    exact ⟨fun i hi hbefore => (hparse.2.2 i hi hbefore).2.1, hcopies⟩
  · intro h
    constructor
    · intro hopen
      obtain ⟨hman, hrest⟩ := h hopen
      refine ⟨hman, fun hmanLen => ?_⟩
      obtain ⟨hmet, hmetHdr, hrest⟩ := hrest hmanLen
      refine ⟨hmet, hmetHdr, fun hmetOk => ?_⟩
      obtain ⟨hmod, hrest⟩ := hrest hmetOk
      refine ⟨hmod, fun hlen => ⟨(hrest hlen).1, fun hhdr => ?_⟩⟩
      exact ⟨((hrest hlen).2 hhdr).1, ((hrest hlen).2 hhdr).2.1⟩
    · rintro ⟨hopen, hmanLen, hmetOk, hmodOk⟩ dmaAddrSrc alloc
      refine inside_createPkgDir_noMem dmaAddrSrc ?_ alloc
      obtain ⟨hman, hrest⟩ := h hopen
      obtain ⟨hmet, -, hrest⟩ := hrest hmanLen
      obtain ⟨hmod, hrest⟩ := hrest hmetOk
      obtain ⟨hhdr, hrest⟩ := hrest hmodOk.hdr
      obtain ⟨-, hdir, hcomps⟩ := hrest hmodOk.len
      refine (inside_createPkgDir hsize dmaAddrSrc).mpr ⟨hman, hmet, hmod, ?_, (hcomps hmodOk).2⟩
      refine (inside_parseModuleData _ _ _ _).mpr ⟨hhdr, hdir.1, fun i hi hbefore => ?_⟩
      have hent := hdir.2 hmodOk.dir.toTableAccepted i hi fun j hj => hmodOk.dir.entries j (by omega)
      have hend := hent.2 (hmodOk.dir.entries i hi).1
      exact ⟨hent.1, (hcomps hmodOk).1 i hi hbefore, fun _ => hend⟩

theorem cmpnt_bounds (hsize : extnSize ≤ metadataSize) (hle : metadataSize < 2 ^ 32)
    (h : ipu6CpdMetadataGetCmpnt metadata metadataSize i = some cmpnt) :
    cmpnt + cpdMetadataCmpntSize ≤ metadata + metadataSize := by
  unfold ipu6CpdMetadataGetCmpnt extnSize cpdMetadataCmpntSize at *
  dsimp only at h
  split at h
  · cases h
  next hidx =>
    obtain rfl := Option.some.inj h
    omega

theorem strayInside_iff_nested (hopen : Opened mem size) (hcnt : 3 ≤ entCnt mem 0) :
    StrayInside mem size ↔ NestedInside mem size := by
  obtain ⟨hman, hmanData⟩ := hopen.dir.entry (i := MANIFEST_IDX) (by unfold MANIFEST_IDX; omega)
  obtain ⟨hmet, hmetData⟩ := hopen.dir.entry (i := METADATA_IDX) (by unfold METADATA_IDX; omega)
  obtain ⟨hmod, hmodData⟩ := hopen.dir.entry (i := MODULEDATA_IDX) (by unfold MODULEDATA_IDX; omega)
  unfold entSize at hman hmet hmod
  constructor
  · intro h hmanLen hmetOk hlen hhdr
    exact (((h.2 hmanLen).2.2 hmetOk).2 hlen).2 hhdr |>.2.1.1
  · intro h
    refine ⟨by omega, fun hmanLen => ⟨by omega, fun hbound => ?_, fun hmetOk => ⟨by omega, fun hlen => ?_⟩⟩⟩
    · have hextn := hbound.1
      unfold extnSize at hextn
      omega
    · unfold modHdrSize at hlen
      refine ⟨by omega, fun hhdr => ⟨by omega, ?_, fun hmodOk => ⟨fun i _ _ cmpnt hc => ?_, fun _ => ?_⟩⟩⟩
      · have hnested := h hmanLen hmetOk hlen hhdr
        have hdir : moduleDir mem (entOffset mem 0 MODULEDATA_IDX) =
            entOffset mem 0 MODULEDATA_IDX + u32 mem (entOffset mem 0 MODULEDATA_IDX) := rfl
        have hend : moduleDir mem (entOffset mem 0 MODULEDATA_IDX) + (entLen mem 0 MODULEDATA_IDX -
            u32 mem (entOffset mem 0 MODULEDATA_IDX)) ≤ size := by omega
        exact (inside_validateCpd _ _ _).mp
          (inside_validateCpd_of_fits mem hnested hend (entLen mem 0 MODULEDATA_IDX))
      · have hin := cmpnt_bounds hmetOk.bound.1 (u32_lt mem _) hc
        unfold cpdMetadataCmpntSize at hin
        omega
      · exact ⟨.inr (by omega), .inr (by omega)⟩

/-- The condition under which all reads are inside the file. A directory with fewer than
three entries is used as if it had three; only chance then keeps the reads inside. -/
theorem cpd_reads_inside_iff (mem : Mem) (size : Nat) :
    ReadsInside mem size ↔ 11 ≤ size ∧ (Opened mem size →
      if 3 ≤ entCnt mem 0 then NestedInside mem size else StrayInside mem size) := by
  constructor
  · intro h
    have hsize : 11 ≤ size := by
      have hfirst := h.1
      simp only [ipu6CpdValidateCpdFile, all_bind, inside_validateCpd] at hfirst
      omega
    refine ⟨hsize, fun hopen => ?_⟩
    have hstray := (readsInside_iff_stray hsize).mp h hopen
    split
    next hcnt => exact (strayInside_iff_nested hopen hcnt).mp hstray
    next => exact hstray
  · rintro ⟨hsize, h⟩
    refine (readsInside_iff_stray hsize).mpr fun hopen => ?_
    have hcond := h hopen
    split at hcond
    next hcnt => exact (strayInside_iff_nested hopen hcnt).mpr hcond
    next => exact hcond

end

/-- A file of 16 bytes: the mark, no entries, and a header of 16 bytes. -/
def noEntries : Mem := fun a =>
  [0x24, 0x43, 0x50, 0x44, 0, 0, 0, 0, 0, 0, 16, 0, 0, 0, 0, 0].getD a 0

/-- The length of entry 0 is read at byte 32. -/
theorem read_past_directory : ¬ ∀ mem size, ReadsInside mem size := by
  intro h
  have hread := (h noEntries 16).1 (.read 32 4) (by decide)
  revert hread
  simp [Access.Inside]

end Ipu4.Cpd
