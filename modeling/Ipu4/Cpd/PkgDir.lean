import Mathlib.Data.List.GetD
import Ipu4.Cpd.Reads

/-!
# The package directory

What `ipu6_cpd_create_pkg_dir` writes stays in the memory it has allocated, because a
component takes more room in the metadata than in the directory. What the directory
says in the end is another matter: entries from the sixteenth on are where the manifest
goes, and the length of a component is cut to 24 bits.
-/

namespace Ipu4.Cpd

open Logged

section
variable {mem : Mem} {size : Nat}

-- ---------------------------------------------------------------------------
-- The writes
-- ---------------------------------------------------------------------------

/-- A write stays inside `size` bytes. -/
def Access.Fits (size : Nat) : Access → Prop
  | .read _ _ => True
  | .write addr bytes => addr + bytes.length ≤ size

@[simp] theorem fits_read (addr len : Nat) : Access.Fits size (.read addr len) := trivial

@[simp] theorem length_u64Bytes (v : Nat) : (u64Bytes v).length = 8 := by
  simp [u64Bytes]

@[simp] theorem length_bytesAt (addr len : Nat) : (bytesAt mem addr len).length = len := by
  simp [bytesAt]

@[simp] theorem fits_u64 (addr v : Nat) : Access.Fits size (.write addr (u64Bytes v)) ↔ addr + 8 ≤ size := by
  simp [Access.Fits]

@[simp] theorem fits_readU8 (addr : Nat) : All (Access.Fits size) (readU8 mem addr) := by
  simp [readU8]

@[simp] theorem fits_readU32 (addr : Nat) : All (Access.Fits size) (readU32 mem addr) := by
  simp [readU32]

theorem accepted_index (hsize : extnSize ≤ metadataSize) (hle : metadataSize < 2 ^ 32)
    (h : ComponentAccepted mem metadata metadataSize j) :
    j % 2 ^ 8 ≤ MAX_COMPONENT_ID ∧
      extnSize + (j % 2 ^ 8 + 1) * cpdMetadataCmpntSize ≤ metadataSize := by
  obtain ⟨cmpnt, hget, -⟩ := h
  unfold ipu6CpdMetadataGetCmpnt extnSize cpdMetadataCmpntSize at *
  dsimp only at hget
  split at hget
  · cases hget
  · omega

theorem accepted_count (hsize : extnSize ≤ metadataSize) (hle : metadataSize < 2 ^ 32)
    (h : ∀ j < i, ComponentAccepted mem metadata metadataSize j) :
    i ≤ MAX_COMPONENT_ID + 1 ∧ extnSize + i * cpdMetadataCmpntSize ≤ metadataSize := by
  cases i with
  | zero => exact ⟨by decide, by omega⟩
  | succ i =>
    have hi : i ≤ MAX_COMPONENT_ID := by
      by_contra hgt
      -- the index would be 128
      have hidx := (accepted_index hsize hle (h (MAX_COMPONENT_ID + 1) (by omega))).1
      revert hidx
      decide
    have hlast := accepted_index hsize hle (h i (by omega))
    unfold MAX_COMPONENT_ID at hi ⊢
    rw [Nat.mod_eq_of_lt (by omega)] at hlast
    exact ⟨by omega, hlast.2⟩

theorem fits_parseEnt (dir len dmaAddr metadata metadataSize i : Nat)
    (hfirst : 16 * (1 + i) + 8 ≤ size)
    (hsecond : ComponentAccepted mem metadata metadataSize i → 16 * (1 + i) + 16 ≤ size) :
    All (Access.Fits size) (parseEnt mem dir len dmaAddr metadata metadataSize i) := by
  have hp : 8 * (PKG_DIR_ENT_LEN * (1 + i)) = 16 * (1 + i) := by
    unfold PKG_DIR_ENT_LEN
    omega
  unfold ComponentAccepted at hsecond
  simp only [parseEnt, all_bind, all_ite, all_pure, all_emit, fits_u64, hp, ipu6CpdMetadataGetCmpntId,
    ipu6CpdMetadataCmpntVersion, readEntOffset, readEntLen, fits_readU32, hfirst, true_and]
  cases hget : ipu6CpdMetadataGetCmpnt metadata metadataSize i with
  | none => simp [EINVAL]
  | some cmpnt =>
    have hid := toInt_le_iff (b := MAX_COMPONENT_ID) (by decide) mem cmpnt
    have hver := toInt_le_iff (b := MAX_COMPONENT_VERSION) (by decide) mem (cmpnt + 8)
    simp only [val_map, val_readU32, all_map, fits_readU32, implies_true, true_and, and_true, hid, hver]
    exact fun hid hver => hsecond ⟨cmpnt, hget, hid, hver⟩

theorem fits_parseModuleData (moduleData dmaAddr metadata metadataSize : Nat)
    (hsize : extnSize ≤ metadataSize) (hle : metadataSize < 2 ^ 32)
    (hdir : PKG_DIR_SIZE + metadataSize ≤ size) :
    All (Access.Fits size)
      (ipu6CpdParseModuleData mem moduleData dmaAddr metadata metadataSize) := by
  have hpkg : PKG_DIR_SIZE = 256 := rfl
  simp only [ipu6CpdParseModuleData, all_bind, all_emit, fits_u64, all_forErr, Nat.zero_add, fits_readU8,
    fits_readU32, val_parseEnt, true_and]
  refine ⟨by omega, by omega, fun i _ hbefore => ?_⟩
  have hroom := (accepted_count hsize hle hbefore).2
  unfold extnSize cpdMetadataCmpntSize at hroom
  refine fits_parseEnt _ _ _ _ _ i (by omega) fun hi => ?_
  omega

/-- A component needs 16 bytes in the directory and 68 in the metadata, so every write is
inside the directory, whether the call succeeds or fails. -/
theorem pkg_dir_writes_fit (hok : (ipu6CpdValidateCpdFile mem size).val = 0) (dmaAddrSrc : Nat)
    (alloc : Bool) :
    pkgDirSize mem = 256 + entLen mem 0 MANIFEST_IDX + entLen mem 0 METADATA_IDX ∧
      All (Access.Fits (pkgDirSize mem)) (ipu6CpdCreatePkgDir mem dmaAddrSrc alloc) := by
  obtain ⟨-, hman, hmet, -⟩ := (val_validateCpdFile mem size).mp hok
  obtain ⟨hextn, hmax⟩ := hmet.bound
  have hpkg : PKG_DIR_SIZE = 256 := rfl
  have hsum : pkgDirSize mem = 256 + entLen mem 0 MANIFEST_IDX + entLen mem 0 METADATA_IDX := by
    unfold pkgDirSize
    unfold MAX_MANIFEST_SIZE at hman
    unfold MAX_METADATA_SIZE at hmax
    rw [hpkg]
    omega
  refine ⟨hsum, ?_⟩
  have hfits : PKG_DIR_SIZE + entLen mem 0 METADATA_IDX ≤ pkgDirSize mem := by omega
  have hparse : ∀ moduleData dmaAddr metadata, All (Access.Fits (pkgDirSize mem))
      (ipu6CpdParseModuleData mem moduleData dmaAddr metadata (entLen mem 0 METADATA_IDX)) :=
    fun moduleData dmaAddr metadata =>
    fits_parseModuleData moduleData dmaAddr metadata (entLen mem 0 METADATA_IDX) hextn (u32_lt mem _) hfits
  have hcopy : ∀ addr src len, addr + len ≤ pkgDirSize mem →
      All (Access.Fits (pkgDirSize mem)) (copyOut mem addr src len) := by
    intro addr src len hle
    simpa [copyOut, Access.Fits] using hle
  have hpos : 8 * (PKG_DIR_ENT_LEN * MAX_PKG_DIR_ENT_CNT) = 256 := rfl
  simp only [ipu6CpdCreatePkgDir, ipu6CpdGetEntry, all_bind, all_ite, all_pure, all_emit, val_bind, val_pure,
    readEntOffset, readEntLen, fits_readU8, fits_readU32, fits_read, hpos, implies_true, true_and,
    and_true]
  have hmanFits : 256 + entLen mem 0 MANIFEST_IDX ≤ pkgDirSize mem := by omega
  have hmetFits : 256 + entLen mem 0 MANIFEST_IDX + entLen mem 0 METADATA_IDX ≤ pkgDirSize mem := by omega
  exact fun _ => ⟨hparse _ _ _, fun _ => ⟨hcopy _ _ _ hmanFits, hcopy _ _ _ hmetFits⟩⟩

end

/-- A file of `364 + 2 ^ 24 * b` bytes with a manifest of 4 bytes and two components, of 16
and of `16 + 2 ^ 24 * b` bytes. -/
def twoComponents (b : UInt8) : Mem := fun a =>
  ([(0, 0x24), (1, 0x43), (2, 0x50), (3, 0x44), (4, 3), (10, 16),
    (28, 88), (32, 4), (52, 92), (56, 164), (77, 1), (80, 108), (83, b),
    (92, 0x10), (100, 2), (120, 1), (128, 2), (188, 2), (196, 3),
    (256, 44), (304, 2), (310, 16), (332, 16), (352, 16), (356, 16), (359, b)].lookup a).getD 0

theorem pkg_dir_writes_fit_two :
    pkgDirSize (twoComponents 0) =
        256 + entLen (twoComponents 0) 0 MANIFEST_IDX + entLen (twoComponents 0) 0 METADATA_IDX ∧
      All (Access.Fits (pkgDirSize (twoComponents 0))) (ipu6CpdCreatePkgDir (twoComponents 0) 0x1000 true) :=
  pkg_dir_writes_fit (by decide +kernel : (ipu6CpdValidateCpdFile (twoComponents 0) 364).val = 0) 0x1000 true

-- ---------------------------------------------------------------------------
-- What the directory says
-- ---------------------------------------------------------------------------

def store (dir : Mem) : Access → Mem
  | .read _ _ => dir
  | .write addr bytes => fun x =>
    if addr ≤ x ∧ x < addr + bytes.length then bytes.getD (x - addr) 0 else dir x

def stored (dir : Mem) (m : Logged Access α) : Mem := m.log.foldl store dir

def u64 (dir : Mem) (addr : Nat) : Nat := u32 dir addr + 2 ^ 32 * u32 dir (addr + 4)

/-- An entry as the layout at the top of `ipu6-cpd.c` describes it. -/
structure PkgDirEnt where
  addr : Nat
  size : Nat
  version : Nat
  type : Nat
  deriving DecidableEq, Repr

def decodeEnt (dir : Mem) (p : Nat) : PkgDirEnt where
  addr := u64 dir p
  size := u64 dir (p + 8) % 2 ^ 24
  version := u64 dir (p + 8) / 2 ^ 32 % 2 ^ 16
  type := u64 dir (p + 8) / 2 ^ 48 % 2 ^ 7

/-- What the file says of component `i`. -/
def component (mem : Mem) (dmaAddrSrc i : Nat) : PkgDirEnt :=
  let moduledata := entOffset mem 0 MODULEDATA_IDX
  let dir := moduleDir mem moduledata
  let cmpnt := entOffset mem 0 METADATA_IDX + extnSize + i * cpdMetadataCmpntSize
  { addr := ((dmaAddrSrc + moduledata) % 2 ^ 64 + entOffset mem dir i) % 2 ^ 64
    size := entLen mem dir i
    version := u32 mem (cmpnt + 8)
    type := u32 mem cmpnt }

def componentCnt (mem : Mem) : Nat := entCnt mem (moduleDir mem (entOffset mem 0 MODULEDATA_IDX))

/-- The directory has an entry for every component, and the copies. -/
structure Encodes (mem dir : Mem) (dmaAddrSrc : Nat) : Prop where
  count : u64 dir 8 = componentCnt mem + 1
  entries : ∀ i < componentCnt mem, decodeEnt dir (16 * (1 + i)) = component mem dmaAddrSrc i
  manifest : bytesAt dir 256 (entLen mem 0 MANIFEST_IDX) =
    bytesAt mem (entOffset mem 0 MANIFEST_IDX) (entLen mem 0 MANIFEST_IDX)
  metadata : bytesAt dir (256 + entLen mem 0 MANIFEST_IDX) (entLen mem 0 METADATA_IDX) =
    bytesAt mem (entOffset mem 0 METADATA_IDX) (entLen mem 0 METADATA_IDX)

section
variable {mem dir : Mem}

-- Reading back

theorem u64_congr {dir' : Mem} (h : ∀ k < 8, dir' (a' + k) = dir (a + k)) : u64 dir' a' = u64 dir a := by
  have hbyte : ∀ k < 8, u8 dir' (a' + k) = u8 dir (a + k) := fun k hk => congrArg UInt8.toNat (h k hk)
  have h0 := hbyte 0 (by decide)
  have h1 := hbyte 1 (by decide)
  have h2 := hbyte 2 (by decide)
  have h3 := hbyte 3 (by decide)
  have h4 := hbyte 4 (by decide)
  have h5 := hbyte 5 (by decide)
  have h6 := hbyte 6 (by decide)
  have h7 := hbyte 7 (by decide)
  rw [Nat.add_zero, Nat.add_zero] at h0
  simp only [u64, u32, Nat.add_assoc, h0, h1, h2, h3, h4, h5, h6, h7]

theorem decodeEnt_congr {dir' : Mem} (h : ∀ k < 16, dir' (a' + k) = dir (a + k)) :
    decodeEnt dir' a' = decodeEnt dir a := by
  have haddr : u64 dir' a' = u64 dir a := u64_congr fun k hk => h k (by omega)
  have hfields : u64 dir' (a' + 8) = u64 dir (a + 8) := u64_congr fun k hk => by
    rw [Nat.add_assoc, Nat.add_assoc]
    exact h (8 + k) (by omega)
  unfold decodeEnt
  rw [haddr, hfields]

theorem store_outside (dir : Mem) (h : x < addr ∨ addr + bytes.length ≤ x) :
    store dir (.write addr bytes) x = dir x :=
  if_neg (by omega)

theorem store_inside (dir : Mem) (h : k < bytes.length) :
    store dir (.write addr bytes) (addr + k) = bytes.getD k 0 := by
  unfold store
  dsimp only
  rw [if_pos (by omega), Nat.add_sub_cancel_left]

theorem u64_store (dir : Mem) (addr : Nat) (hv : v < 2 ^ 64) :
    u64 (store dir (.write addr (u64Bytes v))) addr = v := by
  have hbyte : ∀ k < 8, u8 (store dir (.write addr (u64Bytes v))) (addr + k) = v / 2 ^ (8 * k) % 256 := by
    intro k hk
    unfold u8
    rw [store_inside dir (by simpa using hk), List.getD_eq_getElem _ _ (by simpa using hk)]
    simp [u64Bytes]
  have h0 := hbyte 0 (by decide)
  have h1 := hbyte 1 (by decide)
  have h2 := hbyte 2 (by decide)
  have h3 := hbyte 3 (by decide)
  have h4 := hbyte 4 (by decide)
  have h5 := hbyte 5 (by decide)
  have h6 := hbyte 6 (by decide)
  have h7 := hbyte 7 (by decide)
  rw [Nat.add_zero] at h0
  simp only [u64, u32, Nat.add_assoc, h0, h1, h2, h3, h4, h5, h6, h7]
  omega

theorem u64_store_of_ne (dir : Mem) (h : a + 8 ≤ addr ∨ addr + bytes.length ≤ a) :
    u64 (store dir (.write addr bytes)) a = u64 dir a :=
  u64_congr fun k hk => store_outside dir (by omega)

theorem fieldPrep_eq (len id ver : Nat) :
    fieldPrep len id ver = len % 2 ^ 24 + 2 ^ 32 * (ver % 2 ^ 16) + 2 ^ 48 * (id % 2 ^ 7) := by
  have hlow : 2 ^ 32 * (ver % 2 ^ 16) + len % 2 ^ 24 = 2 ^ 32 * (ver % 2 ^ 16) ||| len % 2 ^ 24 :=
    Nat.two_pow_add_eq_or_of_lt (by omega) _
  have hhigh : 2 ^ 48 * (id % 2 ^ 7) + (2 ^ 32 * (ver % 2 ^ 16) + len % 2 ^ 24) =
      2 ^ 48 * (id % 2 ^ 7) ||| (2 ^ 32 * (ver % 2 ^ 16) + len % 2 ^ 24) :=
    Nat.two_pow_add_eq_or_of_lt (by omega) _
  calc fieldPrep len id ver
      = 2 ^ 48 * (id % 2 ^ 7) ||| (2 ^ 32 * (ver % 2 ^ 16) ||| len % 2 ^ 24) := by
        unfold fieldPrep
        rw [Nat.mul_comm (id % 2 ^ 7), Nat.mul_comm (ver % 2 ^ 16), Nat.or_comm (len % 2 ^ 24), Nat.or_assoc,
          Nat.or_comm (len % 2 ^ 24)]
    _ = len % 2 ^ 24 + 2 ^ 32 * (ver % 2 ^ 16) + 2 ^ 48 * (id % 2 ^ 7) := by
        rw [← hlow, ← hhigh]
        omega

-- What each function stores

section
variable {α β : Type} {m : Logged Access α} {f : α → Logged Access β}

@[simp] theorem stored_pure (a : α) : stored dir (pure a : Logged Access α) = dir := rfl

@[simp] theorem stored_bind : stored dir (m >>= f) = stored (stored dir m) (f m.val) := List.foldl_append

@[simp] theorem stored_map (g : α → β) : stored dir (g <$> m) = stored dir m := by
  unfold stored
  rw [log_map]

@[simp] theorem stored_emit (e : Access) : stored dir (emit e) = store dir e := rfl

end

@[simp] theorem store_read (addr len : Nat) : store dir (.read addr len) = dir := rfl

@[simp] theorem stored_readU8 (addr : Nat) : stored dir (readU8 mem addr) = dir := rfl

@[simp] theorem stored_readU32 (addr : Nat) : stored dir (readU32 mem addr) = dir := rfl

@[simp] theorem stored_copyOut (dst src len : Nat) :
    stored dir (copyOut mem dst src len) = store dir (.write dst (bytesAt mem src len)) := rfl

theorem stored_forErr {body : Nat → Logged Access Int} (h : ∀ k < n, (body k).val = 0) :
    stored dir (forErr body n 0) = (List.range n).foldl (fun dir k => stored dir (body k)) dir := by
  unfold stored
  rw [log_forErr n 0 (by simpa using h), List.foldl_flatMap]
  simp only [Nat.zero_add]

theorem toNat_toInt (h : v < 2 ^ 31) : (toInt v).toNat = v := by
  unfold toInt
  rw [if_pos h]
  exact Int.toNat_natCast v

/-- The entry of component `i`, as it is written: with its length cut. -/
def storeEnt (mem : Mem) (dmaAddrSrc : Nat) (dir : Mem) (i : Nat) : Mem :=
  let c := component mem dmaAddrSrc i
  store (store dir (.write (16 * (1 + i)) (u64Bytes c.addr)))
    (.write (16 * (1 + i) + 8) (u64Bytes (fieldPrep c.size c.type c.version)))

theorem accepted_component (hi : i < 2 ^ 8)
    (h : ComponentAccepted mem metadata metadataSize i) :
    let cmpnt := metadata + extnSize + i * cpdMetadataCmpntSize
    ipu6CpdMetadataGetCmpnt metadata metadataSize i = some cmpnt ∧
      u32 mem cmpnt ≤ MAX_COMPONENT_ID ∧ u32 mem (cmpnt + 8) ≤ MAX_COMPONENT_VERSION := by
  obtain ⟨cmpnt, hget, hid, hver⟩ := h
  have heq := hget
  unfold ipu6CpdMetadataGetCmpnt at heq
  dsimp only at heq
  rw [Nat.mod_eq_of_lt hi] at heq
  split at heq
  · cases heq
  · obtain rfl := Option.some.inj heq
    exact ⟨hget, hid, hver⟩

theorem stored_parseEnt (dmaAddrSrc : Nat) (hi : i < 2 ^ 8)
    (h : ComponentAccepted mem (entOffset mem 0 METADATA_IDX) (entLen mem 0 METADATA_IDX) i) :
    let moduledata := entOffset mem 0 MODULEDATA_IDX
    stored dir (parseEnt mem (moduleDir mem moduledata) (hdrLen mem (moduleDir mem moduledata))
      ((dmaAddrSrc + moduledata) % 2 ^ 64) (entOffset mem 0 METADATA_IDX)
      (entLen mem 0 METADATA_IDX) i) = storeEnt mem dmaAddrSrc dir i := by
  obtain ⟨hget, hid, hver⟩ := accepted_component hi h
  have hidOk := (toInt_le_iff (by decide) mem _).mpr hid
  have hverOk := (toInt_le_iff (by decide) mem _).mpr hver
  have hp : 8 * (PKG_DIR_ENT_LEN * (1 + i)) = 16 * (1 + i) := by
    unfold PKG_DIR_ENT_LEN
    omega
  simp only [parseEnt, ipu6CpdMetadataGetCmpntId, ipu6CpdMetadataCmpntVersion, hget, hp, stored_bind,
    val_map, val_readU32, if_neg hidOk, if_neg hverOk, stored_map, stored_emit, stored_pure, readEntOffset,
    readEntLen, stored_readU32, toNat_toInt (Nat.lt_of_le_of_lt hid (by decide)),
    toNat_toInt (Nat.lt_of_le_of_lt hver (by decide))]
  rfl

theorem storeEnt_outside (h : x < 16 * (1 + i) ∨ 16 * (1 + i) + 16 ≤ x) :
    storeEnt mem dmaAddrSrc dir i x = dir x := by
  have hlen := length_u64Bytes
  unfold storeEnt
  rw [store_outside _ (by rw [hlen]; omega), store_outside _ (by rw [hlen]; omega)]

theorem decodeEnt_storeEnt (hid : (component mem dmaAddrSrc i).type < 2 ^ 7)
    (hver : (component mem dmaAddrSrc i).version < 2 ^ 16) :
    decodeEnt (storeEnt mem dmaAddrSrc dir i) (16 * (1 + i)) =
      { component mem dmaAddrSrc i with size := (component mem dmaAddrSrc i).size % 2 ^ 24 } := by
  have haddr : (component mem dmaAddrSrc i).addr < 2 ^ 64 := Nat.mod_lt _ (by decide)
  unfold decodeEnt storeEnt
  generalize component mem dmaAddrSrc i = c at *
  have hword : fieldPrep c.size c.type c.version < 2 ^ 64 := by
    rw [fieldPrep_eq]
    omega
  dsimp only
  rw [u64_store _ _ hword, u64_store_of_ne _ (by omega), u64_store _ _ haddr, fieldPrep_eq]
  congr 1 <;> omega

theorem decodeEnt_rounds (dir : Mem) (n : Nat) (hid : ∀ i < n, (component mem dmaAddrSrc i).type < 2 ^ 7)
    (hver : ∀ i < n, (component mem dmaAddrSrc i).version < 2 ^ 16) :
    (∀ i < n, decodeEnt ((List.range n).foldl (storeEnt mem dmaAddrSrc) dir) (16 * (1 + i)) =
      { component mem dmaAddrSrc i with size := (component mem dmaAddrSrc i).size % 2 ^ 24 }) ∧
    ∀ x < 16, (List.range n).foldl (storeEnt mem dmaAddrSrc) dir x = dir x := by
  induction n with
  | zero => exact ⟨nofun, fun _ _ => rfl⟩
  | succ n ih =>
    obtain ⟨hents, hlow⟩ := ih (fun i hi => hid i (by omega)) fun i hi => hver i (by omega)
    rw [List.range_succ, List.foldl_append, List.foldl_cons, List.foldl_nil]
    refine ⟨fun i hi => ?_, fun x hx => (storeEnt_outside (by omega)).trans (hlow x hx)⟩
    rcases Nat.lt_succ_iff_lt_or_eq.mp hi with hlt | rfl
    · rw [← hents i hlt]
      exact decodeEnt_congr fun k hk => storeEnt_outside (by omega)
    · exact decodeEnt_storeEnt (hid i hi) (hver i hi)

theorem val_createPkgDir (mem : Mem) (dmaAddrSrc : Nat) (alloc : Bool) :
    (ipu6CpdCreatePkgDir mem dmaAddrSrc alloc).val = 0 ↔ alloc = true ∧ ∀ i < componentCnt mem,
      ComponentAccepted mem (entOffset mem 0 METADATA_IDX) (entLen mem 0 METADATA_IDX) i := by
  cases alloc with
  | false =>
    have hne : ¬ -ENOMEM = 0 := by decide
    simp [ipu6CpdCreatePkgDir, hne]
  | true =>
    simp only [ipu6CpdCreatePkgDir, ipu6CpdGetEntry, val_bind, val_ite, val_pure, reduceCtorEq, if_false,
      passed_eq_zero, val_parseModuleData, true_and, and_true]
    exact Iff.rfl

/-- The manifest and the metadata in a row, as they are copied. -/
def copies (mem : Mem) : Mem := fun x =>
  if x < entLen mem 0 MANIFEST_IDX then mem (entOffset mem 0 MANIFEST_IDX + x)
  else mem (entOffset mem 0 METADATA_IDX + (x - entLen mem 0 MANIFEST_IDX))

def finished (mem : Mem) (dmaAddrSrc : Nat) (dir : Mem) : Mem :=
  let dir := store dir (.write 0 (u64Bytes PKG_DIR_HDR_MARK))
  let dir := store dir (.write 8 (u64Bytes ((componentCnt mem + 1) % 2 ^ 32)))
  let dir := (List.range (componentCnt mem)).foldl (storeEnt mem dmaAddrSrc) dir
  let dir := store dir (.write 256
    (bytesAt mem (entOffset mem 0 MANIFEST_IDX) (entLen mem 0 MANIFEST_IDX)))
  store dir (.write (256 + entLen mem 0 MANIFEST_IDX)
    (bytesAt mem (entOffset mem 0 METADATA_IDX) (entLen mem 0 METADATA_IDX)))

theorem stored_parseModuleData (dir : Mem) (dmaAddrSrc : Nat) (hcnt : componentCnt mem ≤ 2 ^ 8)
    (h : ∀ i < componentCnt mem,
      ComponentAccepted mem (entOffset mem 0 METADATA_IDX) (entLen mem 0 METADATA_IDX) i) :
    stored dir (ipu6CpdParseModuleData mem (entOffset mem 0 MODULEDATA_IDX)
        ((dmaAddrSrc + entOffset mem 0 MODULEDATA_IDX) % 2 ^ 64) (entOffset mem 0 METADATA_IDX)
        (entLen mem 0 METADATA_IDX)) =
      (List.range (componentCnt mem)).foldl (storeEnt mem dmaAddrSrc)
        (store (store dir (.write 0 (u64Bytes PKG_DIR_HDR_MARK)))
          (.write 8 (u64Bytes ((componentCnt mem + 1) % 2 ^ 32)))) := by
  simp only [ipu6CpdParseModuleData, stored_bind, stored_readU32, stored_readU8, stored_emit]
  refine (stored_forErr fun i hi => (val_parseEnt _ _ _ _ _ i).mpr (h i hi)).trans ?_
  refine List.foldl_ext _ _ _ fun dir i hi => ?_
  have hlt := List.mem_range.mp hi
  exact stored_parseEnt dmaAddrSrc (Nat.lt_of_lt_of_le hlt hcnt) (h i hlt)

theorem stored_createPkgDir (dmaAddrSrc : Nat) (hcnt : componentCnt mem ≤ 2 ^ 8)
    (h : ∀ i < componentCnt mem,
      ComponentAccepted mem (entOffset mem 0 METADATA_IDX) (entLen mem 0 METADATA_IDX) i) :
    stored dir (ipu6CpdCreatePkgDir mem dmaAddrSrc true) = finished mem dmaAddrSrc dir := by
  have hparse := (val_parseModuleData (entOffset mem 0 MODULEDATA_IDX)
    ((dmaAddrSrc + entOffset mem 0 MODULEDATA_IDX) % 2 ^ 64) (entOffset mem 0 METADATA_IDX)
    (entLen mem 0 METADATA_IDX)).mpr h
  have hstored := stored_parseModuleData dir dmaAddrSrc hcnt h
  simp only [ipu6CpdCreatePkgDir, ipu6CpdGetEntry, readEntOffset, readEntLen, stored_bind, stored_pure,
    stored_readU8, stored_readU32, stored_emit, store_read, val_bind, val_pure, reduceCtorEq, if_false]
  change stored (stored dir (ipu6CpdParseModuleData mem (entOffset mem 0 MODULEDATA_IDX)
    ((dmaAddrSrc + entOffset mem 0 MODULEDATA_IDX) % 2 ^ 64) (entOffset mem 0 METADATA_IDX)
    (entLen mem 0 METADATA_IDX))) (if (ipu6CpdParseModuleData mem (entOffset mem 0 MODULEDATA_IDX)
    ((dmaAddrSrc + entOffset mem 0 MODULEDATA_IDX) % 2 ^ 64) (entOffset mem 0 METADATA_IDX)
    (entLen mem 0 METADATA_IDX)).val ≠ 0 then _ else _) = _
  rw [if_neg (not_not.mpr hparse), hstored]
  rfl

theorem component_bounds (dmaAddrSrc : Nat) (hcnt : componentCnt mem ≤ 2 ^ 8) (hi : i < componentCnt mem)
    (h : ComponentAccepted mem (entOffset mem 0 METADATA_IDX) (entLen mem 0 METADATA_IDX) i) :
    (component mem dmaAddrSrc i).type < 2 ^ 7 ∧ (component mem dmaAddrSrc i).version < 2 ^ 16 := by
  obtain ⟨-, hid, hver⟩ := accepted_component (Nat.lt_of_lt_of_le hi hcnt) h
  exact ⟨Nat.lt_of_le_of_lt hid (by decide), Nat.lt_of_le_of_lt hver (by decide)⟩

-- ---------------------------------------------------------------------------
-- When it says the right thing
-- ---------------------------------------------------------------------------

theorem getD_bytesAt (mem : Mem) (addr : Nat) (h : k < len) :
    (bytesAt mem addr len).getD k 0 = mem (addr + k) := by
  rw [List.getD_eq_getElem _ _ (by simpa using h)]
  simp [bytesAt]

theorem finished_below (hx : x < 256) : finished mem dmaAddrSrc dir x =
    (List.range (componentCnt mem)).foldl (storeEnt mem dmaAddrSrc)
      (store (store dir (.write 0 (u64Bytes PKG_DIR_HDR_MARK)))
        (.write 8 (u64Bytes ((componentCnt mem + 1) % 2 ^ 32)))) x := by
  unfold finished
  rw [store_outside _ (.inl (by omega)), store_outside _ (.inl hx)]

theorem finished_copies (hx : x < entLen mem 0 MANIFEST_IDX + entLen mem 0 METADATA_IDX) :
    finished mem dmaAddrSrc dir (256 + x) = copies mem x := by
  unfold finished copies
  by_cases hman : x < entLen mem 0 MANIFEST_IDX
  · rw [if_pos hman, store_outside _ (.inl (by omega)), store_inside _ (by simpa using hman),
      getD_bytesAt _ _ hman]
  · obtain ⟨k, rfl⟩ := Nat.exists_eq_add_of_le (Nat.le_of_not_lt hman)
    have hk : k < entLen mem 0 METADATA_IDX := by omega
    rw [if_neg hman, ← Nat.add_assoc, store_inside _ (by simpa using hk), getD_bytesAt _ _ hk,
      Nat.add_sub_cancel_left]

theorem bytesAt_congr {mem' : Mem} (h : ∀ k < len, mem' (a' + k) = mem (a + k)) :
    bytesAt mem' a' len = bytesAt mem a len :=
  List.map_congr_left fun k hk => h k (List.mem_range.mp hk)

/-- What becomes of entry `i`: its length is cut, or the copies are in its place. -/
def EntryKept (mem : Mem) (dmaAddrSrc i : Nat) : Prop :=
  if i + 1 < MAX_PKG_DIR_ENT_CNT then (component mem dmaAddrSrc i).size < 2 ^ 24
  else decodeEnt (copies mem) (16 * (1 + i) - 256) = component mem dmaAddrSrc i

instance (mem : Mem) (dmaAddrSrc i : Nat) : Decidable (EntryKept mem dmaAddrSrc i) :=
  inferInstanceAs (Decidable (if i + 1 < MAX_PKG_DIR_ENT_CNT then _ < 2 ^ 24 else _ = component mem dmaAddrSrc i))

theorem entry_finished_iff (hcnt : componentCnt mem ≤ 2 ^ 8)
    (h : ∀ i < componentCnt mem,
      ComponentAccepted mem (entOffset mem 0 METADATA_IDX) (entLen mem 0 METADATA_IDX) i)
    (hroom : extnSize + componentCnt mem * cpdMetadataCmpntSize ≤ entLen mem 0 METADATA_IDX)
    (hi : i < componentCnt mem) :
    decodeEnt (finished mem dmaAddrSrc dir) (16 * (1 + i)) = component mem dmaAddrSrc i ↔
      EntryKept mem dmaAddrSrc i := by
  unfold EntryKept MAX_PKG_DIR_ENT_CNT
  split
  next hlow =>
    have hbelow : decodeEnt (finished mem dmaAddrSrc dir) (16 * (1 + i)) =
        { component mem dmaAddrSrc i with size := (component mem dmaAddrSrc i).size % 2 ^ 24 } := by
      have hround := (decodeEnt_rounds (store (store dir (.write 0 (u64Bytes PKG_DIR_HDR_MARK)))
          (.write 8 (u64Bytes ((componentCnt mem + 1) % 2 ^ 32)))) (componentCnt mem)
        (fun j hj => (component_bounds dmaAddrSrc hcnt hj (h j hj)).1)
        (fun j hj => (component_bounds dmaAddrSrc hcnt hj (h j hj)).2)).1 i hi
      rw [← hround]
      exact decodeEnt_congr fun k hk => finished_below (by omega)
    rw [hbelow]
    generalize component mem dmaAddrSrc i = c
    constructor
    · intro heq
      have hsize := congrArg PkgDirEnt.size heq
      dsimp only at hsize
      omega
    · intro hlt
      rw [Nat.mod_eq_of_lt hlt]
  next hhigh =>
    unfold extnSize cpdMetadataCmpntSize at hroom
    have hcopy : decodeEnt (finished mem dmaAddrSrc dir) (16 * (1 + i)) =
        decodeEnt (copies mem) (16 * (1 + i) - 256) := by
      refine decodeEnt_congr fun k hk => ?_
      have haddr : 16 * (1 + i) + k = 256 + (16 * (1 + i) - 256 + k) := by omega
      rw [haddr]
      exact finished_copies (by omega)
    rw [hcopy]

/-- The finished directory encodes every component if and only if each of the first 15 is
shorter than 16 MiB and the others are, by chance, what the manifest and the metadata
spell in their place. -/
theorem pkg_dir_encodes_iff (hok : (ipu6CpdValidateCpdFile mem size).val = 0)
    (hcreate : (ipu6CpdCreatePkgDir mem dmaAddrSrc alloc).val = 0) (dir : Mem) :
    Encodes mem (stored dir (ipu6CpdCreatePkgDir mem dmaAddrSrc alloc)) dmaAddrSrc ↔
      ∀ i < componentCnt mem, EntryKept mem dmaAddrSrc i := by
  obtain ⟨-, -, hmet, -⟩ := (val_validateCpdFile mem size).mp hok
  obtain ⟨rfl, hall⟩ := (val_createPkgDir mem dmaAddrSrc alloc).mp hcreate
  obtain ⟨hmax, hroom⟩ := accepted_count hmet.bound.1 (u32_lt mem _) hall
  have hcnt : componentCnt mem ≤ 2 ^ 8 := Nat.le_trans hmax (by decide)
  rw [stored_createPkgDir dmaAddrSrc hcnt hall]
  have hentry : ∀ i, i < componentCnt mem → (decodeEnt (finished mem dmaAddrSrc dir) (16 * (1 + i)) =
      component mem dmaAddrSrc i ↔ EntryKept mem dmaAddrSrc i) := fun i hi =>
    entry_finished_iff hcnt hall hroom hi
  constructor
  · exact fun h i hi => (hentry i hi).mp (h.entries i hi)
  · intro h
    refine ⟨?_, fun i hi => (hentry i hi).mpr (h i hi), ?_, ?_⟩
    · have hlow := (decodeEnt_rounds (store (store dir (.write 0 (u64Bytes PKG_DIR_HDR_MARK)))
          (.write 8 (u64Bytes ((componentCnt mem + 1) % 2 ^ 32)))) (componentCnt mem)
        (fun j hj => (component_bounds dmaAddrSrc hcnt hj (hall j hj)).1)
        (fun j hj => (component_bounds dmaAddrSrc hcnt hj (hall j hj)).2)).2
      have hsame : u64 (finished mem dmaAddrSrc dir) 8 = (componentCnt mem + 1) % 2 ^ 32 := by
        rw [← u64_store (store dir (.write 0 (u64Bytes PKG_DIR_HDR_MARK))) 8
          (v := (componentCnt mem + 1) % 2 ^ 32) (by omega)]
        exact u64_congr fun k hk => (finished_below (by omega)).trans (hlow _ (by omega))
      rw [hsame]
      omega
    · refine bytesAt_congr fun k hk => (finished_copies (by omega)).trans ?_
      exact if_pos hk
    · refine bytesAt_congr fun k hk => ?_
      rw [Nat.add_assoc, finished_copies (by omega)]
      unfold copies
      rw [if_neg (by omega), Nat.add_sub_cancel_left]

end

theorem pkg_dir_encodes_two :
    Encodes (twoComponents 0) (stored (fun _ => 0) (ipu6CpdCreatePkgDir (twoComponents 0) 0x1000 true))
      0x1000 :=
  (pkg_dir_encodes_iff (by decide +kernel : (ipu6CpdValidateCpdFile (twoComponents 0) 364).val = 0)
    (by decide +kernel) _).mpr (by decide +kernel)

/-- The length of the second component is `2 ^ 24 + 16`, and the directory says 16. -/
theorem pkg_dir_cuts_length :
    ¬ ∀ mem size dmaAddrSrc alloc dir, (ipu6CpdValidateCpdFile mem size).val = 0 →
      (ipu6CpdCreatePkgDir mem dmaAddrSrc alloc).val = 0 →
        Encodes mem (stored dir (ipu6CpdCreatePkgDir mem dmaAddrSrc alloc)) dmaAddrSrc := by
  intro h
  have henc := h (twoComponents 1) (364 + 2 ^ 24) 0x1000 true (fun _ => 0) (by decide +kernel)
    (by decide +kernel)
  have hentry := henc.entries 1 (by decide +kernel)
  revert hentry
  decide +kernel

end Ipu4.Cpd
