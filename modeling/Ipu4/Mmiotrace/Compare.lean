import Mathlib.Data.Finset.Sort
import Ipu4.Lib.Dict
import Ipu4.Lib.Text

/-!
# Comparing two traces

`compare.py` groups the accesses of two traces by address and kind and reports three
lists: addresses that only silicon touched, addresses read with other values, and
addresses that only QEMU touched. The first and the last ask whether an address was
touched at all, the second whether it was read. An address that silicon reads and
QEMU only writes is in none of them.
-/

namespace Ipu4.Mmiotrace

-- ---------------------------------------------------------------------------
-- Records and buckets
-- ---------------------------------------------------------------------------

inductive Op
  | R | W
  deriving DecidableEq, Repr

/-- What is known of an address. -/
structure Desc where
  region : Option Text
  regName : Option Text
  offset : Option Nat
  deriving DecidableEq, Repr

/-- A line of `postprocess_trace.py --json`. -/
structure Rec where
  address : Nat
  op : Op
  value : Nat
  desc : Desc
  deriving DecidableEq, Repr

structure Bucket where
  address : Nat
  op : Op
  desc : Desc
  count : Nat
  values : Finset Nat
  deriving DecidableEq

def bucketRecords (records : List Rec) : List ((Nat × Op) × Bucket) :=
  Dict.collect (fun r => (r.address, r.op)) (fun r => ⟨r.address, r.op, r.desc, 0, ∅⟩)
    (fun r b => { b with count := b.count + 1, values := insert r.value b.values }) records

-- ---------------------------------------------------------------------------
-- The three lists
-- ---------------------------------------------------------------------------

structure Row where
  address : Nat
  desc : Desc
  reads : Nat
  writes : Nat
  deriving DecidableEq, Repr

structure Mismatch where
  address : Nat
  desc : Desc
  siliconValues : List Nat
  qemuValues : List Nat
  onlySilicon : List Nat
  onlyQemu : List Nat
  deriving DecidableEq, Repr

structure Diff where
  siliconTotal : Nat
  qemuTotal : Nat
  unimplemented : List Row
  valueMismatches : List Mismatch
  extraInQemu : List Row
  deriving DecidableEq, Repr

def Diff.isClean (d : Diff) : Bool := d.unimplemented.isEmpty && d.valueMismatches.isEmpty

def addresses (buckets : List ((Nat × Op) × Bucket)) : List Nat := buckets.map fun e => e.1.1

def Row.setCount (row : Row) (e : (Nat × Op) × Bucket) : Row :=
  match e.1.2 with
  | .R => { row with reads := e.2.count }
  | .W => { row with writes := e.2.count }

/-- The rows of the addresses that only the first trace touched, as they come. -/
def aggregate (mine others : List ((Nat × Op) × Bucket)) : List Row :=
  (Dict.collect (fun e => e.1.1) (fun e => ⟨e.1.1, e.2.desc, 0, 0⟩) (fun e row => row.setCount e)
    (mine.filter fun e => e.1.1 ∉ addresses others)).map Prod.snd

def Row.total (r : Row) : Nat := r.reads + r.writes

/-- A stable sort, most accesses first. -/
def sortRows (rows : List Row) : List Row := rows.insertionSort fun r r' => r'.total ≤ r.total

def Mismatch.of (address : Nat) (desc : Desc) (silicon qemu : Finset Nat) : Mismatch where
  address := address
  desc := desc
  siliconValues := silicon.sort
  qemuValues := qemu.sort
  onlySilicon := (silicon \ qemu).sort
  onlyQemu := (qemu \ silicon).sort

def mismatch (qemu : List ((Nat × Op) × Bucket)) (e : (Nat × Op) × Bucket) : Option Mismatch :=
  match e.1.2 with
  | .W => none
  | .R =>
    match Dict.get? qemu (e.1.1, .R) with
    | none => none
    | some qb =>
      if e.2.values = qb.values then none
      else some (.of e.1.1 e.2.desc e.2.values qb.values)

def diff (siliconRecords qemuRecords : List Rec) : Diff :=
  let silicon := bucketRecords siliconRecords
  let qemu := bucketRecords qemuRecords
  { siliconTotal := siliconRecords.length
    qemuTotal := qemuRecords.length
    unimplemented := sortRows (aggregate silicon qemu)
    valueMismatches := (silicon.filterMap (mismatch qemu)).insertionSort fun m m' =>
      m.address ≤ m'.address
    extraInQemu := sortRows (aggregate qemu silicon) }

-- ---------------------------------------------------------------------------
-- What a bucket holds
-- ---------------------------------------------------------------------------

/-- The accesses of one kind to an address. -/
def accesses (records : List Rec) (a : Nat) (op : Op) : List Rec :=
  records.filter fun r => (r.address, r.op) = (a, op)

def Touches (records : List Rec) (a : Nat) : Prop := ∃ r ∈ records, r.address = a

def Reads (records : List Rec) (a : Nat) : Prop := ∃ r ∈ records, r.address = a ∧ r.op = .R

def readValues (records : List Rec) (a : Nat) : Finset Nat :=
  ((accesses records a .R).map Rec.value).toFinset

section
variable {records : List Rec}

theorem foldl_bucket (l : List Rec) (b : Bucket) :
    l.foldl (fun b r => { b with count := b.count + 1, values := insert r.value b.values }) b =
      { b with count := b.count + l.length, values := b.values ∪ (l.map Rec.value).toFinset } := by
  induction l generalizing b with
  | nil => simp
  | cons r l ih =>
    rw [List.foldl_cons, ih]
    have hcount : b.count + 1 + l.length = b.count + (r :: l).length := by
      rw [List.length_cons]
      omega
    have hvalues : insert r.value b.values ∪ (l.map Rec.value).toFinset =
        b.values ∪ ((r :: l).map Rec.value).toFinset := by
      simp
    dsimp only
    rw [hcount, hvalues]

theorem mem_bucketRecords :
    ((a, op), b) ∈ bucketRecords records ↔
      ∃ r rs, accesses records a op = r :: rs ∧
        b = ⟨a, op, r.desc, (r :: rs).length, ((r :: rs).map Rec.value).toFinset⟩ := by
  unfold bucketRecords
  rw [Dict.mem_collect]
  unfold Dict.grouped accesses
  cases hf : records.filter fun r => (r.address, r.op) = (a, op) with
  | nil => simp
  | cons r rs =>
    have hr : r ∈ records.filter fun r => (r.address, r.op) = (a, op) := by
      rw [hf]
      exact List.mem_cons_self
    obtain ⟨haddr, hop⟩ := Prod.mk.inj (decide_eq_true_eq.mp (List.mem_filter.mp hr).2)
    dsimp only
    rw [foldl_bucket, haddr, hop]
    simp [eq_comm]

theorem mem_addresses : a ∈ addresses (bucketRecords records) ↔ Touches records a := by
  have hkeys : addresses (bucketRecords records) =
      ((bucketRecords records).map Prod.fst).map Prod.fst := by simp [addresses]
  rw [hkeys, List.mem_map]
  unfold bucketRecords
  constructor
  · rintro ⟨⟨a, op⟩, hmem, rfl⟩
    obtain ⟨r, hr, hkey⟩ := Dict.mem_keys_collect.mp hmem
    exact ⟨r, hr, congrArg Prod.fst hkey⟩
  · rintro ⟨r, hr, rfl⟩
    exact ⟨(r.address, r.op), Dict.mem_keys_collect.mpr ⟨r, hr, rfl⟩, rfl⟩

theorem accesses_ne_nil : accesses records a op ≠ [] ↔ ∃ r ∈ records, r.address = a ∧ r.op = op := by
  simp [accesses, List.filter_eq_nil_iff]

theorem readValues_eq_empty : readValues records a = ∅ ↔ ¬ Reads records a := by
  have hreads : Reads records a ↔ accesses records a .R ≠ [] := accesses_ne_nil.symm
  rw [hreads, not_not]
  simp [readValues]

theorem get?_reads :
    (Dict.get? (bucketRecords records) (a, .R)).map Bucket.values =
      if readValues records a = ∅ then none else some (readValues records a) := by
  cases hget : Dict.get? (bucketRecords records) (a, .R) with
  | some b =>
    obtain ⟨r, rs, hacc, rfl⟩ := mem_bucketRecords.mp ((Dict.get?_eq_some Dict.nodup_collect).mp hget)
    have hvalues : readValues records a = ((r :: rs).map Rec.value).toFinset := by
      rw [readValues, hacc]
    have hne : ((r :: rs).map Rec.value).toFinset ≠ ∅ := by simp
    rw [hvalues, if_neg hne]
    rfl
  | none =>
    cases hacc : accesses records a .R with
    | nil => simp [readValues, hacc]
    | cons r rs =>
      have hmem := mem_bucketRecords.mpr ⟨r, rs, hacc, rfl⟩
      cases hget.symm.trans ((Dict.get?_eq_some Dict.nodup_collect).mpr hmem)

end

-- ---------------------------------------------------------------------------
-- The rows of one side
-- ---------------------------------------------------------------------------

def Row.count (row : Row) : Op → Nat
  | .R => row.reads
  | .W => row.writes

theorem Row.count_setCount (row : Row) (e : (Nat × Op) × Bucket) (op : Op) :
    (row.setCount e).count op = if e.1.2 = op then e.2.count else row.count op := by
  obtain ⟨⟨a, op'⟩, b⟩ := e
  cases op' <;> cases op <;> rfl

theorem foldl_setCount_keeps (l : List ((Nat × Op) × Bucket)) (row : Row) :
    (l.foldl Row.setCount row).address = row.address ∧ (l.foldl Row.setCount row).desc = row.desc := by
  induction l generalizing row with
  | nil => exact ⟨rfl, rfl⟩
  | cons e l ih =>
    obtain ⟨⟨a, op⟩, b⟩ := e
    rw [List.foldl_cons]
    cases op with
    | R => exact ih { row with reads := b.count }
    | W => exact ih { row with writes := b.count }

theorem foldl_setCount_count (l : List ((Nat × Op) × Bucket)) (hnodup : (l.map Prod.fst).Nodup)
    (haddr : ∀ e ∈ l, e.1.1 = a) (row : Row) (op : Op) :
    (l.foldl Row.setCount row).count op =
      ((Dict.get? l (a, op)).map Bucket.count).getD (row.count op) := by
  induction l generalizing row with
  | nil => rfl
  | cons e l ih =>
    obtain ⟨⟨a', op'⟩, b⟩ := e
    obtain ⟨hnew, hl⟩ := List.nodup_cons.mp hnodup
    obtain ⟨ha, haddr⟩ := List.forall_mem_cons.mp haddr
    dsimp only at ha
    subst ha
    rw [List.foldl_cons, ih hl haddr, Row.count_setCount]
    by_cases hop : op' = op
    · subst hop
      have hnone : Dict.get? l (a', op') = none := by
        cases hget : Dict.get? l (a', op') with
        | none => rfl
        | some b' =>
          have hmem := (Dict.get?_eq_some hl).mp hget
          exact absurd (List.mem_map.mpr ⟨_, hmem, rfl⟩) hnew
      simp [hnone, Dict.get?_cons]
    · simp [hop, Dict.get?_cons]

section
variable {mine others : List Rec}

theorem nodup_filter_bucketRecords (p : (Nat × Op) × Bucket → Bool) :
    (((bucketRecords mine).filter p).map Prod.fst).Nodup :=
  List.Nodup.sublist (List.filter_sublist.map _) Dict.nodup_collect

theorem count_get?_filter (ha : ¬ Touches others a) (op : Op) :
    ((Dict.get? (((bucketRecords mine).filter fun e => e.1.1 ∉ addresses (bucketRecords others)).filter
        fun e => e.1.1 = a) (a, op)).map Bucket.count).getD 0 = (accesses mine a op).length := by
  have hnodup : (((bucketRecords mine).filter fun e =>
      decide (e.1.1 = a) && decide (e.1.1 ∉ addresses (bucketRecords others))).map Prod.fst).Nodup :=
    nodup_filter_bucketRecords _
  rw [List.filter_filter]
  cases hacc : accesses mine a op with
  | nil =>
    cases hget : Dict.get? ((bucketRecords mine).filter fun e =>
        decide (e.1.1 = a) && decide (e.1.1 ∉ addresses (bucketRecords others))) (a, op) with
    | none => rfl
    | some b =>
      have hmem := List.mem_of_mem_filter ((Dict.get?_eq_some hnodup).mp hget)
      obtain ⟨r, rs, hcons, -⟩ := mem_bucketRecords.mp hmem
      cases hacc.symm.trans hcons
  | cons r rs =>
    have hmem := mem_bucketRecords.mpr ⟨r, rs, hacc, rfl⟩
    have hin := (Dict.get?_eq_some hnodup).mpr
      (List.mem_filter.mpr ⟨hmem, by simpa [mem_addresses] using ha⟩)
    rw [hin]
    rfl

theorem mem_collect_rows {buckets : List ((Nat × Op) × Bucket)}
    (h : (k, row) ∈ Dict.collect (fun e => e.1.1) (fun e => (⟨e.1.1, e.2.desc, 0, 0⟩ : Row))
      (fun e row => row.setCount e) buckets) :
    ∃ e ∈ buckets, e.1.1 = k ∧
      row = (buckets.filter fun e => e.1.1 = k).foldl Row.setCount ⟨k, e.2.desc, 0, 0⟩ := by
  rw [Dict.mem_collect] at h
  unfold Dict.grouped at h
  cases hf : buckets.filter fun e => e.1.1 = k with
  | nil => simp [hf] at h
  | cons e es =>
    have he : e ∈ buckets.filter fun e => e.1.1 = k := by
      rw [hf]
      exact List.mem_cons_self
    obtain ⟨hin, hk⟩ := List.mem_filter.mp he
    obtain rfl : e.1.1 = k := of_decide_eq_true hk
    rw [hf] at h
    exact ⟨e, hin, rfl, (Option.some.inj h).symm⟩

theorem aggregate_row (h : row ∈ aggregate (bucketRecords mine) (bucketRecords others)) :
    ¬ Touches others row.address ∧
      (∃ r ∈ mine, r.address = row.address ∧ row.desc = r.desc) ∧
      ∀ op, row.count op = (accesses mine row.address op).length := by
  obtain ⟨⟨k, row⟩, hmem, rfl⟩ := List.mem_map.mp h
  obtain ⟨⟨⟨a, op⟩, b⟩, hin, ha, hrow⟩ := mem_collect_rows hmem
  dsimp only at ha hrow ⊢
  subst ha
  obtain ⟨hbucket, hin⟩ := List.mem_filter.mp hin
  have hother : ¬ Touches others a := by simpa [mem_addresses] using hin
  obtain ⟨r, rs, hacc, rfl⟩ := mem_bucketRecords.mp hbucket
  obtain ⟨haddr, hdesc⟩ := foldl_setCount_keeps
    ((((bucketRecords mine).filter fun e => e.1.1 ∉ addresses (bucketRecords others))).filter
      fun e => e.1.1 = a) ⟨a, r.desc, 0, 0⟩
  rw [← hrow] at haddr hdesc
  have hr : r ∈ accesses mine a op := by
    rw [hacc]
    exact List.mem_cons_self
  obtain ⟨hr, hkey⟩ := List.mem_filter.mp hr
  have hkey := of_decide_eq_true hkey
  rw [haddr]
  refine ⟨hother, ⟨r, hr, congrArg Prod.fst hkey, hdesc⟩, fun op' => ?_⟩
  have hzero : (⟨a, r.desc, 0, 0⟩ : Row).count op' = 0 := by cases op' <;> rfl
  rw [hrow, foldl_setCount_count _ ?_ ?_, hzero, count_get?_filter hother]
  · rw [List.filter_filter]
    exact nodup_filter_bucketRecords _
  · intro e he
    exact of_decide_eq_true (List.mem_filter.mp he).2

theorem address_aggregate (mine others : List ((Nat × Op) × Bucket)) :
    (aggregate mine others).map Row.address =
      (Dict.collect (fun e => e.1.1) (fun e => (⟨e.1.1, e.2.desc, 0, 0⟩ : Row))
        (fun e row => row.setCount e)
        (mine.filter fun e => e.1.1 ∉ addresses others)).map Prod.fst := by
  unfold aggregate
  rw [List.map_map]
  refine List.map_congr_left fun e he => ?_
  obtain ⟨k, row⟩ := e
  obtain ⟨e, -, -, rfl⟩ := mem_collect_rows he
  exact (foldl_setCount_keeps _ _).1

theorem nodup_aggregate (mine others : List ((Nat × Op) × Bucket)) :
    ((aggregate mine others).map Row.address).Nodup := by
  rw [address_aggregate]
  exact Dict.nodup_collect

theorem mem_address_aggregate :
    a ∈ (aggregate (bucketRecords mine) (bucketRecords others)).map Row.address ↔
      Touches mine a ∧ ¬ Touches others a := by
  rw [address_aggregate, Dict.mem_keys_collect, ← mem_addresses, ← mem_addresses]
  unfold addresses
  simp only [List.mem_filter, List.mem_map, decide_eq_true_eq]
  constructor
  · rintro ⟨e, ⟨he, hother⟩, rfl⟩
    exact ⟨⟨e, he, rfl⟩, hother⟩
  · rintro ⟨⟨e, he, rfl⟩, hother⟩
    exact ⟨e, ⟨he, hother⟩, rfl⟩

end

-- ---------------------------------------------------------------------------
-- The classification
-- ---------------------------------------------------------------------------

section
variable {silicon qemu : List Rec}

theorem mem_unimplemented :
    a ∈ (diff silicon qemu).unimplemented.map Row.address ↔
      Touches silicon a ∧ ¬ Touches qemu a := by
  have hperm := (List.perm_insertionSort (fun r r' : Row => r'.total ≤ r.total)
    (aggregate (bucketRecords silicon) (bucketRecords qemu))).map Row.address
  exact hperm.mem_iff.trans mem_address_aggregate

theorem mem_extraInQemu :
    a ∈ (diff silicon qemu).extraInQemu.map Row.address ↔
      Touches qemu a ∧ ¬ Touches silicon a := by
  have hperm := (List.perm_insertionSort (fun r r' : Row => r'.total ≤ r.total)
    (aggregate (bucketRecords qemu) (bucketRecords silicon))).map Row.address
  exact hperm.mem_iff.trans mem_address_aggregate

theorem mismatch_eq_some :
    mismatch (bucketRecords qemu) e = some m ↔
      e.1.2 = .R ∧ readValues qemu e.1.1 ≠ ∅ ∧ e.2.values ≠ readValues qemu e.1.1 ∧
        m = .of e.1.1 e.2.desc e.2.values (readValues qemu e.1.1) := by
  obtain ⟨⟨a, op⟩, b⟩ := e
  cases op with
  | W => simp [mismatch]
  | R =>
    have hget : (Dict.get? (bucketRecords qemu) (a, .R)).map Bucket.values = _ := get?_reads
    unfold mismatch
    dsimp only
    cases hq : Dict.get? (bucketRecords qemu) (a, .R) with
    | none =>
      have hempty : readValues qemu a = ∅ := by
        by_contra hne
        rw [hq, if_neg hne] at hget
        cases hget
      simp [hempty]
    | some qb =>
      have hne : readValues qemu a ≠ ∅ := by
        intro hempty
        rw [hq, if_pos hempty] at hget
        cases hget
      rw [hq, if_neg hne] at hget
      have hvalues : qb.values = readValues qemu a := Option.some.inj hget
      dsimp only
      rw [hvalues]
      split
      next heq => simp [heq]
      next hdiff => simp [hne, hdiff, eq_comm]

theorem values_of_mem (h : ((a, .R), b) ∈ bucketRecords records) :
    b.values = readValues records a ∧ readValues records a ≠ ∅ := by
  obtain ⟨r, rs, hacc, rfl⟩ := mem_bucketRecords.mp h
  rw [readValues, hacc]
  exact ⟨rfl, by simp⟩

theorem exists_bucket (h : readValues records a ≠ ∅) : ∃ b, ((a, .R), b) ∈ bucketRecords records := by
  cases hacc : accesses records a .R with
  | nil => simp [readValues, hacc] at h
  | cons r rs => exact ⟨_, mem_bucketRecords.mpr ⟨r, rs, hacc, rfl⟩⟩

theorem reads_iff : Reads records a ↔ readValues records a ≠ ∅ :=
  not_iff_not.mp (not_not.trans readValues_eq_empty).symm

theorem mem_mismatches :
    a ∈ ((bucketRecords silicon).filterMap (mismatch (bucketRecords qemu))).map Mismatch.address ↔
      Reads silicon a ∧ Reads qemu a ∧ readValues silicon a ≠ readValues qemu a := by
  rw [reads_iff, reads_iff]
  constructor
  · intro h
    obtain ⟨m, hm, rfl⟩ := List.mem_map.mp h
    obtain ⟨⟨⟨a, op⟩, b⟩, he, hsome⟩ := List.mem_filterMap.mp hm
    obtain ⟨rfl, hne, hdiff, rfl⟩ := mismatch_eq_some.mp hsome
    obtain ⟨hvalues, hsil⟩ := values_of_mem he
    exact ⟨hsil, hne, hvalues ▸ hdiff⟩
  · rintro ⟨hsil, hne, hdiff⟩
    obtain ⟨b, he⟩ := exists_bucket hsil
    have hvalues := (values_of_mem he).1
    have hsome := (mismatch_eq_some (e := ((a, .R), b))).mpr ⟨rfl, hne, hvalues ▸ hdiff, rfl⟩
    exact List.mem_map.mpr ⟨_, List.mem_filterMap.mpr ⟨_, he, hsome⟩, rfl⟩

theorem mem_valueMismatches :
    a ∈ (diff silicon qemu).valueMismatches.map Mismatch.address ↔
      Reads silicon a ∧ Reads qemu a ∧ readValues silicon a ≠ readValues qemu a := by
  have hperm := (List.perm_insertionSort (fun m m' : Mismatch => m.address ≤ m'.address)
    ((bucketRecords silicon).filterMap (mismatch (bucketRecords qemu)))).map Mismatch.address
  exact hperm.mem_iff.trans mem_mismatches

/-- The comparison misses nothing. -/
structure MissesNothing (silicon qemu : List Rec) : Prop where
  reads : ∀ a, Reads silicon a →
    Reads qemu a ∧ readValues silicon a = readValues qemu a ∨
      a ∈ (diff silicon qemu).unimplemented.map Row.address ∨
      a ∈ (diff silicon qemu).valueMismatches.map Mismatch.address
  writes : ∀ a, Touches silicon a → ¬ Reads silicon a → ¬ Touches qemu a →
    a ∈ (diff silicon qemu).unimplemented.map Row.address
  once : ((diff silicon qemu).unimplemented.map Row.address).Disjoint
      ((diff silicon qemu).valueMismatches.map Mismatch.address) ∧
    ((diff silicon qemu).unimplemented.map Row.address).Disjoint
      ((diff silicon qemu).extraInQemu.map Row.address) ∧
    ((diff silicon qemu).valueMismatches.map Mismatch.address).Disjoint
      ((diff silicon qemu).extraInQemu.map Row.address)
  clean : (diff silicon qemu).isClean = true ↔
    (∀ a, Reads silicon a → readValues silicon a = readValues qemu a) ∧
      ∀ a, Touches silicon a → Touches qemu a

theorem Reads.touches (h : Reads records a) : Touches records a := by
  obtain ⟨r, hr, ha, -⟩ := h
  exact ⟨r, hr, ha⟩

theorem isClean_iff :
    (diff silicon qemu).isClean = true ↔
      (∀ a, Touches silicon a → Touches qemu a) ∧
        ∀ a, Reads silicon a → Reads qemu a → readValues silicon a = readValues qemu a := by
  have hun : (diff silicon qemu).unimplemented = [] ↔
      ∀ a, Touches silicon a → Touches qemu a := by
    rw [← List.map_eq_nil_iff (f := Row.address), List.eq_nil_iff_forall_not_mem]
    simp only [mem_unimplemented, not_and, not_not]
  have hmis : (diff silicon qemu).valueMismatches = [] ↔
      ∀ a, Reads silicon a → Reads qemu a → readValues silicon a = readValues qemu a := by
    rw [← List.map_eq_nil_iff (f := Mismatch.address), List.eq_nil_iff_forall_not_mem]
    simp only [mem_valueMismatches, not_and, ne_eq, not_not]
  simp only [Diff.isClean, Bool.and_eq_true, List.isEmpty_iff, hun, hmis]

/-- The comparison misses nothing exactly if QEMU reads each address that it touches
and silicon reads. -/
theorem missesNothing_iff :
    MissesNothing silicon qemu ↔ ∀ a, Reads silicon a → Touches qemu a → Reads qemu a := by
  constructor
  · intro h a hs hq
    rcases h.reads a hs with hboth | hun | hmis
    · exact hboth.1
    · exact absurd hq (mem_unimplemented.mp hun).2
    · exact (mem_valueMismatches.mp hmis).2.1
  · intro h
    refine ⟨fun a hs => ?_, fun a hs _ hq => mem_unimplemented.mpr ⟨hs, hq⟩, ⟨?_, ?_, ?_⟩, ?_⟩
    · rw [mem_unimplemented, mem_valueMismatches]
      by_cases hq : Touches qemu a
      · have hread := h a hs hq
        by_cases heq : readValues silicon a = readValues qemu a
        · exact .inl ⟨hread, heq⟩
        · exact .inr (.inr ⟨hs, hread, heq⟩)
      · exact .inr (.inl ⟨hs.touches, hq⟩)
    · intro a hun hmis
      exact (mem_unimplemented.mp hun).2 (mem_valueMismatches.mp hmis).2.1.touches
    · intro a hun hextra
      exact (mem_unimplemented.mp hun).2 (mem_extraInQemu.mp hextra).1
    · intro a hmis hextra
      exact (mem_extraInQemu.mp hextra).2 (mem_valueMismatches.mp hmis).1.touches
    · rw [isClean_iff, and_comm]
      refine and_congr_left fun htouch => forall_congr' fun a => imp_congr_right fun hs => ?_
      have hread := h a hs (htouch a hs.touches)
      exact ⟨fun heq => heq hread, fun heq _ => heq⟩

end

/-- A read of the power state. -/
def pwrStateRead : Rec :=
  ⟨0x9000005c, .R, 0xa00003, ⟨some "buttress ".toList, some "PWR_STATE".toList, some 0x5c⟩⟩

def pwrStateWrite : Rec := { pwrStateRead with op := .W }

/-- The comparison is clean although QEMU never answers the read. -/
theorem written_in_qemu_is_clean :
    (diff [pwrStateRead] [pwrStateWrite]).isClean = true ∧
      ¬ MissesNothing [pwrStateRead] [pwrStateWrite] := by
  have hunread : ¬ Reads [pwrStateWrite] 0x9000005c := by
    rintro ⟨r, hr, -, hop⟩
    obtain rfl := List.mem_singleton.mp hr
    cases hop
  refine ⟨by decide +kernel, fun h => ?_⟩
  rcases h.reads 0x9000005c ⟨pwrStateRead, List.mem_singleton_self _, rfl, rfl⟩ with
    hboth | hun | hmis
  · exact hunread hboth.1
  · exact (mem_unimplemented.mp hun).2 ⟨pwrStateWrite, List.mem_singleton_self _, rfl⟩
  · exact hunread (mem_valueMismatches.mp hmis).2.1

end Ipu4.Mmiotrace
