import Ipu4.Mmiotrace.Compare

/-!
# The report of a comparison

`format_diff` prints a comparison with one row for each address, in the order in
which `diff` lists them. Rows are sorted by the number of accesses alone, and rows
that tie keep the order in which the trace first touched them. So the text depends
on the order of the records exactly where rows tie that print differently.
-/

namespace Ipu4.Mmiotrace

open Text (dec hex zfill ljust rjust lines Line)

-- ---------------------------------------------------------------------------
-- Formatting
-- ---------------------------------------------------------------------------

/-- `text or fallback`. -/
def orText (fallback : Text) : Option Text → Text
  | none | some [] => fallback
  | some t => t

def fmtOffset : Option Nat → Text
  | some offset => "0x".toList ++ zfill 3 (hex offset)
  | none => ['?']

/-- Region and offset, the columns each row starts with. -/
def fmtPlace (d : Desc) : Text := ljust 14 (orText ['?'] d.region) ++ ' ' :: rjust 6 (fmtOffset d.offset)

def fmtAddr (d : Desc) : Text :=
  let name := orText [] d.regName
  if name = [] then fmtPlace d else fmtPlace d ++ "  ".toList ++ name

def fmtValue (v : Nat) : Text := "0x".toList ++ hex v

def fmtValues (values : List Nat) : Text :=
  if values = [] then "(none)".toList
  else if values.length ≤ 4 then [' '].intercalate (values.map fmtValue)
  else [' '].intercalate ((values.take 4).map fmtValue) ++ " ... (+".toList ++
    dec (values.length - 4) ++ " more)".toList

def fmtRow (r : Row) : Text :=
  "  ".toList ++ fmtPlace r.desc ++ "  ".toList ++ ljust 30 (orText [] r.desc.regName) ++
    ' ' :: rjust 4 (dec r.reads) ++ ' ' :: rjust 4 (dec r.writes)

def fmtMismatch (m : Mismatch) : List Text :=
  ["  ".toList ++ fmtAddr m.desc, "    silicon: ".toList ++ fmtValues m.siliconValues,
    "    qemu:    ".toList ++ fmtValues m.qemuValues]

def tableHeader : Text :=
  "  ".toList ++ ljust 14 "region".toList ++ ' ' :: rjust 6 "offset".toList ++ "  ".toList ++
    ljust 30 "name".toList ++ ' ' :: rjust 4 ['R'] ++ ' ' :: rjust 4 ['W']

/-- The rows of a section, or `(none)`. -/
def orNone (rows : List Text) : List Text := if rows = [] then ["  (none)".toList] else rows

def sectionHeader (title : String) (n : Nat) : Text :=
  "== ".toList ++ title.toList ++ " (".toList ++ dec n ++ ") ==".toList

def unimplementedLines (rows : List Text) : List Text :=
  sectionHeader "unimplemented addresses" rows.length ::
    orNone (if rows = [] then [] else tableHeader :: rows)

def mismatchLines (rows : List Mismatch) : List Text :=
  sectionHeader "read-value mismatches" rows.length :: orNone (rows.flatMap fmtMismatch)

def extraLines (rows : List Text) : List Text :=
  sectionHeader "addresses only in qemu" rows.length :: orNone rows

def reportLines (d : Diff) : List Text :=
  ("silicon accesses: ".toList ++ dec d.siliconTotal) ::
    ("qemu accesses:    ".toList ++ dec d.qemuTotal) :: [] ::
    (unimplementedLines (d.unimplemented.map fmtRow) ++ [] ::
      (mismatchLines d.valueMismatches ++ [] :: extraLines (d.extraInQemu.map fmtRow)))

def formatDiff (d : Diff) : Text := lines (reportLines d)

-- ---------------------------------------------------------------------------
-- Reading the sections back
-- ---------------------------------------------------------------------------

theorem sectionHeader_inj (h : sectionHeader title m = sectionHeader title n) : m = n := by
  unfold sectionHeader at h
  exact Text.dec_inj (List.append_cancel_left (List.append_cancel_right h))

theorem length_orNone (h : rows.length = rows'.length) : (orNone rows).length = (orNone rows').length := by
  unfold orNone
  cases rows <;> cases rows' <;> simp_all

theorem orNone_inj (h : rows.length = rows'.length) (heq : orNone rows = orNone rows') :
    rows = rows' := by
  unfold orNone at heq
  cases rows <;> cases rows' <;> simp_all

theorem unimplementedLines_append_inj
    (h : unimplementedLines rows ++ x = unimplementedLines rows' ++ y) : rows = rows' ∧ x = y := by
  unfold unimplementedLines at h
  rw [List.cons_append, List.cons_append] at h
  obtain ⟨hheader, hrest⟩ := List.cons.inj h
  have hlen := sectionHeader_inj hheader
  have hlen' : (if rows = [] then [] else tableHeader :: rows).length =
      (if rows' = [] then [] else tableHeader :: rows').length := by
    cases rows <;> cases rows' <;> simp_all
  obtain ⟨hrows, hxy⟩ := List.append_inj hrest (length_orNone hlen')
  refine ⟨?_, hxy⟩
  have hrows := orNone_inj hlen' hrows
  cases rows <;> cases rows' <;> simp_all

theorem extraLines_inj (h : extraLines rows = extraLines rows') : rows = rows' := by
  obtain ⟨hheader, hrest⟩ := List.cons.inj h
  exact orNone_inj (sectionHeader_inj hheader) hrest

-- ---------------------------------------------------------------------------
-- Rows by address
-- ---------------------------------------------------------------------------

/-- The records of a trace with what is known of each address. -/
def Described (describe : Nat → Desc) (records : List Rec) : Prop :=
  ∀ r ∈ records, r.desc = describe r.address

def rowFor (describe : Nat → Desc) (records : List Rec) (a : Nat) : Row :=
  ⟨a, describe a, (accesses records a .R).length, (accesses records a .W).length⟩

def mismatchFor (describe : Nat → Desc) (silicon qemu : List Rec) (a : Nat) : Mismatch :=
  .of a (describe a) (readValues silicon a) (readValues qemu a)

section
variable {describe : Nat → Desc} {mine others silicon qemu : List Rec}

theorem aggregate_eq_map (h : Described describe mine) :
    aggregate (bucketRecords mine) (bucketRecords others) =
      ((aggregate (bucketRecords mine) (bucketRecords others)).map Row.address).map
        (rowFor describe mine) := by
  rw [List.map_map]
  refine (List.map_id _).symm.trans (List.map_congr_left fun row hrow => ?_)
  obtain ⟨-, ⟨r, hr, haddr, hdesc⟩, hcount⟩ := aggregate_row hrow
  have hreads := hcount .R
  have hwrites := hcount .W
  have hdesc : row.desc = describe row.address := by rw [hdesc, h r hr, haddr]
  obtain ⟨a, desc, reads, writes⟩ := row
  simp only [Row.count] at hreads hwrites hdesc
  simp only [id_eq, Function.comp_apply, rowFor, hreads, hwrites, hdesc]

/-- The addresses with a mismatch, in the order of the buckets. -/
def mismatched (silicon qemu : List Rec) : List Nat :=
  ((bucketRecords silicon).filterMap (mismatch (bucketRecords qemu))).map Mismatch.address

theorem nodup_mismatched : (mismatched silicon qemu).Nodup := by
  have hkeys : (bucketRecords silicon).Pairwise fun e e' => e.1 ≠ e'.1 :=
    List.pairwise_map.mp Dict.nodup_collect
  refine List.pairwise_map.mpr (List.pairwise_filterMap.mpr (hkeys.imp ?_))
  rintro ⟨⟨a, op⟩, b⟩ ⟨⟨a', op'⟩, b'⟩ hne m hm m' hm' heq
  obtain ⟨hop, -, -, rfl⟩ := mismatch_eq_some.mp hm
  obtain ⟨hop', -, -, rfl⟩ := mismatch_eq_some.mp hm'
  exact hne (Prod.ext heq (hop.trans hop'.symm))

theorem mismatches_eq_map (h : Described describe silicon) :
    (bucketRecords silicon).filterMap (mismatch (bucketRecords qemu)) =
      (mismatched silicon qemu).map (mismatchFor describe silicon qemu) := by
  unfold mismatched
  rw [List.map_map]
  refine (List.map_id _).symm.trans (List.map_congr_left fun m hm => ?_)
  obtain ⟨⟨⟨a, op⟩, b⟩, he, hsome⟩ := List.mem_filterMap.mp hm
  obtain ⟨rfl, -, -, rfl⟩ := mismatch_eq_some.mp hsome
  have hvalues := (values_of_mem he).1
  have hdesc : b.desc = describe a := by
    obtain ⟨r, rs, hacc, rfl⟩ := mem_bucketRecords.mp he
    have hr : r ∈ accesses silicon a .R := by
      rw [hacc]
      exact List.mem_cons_self
    obtain ⟨hr, hkey⟩ := List.mem_filter.mp hr
    have haddr : r.address = a := congrArg Prod.fst (of_decide_eq_true hkey)
    exact (h r hr).trans (congrArg describe haddr)
  simp only [id_eq, Function.comp_apply, mismatchFor, Mismatch.of, hvalues, hdesc]

-- ---------------------------------------------------------------------------
-- Permuting the records
-- ---------------------------------------------------------------------------

variable {mine' others' silicon' qemu' : List Rec}

theorem touches_perm (h : mine.Perm mine') : Touches mine a ↔ Touches mine' a :=
  exists_congr fun _ => and_congr_left fun _ => h.mem_iff

theorem rowFor_perm (h : mine.Perm mine') : rowFor describe mine = rowFor describe mine' := by
  funext a
  have hlen : ∀ op, (accesses mine a op).length = (accesses mine' a op).length := fun op =>
    (h.filter _).length_eq
  simp only [rowFor, hlen]

theorem readValues_perm (h : mine.Perm mine') : readValues mine a = readValues mine' a :=
  List.toFinset_eq_of_perm _ _ ((h.filter _).map _)

theorem Described.perm (hd : Described describe mine) (h : mine.Perm mine') :
    Described describe mine' := fun r hr => hd r (h.mem_iff.mpr hr)

theorem aggregate_perm (hd : Described describe mine) (h : mine.Perm mine') (h' : others.Perm others') :
    (aggregate (bucketRecords mine) (bucketRecords others)).Perm
      (aggregate (bucketRecords mine') (bucketRecords others')) := by
  rw [aggregate_eq_map hd, aggregate_eq_map (hd.perm h), rowFor_perm h]
  refine List.Perm.map _ ((List.perm_ext_iff_of_nodup (nodup_aggregate ..) (nodup_aggregate ..)).mpr ?_)
  intro a
  rw [mem_address_aggregate, mem_address_aggregate, touches_perm h, touches_perm h']

theorem valueMismatches_perm (hd : Described describe silicon) (h : silicon.Perm silicon')
    (h' : qemu.Perm qemu') :
    (diff silicon qemu).valueMismatches = (diff silicon' qemu').valueMismatches := by
  have hfor : mismatchFor describe silicon qemu = mismatchFor describe silicon' qemu' := by
    funext a
    simp only [mismatchFor, readValues_perm h, readValues_perm h']
  have hperm : (mismatched silicon qemu).Perm (mismatched silicon' qemu') := by
    refine (List.perm_ext_iff_of_nodup nodup_mismatched nodup_mismatched).mpr fun a => ?_
    unfold mismatched
    rw [mem_mismatches, mem_mismatches]
    simp only [reads_iff, readValues_perm h, readValues_perm h']
  have hrank : ∀ m m' : Mismatch, m.address ≤ m'.address ↔
      OrderDual.toDual m'.address ≤ OrderDual.toDual m.address := fun _ _ => Iff.rfl
  have hsort := Dict.map_insertionSort_eq (f := id) hrank
    (hperm.map (mismatchFor describe silicon qemu)) (fun m hm m' hm' heq => by
      obtain ⟨a, -, rfl⟩ := List.mem_map.mp hm
      obtain ⟨a', -, rfl⟩ := List.mem_map.mp hm'
      exact congrArg (mismatchFor describe silicon qemu) heq)
  rw [List.map_id, List.map_id] at hsort
  unfold diff
  dsimp only
  rw [mismatches_eq_map hd, mismatches_eq_map (hd.perm h), ← hfor]
  exact hsort

-- ---------------------------------------------------------------------------
-- Ties
-- ---------------------------------------------------------------------------

def accessCount (records : List Rec) (a : Nat) : Nat := (records.filter fun r => r.address = a).length

/-- Addresses that only the first trace touched, as often as each other, print the
same row. -/
def TiesAlike (describe : Nat → Desc) (mine others : List Rec) : Prop :=
  ∀ a b, Touches mine a → ¬ Touches others a → Touches mine b → ¬ Touches others b →
    accessCount mine a = accessCount mine b →
    fmtRow (rowFor describe mine a) = fmtRow (rowFor describe mine b)

theorem total_rowFor (a : Nat) : (rowFor describe mine a).total = accessCount mine a := by
  unfold rowFor Row.total accessCount accesses
  dsimp only
  induction mine with
  | nil => rfl
  | cons r rs ih =>
    obtain ⟨a', op, value, desc⟩ := r
    by_cases ha : a' = a
    · cases op <;> simp [ha] at ih ⊢ <;> omega
    · simpa [ha] using ih

theorem rank_total (r r' : Row) : r'.total ≤ r.total ↔ r'.total ≤ r.total := Iff.rfl

theorem rows_perm (hd : Described describe mine) (h : mine.Perm mine') (h' : others.Perm others')
    (hties : TiesAlike describe mine others) :
    (sortRows (aggregate (bucketRecords mine) (bucketRecords others))).map fmtRow =
      (sortRows (aggregate (bucketRecords mine') (bucketRecords others'))).map fmtRow := by
  refine Dict.map_insertionSort_eq rank_total (aggregate_perm hd h h') ?_
  have hfor : ∀ row ∈ aggregate (bucketRecords mine) (bucketRecords others),
      row = rowFor describe mine row.address ∧ Touches mine row.address ∧
        ¬ Touches others row.address := by
    intro row hrow
    have hmem := mem_address_aggregate.mp (List.mem_map.mpr ⟨row, hrow, rfl⟩)
    rw [aggregate_eq_map hd] at hrow
    obtain ⟨a, -, rfl⟩ := List.mem_map.mp hrow
    exact ⟨rfl, hmem⟩
  intro row hrow row' hrow' htotal
  obtain ⟨heq, hin, hout⟩ := hfor row hrow
  obtain ⟨heq', hin', hout'⟩ := hfor row' hrow'
  rw [heq, heq', total_rowFor, total_rowFor] at htotal
  rw [heq, heq']
  exact hties _ _ hin hout hin' hout' htotal

theorem formatDiff_perm (hs : Described describe silicon) (hq : Described describe qemu)
    (h : silicon.Perm silicon') (h' : qemu.Perm qemu') (htie : TiesAlike describe silicon qemu)
    (htie' : TiesAlike describe qemu silicon) :
    formatDiff (diff silicon qemu) = formatDiff (diff silicon' qemu') := by
  have hun : (diff silicon qemu).unimplemented.map fmtRow =
      (diff silicon' qemu').unimplemented.map fmtRow := rows_perm hs h h' htie
  have hextra : (diff silicon qemu).extraInQemu.map fmtRow =
      (diff silicon' qemu').extraInQemu.map fmtRow := rows_perm hq h' h htie'
  have hmis := valueMismatches_perm hs h h'
  have hsil : (diff silicon qemu).siliconTotal = (diff silicon' qemu').siliconTotal := h.length_eq
  have hqemu : (diff silicon qemu).qemuTotal = (diff silicon' qemu').qemuTotal := h'.length_eq
  unfold formatDiff reportLines
  rw [hun, hextra, hmis, hsil, hqemu]

-- ---------------------------------------------------------------------------
-- A tie that shows
-- ---------------------------------------------------------------------------

/-- Nothing known of an address ends a line. -/
def OneLine (describe : Nat → Desc) : Prop :=
  ∀ a, (∀ t ∈ (describe a).region, Line t) ∧ ∀ t ∈ (describe a).regName, Line t

theorem line_orText (hf : Line fallback) (h : ∀ t ∈ o, Line t) : Line (orText fallback o) := by
  unfold orText
  split
  · exact hf
  · exact hf
  · exact h _ rfl

theorem line_fmtPlace (h : ∀ t ∈ d.region, Line t) : Line (fmtPlace d) := by
  have hregion : Line (orText ['?'] d.region) := line_orText (by decide) h
  have hoffset : Line (fmtOffset d.offset) := by
    cases d.offset <;> simp [fmtOffset, Text.isLineSep]
  simp [fmtPlace, hregion, hoffset, Text.isLineSep]

theorem line_fmtRow {r : Row} (hregion : ∀ t ∈ r.desc.region, Line t)
    (hname : ∀ t ∈ r.desc.regName, Line t) : Line (fmtRow r) := by
  have hplace : Line (fmtPlace r.desc) := line_fmtPlace hregion
  have hname : Line (orText [] r.desc.regName) := line_orText (by decide) hname
  simp [fmtRow, hplace, hname, Text.isLineSep]

theorem line_fmtValues (values : List Nat) : Line (fmtValues values) := by
  have hvalue : ∀ l : List Nat, ∀ t ∈ l.map fmtValue, Line t := by
    intro l t ht
    obtain ⟨v, -, rfl⟩ := List.mem_map.mp ht
    simp [fmtValue, Text.isLineSep]
  have hjoin : ∀ l : List Nat, Line ([' '].intercalate (l.map fmtValue)) := fun l =>
    Text.line_intercalate rfl (hvalue l)
  unfold fmtValues
  split
  · decide
  split
  · exact hjoin values
  · have hpreview := hjoin (values.take 4)
    simp only [Text.line_append, Text.line_dec, and_true]
    exact ⟨⟨hpreview, by decide⟩, by decide⟩

theorem line_fmtMismatch (hregion : ∀ t ∈ m.desc.region, Line t) (hname : ∀ t ∈ m.desc.regName, Line t)
    (ht : t ∈ fmtMismatch m) : Line t := by
  have hplace : Line (fmtPlace m.desc) := line_fmtPlace hregion
  have hname : Line (orText [] m.desc.regName) := line_orText (by decide) hname
  have haddr : Line (fmtAddr m.desc) := by
    unfold fmtAddr
    dsimp only
    split
    · exact hplace
    · simp [hplace, hname, Text.isLineSep]
  simp only [fmtMismatch, List.mem_cons, List.not_mem_nil, or_false] at ht
  rcases ht with rfl | rfl | rfl
  · simp [haddr, Text.isLineSep]
  · simp only [Text.line_append, line_fmtValues, and_true]
    decide
  · simp only [Text.line_append, line_fmtValues, and_true]
    decide

theorem line_sectionHeader (hn : Line title.toList) (n : Nat) : Line (sectionHeader title n) := by
  simp only [sectionHeader, Text.line_append, Text.line_dec, hn, and_true]
  exact ⟨by decide, by decide⟩

theorem line_orNone (h : ∀ l ∈ rows, Line l) : ∀ l ∈ orNone rows, Line l := by
  unfold orNone
  split
  · decide
  · exact h

theorem line_reportLines (d : Diff) (hun : ∀ l ∈ d.unimplemented.map fmtRow, Line l)
    (hmis : ∀ l ∈ d.valueMismatches.flatMap fmtMismatch, Line l)
    (hextra : ∀ l ∈ d.extraInQemu.map fmtRow, Line l) : ∀ l ∈ reportLines d, Line l := by
  have hheader : ∀ n, Line (sectionHeader "unimplemented addresses" n) ∧
      Line (sectionHeader "read-value mismatches" n) ∧
      Line (sectionHeader "addresses only in qemu" n) := fun n =>
    ⟨line_sectionHeader (by decide) n, line_sectionHeader (by decide) n,
      line_sectionHeader (by decide) n⟩
  have htable : ∀ l ∈ (if d.unimplemented.map fmtRow = [] then []
      else tableHeader :: d.unimplemented.map fmtRow), Line l := by
    split
    · nofun
    · exact List.forall_mem_cons.mpr ⟨by decide, hun⟩
  have hunLines := line_orNone htable
  have hmisLines := line_orNone hmis
  have hextraLines := line_orNone hextra
  have hsil : Line ("silicon accesses: ".toList ++ dec d.siliconTotal) := by
    simp only [Text.line_append, Text.line_dec, and_true]
    decide
  have hqemu : Line ("qemu accesses:    ".toList ++ dec d.qemuTotal) := by
    simp only [Text.line_append, Text.line_dec, and_true]
    decide
  simp only [reportLines, unimplementedLines, mismatchLines, extraLines, List.forall_mem_cons,
    List.forall_mem_append, List.cons_append, Text.line_nil, true_and]
  exact ⟨hsil, hqemu, (hheader _).1, hunLines, (hheader _).2.1, hmisLines, (hheader _).2.2,
    hextraLines⟩

theorem line_diff (h : OneLine describe) (hs : Described describe silicon)
    (hq : Described describe qemu) : ∀ l ∈ reportLines (diff silicon qemu), Line l := by
  have hrows : ∀ {mine others : List Rec}, Described describe mine →
      ∀ l ∈ (sortRows (aggregate (bucketRecords mine) (bucketRecords others))).map fmtRow, Line l := by
    intro mine others hd l hl
    obtain ⟨row, hrow, rfl⟩ := List.mem_map.mp hl
    have hrow := (List.perm_insertionSort _ _).mem_iff.mp hrow
    rw [aggregate_eq_map hd] at hrow
    obtain ⟨a, -, rfl⟩ := List.mem_map.mp hrow
    exact line_fmtRow (h a).1 (h a).2
  refine line_reportLines _ (hrows hs) (fun l hl => ?_) (hrows hq)
  obtain ⟨m, hm, hl⟩ := List.mem_flatMap.mp hl
  have hm := (List.perm_insertionSort _ _).mem_iff.mp hm
  rw [mismatches_eq_map hs] at hm
  obtain ⟨a, -, rfl⟩ := List.mem_map.mp hm
  obtain ⟨hregion, hname⟩ := h a
  exact line_fmtMismatch hregion hname hl

theorem rows_of_formatDiff {d d' : Diff} (h : ∀ l ∈ reportLines d, Line l)
    (h' : ∀ l ∈ reportLines d', Line l) (hmis : d.valueMismatches = d'.valueMismatches)
    (heq : formatDiff d = formatDiff d') :
    d.unimplemented.map fmtRow = d'.unimplemented.map fmtRow ∧
      d.extraInQemu.map fmtRow = d'.extraInQemu.map fmtRow := by
  have hlines := Text.lines_inj h h' (List.cons_ne_nil _ _) (List.cons_ne_nil _ _) heq
  unfold reportLines at hlines
  obtain ⟨-, hlines⟩ := List.cons.inj hlines
  obtain ⟨-, hlines⟩ := List.cons.inj hlines
  obtain ⟨-, hlines⟩ := List.cons.inj hlines
  obtain ⟨hun, hlines⟩ := unimplementedLines_append_inj hlines
  obtain ⟨-, hlines⟩ := List.cons.inj hlines
  rw [hmis] at hlines
  obtain ⟨-, hlines⟩ := List.cons.inj (List.append_cancel_left hlines)
  exact ⟨hun, extraLines_inj hlines⟩

/-- The records of one address before all others. -/
def moveFront (b : Nat) (records : List Rec) : List Rec :=
  (records.filter fun r => r.address = b) ++ records.filter fun r => !decide (r.address = b)

theorem moveFront_perm (b : Nat) (records : List Rec) : records.Perm (moveFront b records) :=
  (List.filter_append_perm (fun r : Rec => decide (r.address = b)) records).symm

theorem head?_aggregate_moveFront (hb : Touches mine b) (hout : ¬ Touches others b) :
    ((aggregate (bucketRecords (moveFront b mine)) (bucketRecords others)).map Row.address).head? =
      some b := by
  obtain ⟨r, hr, rfl⟩ := hb
  have hmem : r ∈ mine.filter fun r' => r'.address = r.address := List.mem_filter.mpr ⟨hr, by simp⟩
  cases hfront : mine.filter fun r' => r'.address = r.address with
  | nil => simp [hfront] at hmem
  | cons r₁ rs =>
    have hr₁ : r₁.address = r.address := by
      have hin : r₁ ∈ mine.filter fun r' => r'.address = r.address := by
        rw [hfront]
        exact List.mem_cons_self
      exact of_decide_eq_true (List.mem_filter.mp hin).2
    have hcons : ∃ tail, moveFront r.address mine = r₁ :: tail := by
      unfold moveFront
      rw [hfront]
      exact ⟨_, rfl⟩
    obtain ⟨tail, htail⟩ := hcons
    have hbuckets : ((bucketRecords (moveFront r.address mine)).map Prod.fst).head? =
        some (r₁.address, r₁.op) := by
      rw [htail]
      exact Dict.head?_keys_collect
    rw [address_aggregate]
    cases hcase : bucketRecords (moveFront r.address mine) with
    | nil => simp [hcase] at hbuckets
    | cons e es =>
      rw [hcase] at hbuckets
      have hkey : e.1 = (r₁.address, r₁.op) := Option.some.inj hbuckets
      have haddr : e.1.1 = r.address := by rw [hkey, hr₁]
      have hkeep : e.1.1 ∉ addresses (bucketRecords others) := by
        rw [haddr, mem_addresses]
        exact hout
      rw [List.filter_cons_of_pos (by simpa using hkeep), Dict.head?_keys_collect, haddr]

theorem map_filter_total {rows rows' : List Row} (hperm : rows.Perm rows')
    (h : (sortRows rows).map fmtRow = (sortRows rows').map fmtRow) (t : Nat) :
    (rows.filter fun r => r.total = t).map fmtRow = (rows'.filter fun r => r.total = t).map fmtRow := by
  have htotal : (sortRows rows).map Row.total = (sortRows rows').map Row.total :=
    Dict.map_insertionSort_eq rank_total hperm fun _ _ _ _ heq => heq
  have hpairs : (sortRows rows).map (fun r => (r.total, fmtRow r)) =
      (sortRows rows').map fun r => (r.total, fmtRow r) := by
    rw [← List.zip_map', ← List.zip_map', htotal, h]
  have hfilter := congrArg (fun l => (l.filter fun p : Nat × Text => p.1 = t).map Prod.snd) hpairs
  have hstable : ∀ l : List Row, ((((sortRows l).map fun r => (r.total, fmtRow r)).filter
      fun p : Nat × Text => p.1 = t).map Prod.snd) = (l.filter fun r => r.total = t).map fmtRow := by
    intro l
    rw [List.filter_map, List.map_map]
    have hsort := Dict.filter_insertionSort rank_total l t
    exact congrArg (List.map fmtRow) hsort
  rwa [hstable, hstable] at hfilter

theorem head?_ties (hd : Described describe mine) (hb : Touches mine b) (hout : ¬ Touches others b)
    (h : (sortRows (aggregate (bucketRecords mine) (bucketRecords others))).map fmtRow =
      (sortRows (aggregate (bucketRecords (moveFront b mine)) (bucketRecords others))).map fmtRow) :
    (((aggregate (bucketRecords mine) (bucketRecords others)).filter fun r =>
      r.total = accessCount mine b).map fmtRow).head? = some (fmtRow (rowFor describe mine b)) := by
  have hmove := moveFront_perm b mine
  rw [map_filter_total (aggregate_perm hd hmove (.refl _)) h]
  have hhead := head?_aggregate_moveFront hb hout
  rw [aggregate_eq_map (hd.perm hmove), ← rowFor_perm hmove]
  cases hcase : (aggregate (bucketRecords (moveFront b mine)) (bucketRecords others)).map
      Row.address with
  | nil => simp [hcase] at hhead
  | cons a as =>
    rw [hcase] at hhead
    obtain rfl : a = b := Option.some.inj hhead
    rw [List.map_cons, List.filter_cons_of_pos (by simp [total_rowFor])]
    rfl

theorem tiesAlike_of_moveFront (hd : Described describe mine)
    (h : ∀ b, (sortRows (aggregate (bucketRecords mine) (bucketRecords others))).map fmtRow =
      (sortRows (aggregate (bucketRecords (moveFront b mine)) (bucketRecords others))).map fmtRow) :
    TiesAlike describe mine others := by
  intro a b ha houta hb houtb hcount
  have hheadA := head?_ties hd ha houta (h a)
  have hheadB := head?_ties hd hb houtb (h b)
  rw [hcount] at hheadA
  exact Option.some.inj (hheadA.symm.trans hheadB)

/-- The report does not depend on the order of the records exactly if addresses that
tie print alike, in both lists that are sorted by the number of accesses. -/
theorem report_order_free_iff (h : OneLine describe) (hs : Described describe silicon)
    (hq : Described describe qemu) :
    (∀ silicon' qemu', silicon.Perm silicon' → qemu.Perm qemu' →
        formatDiff (diff silicon qemu) = formatDiff (diff silicon' qemu')) ↔
      TiesAlike describe silicon qemu ∧ TiesAlike describe qemu silicon := by
  constructor
  · intro hall
    have hlines := line_diff h hs hq
    constructor
    · refine tiesAlike_of_moveFront hs fun b => ?_
      have hmove := moveFront_perm b silicon
      have hmis := valueMismatches_perm hs hmove (.refl qemu)
      exact (rows_of_formatDiff hlines (line_diff h (hs.perm hmove) hq) hmis
        (hall _ _ hmove (.refl _))).1
    · refine tiesAlike_of_moveFront hq fun b => ?_
      have hmove := moveFront_perm b qemu
      have hmis := valueMismatches_perm hs (.refl silicon) hmove
      exact (rows_of_formatDiff hlines (line_diff h hs (hq.perm hmove)) hmis
        (hall _ _ (.refl _) hmove)).2
  · rintro ⟨htie, htie'⟩ silicon' qemu' hsil hqemu
    exact formatDiff_perm hs hq hsil hqemu htie htie'

end

/-- Two registers of the buttress. -/
def buttressDesc (a : Nat) : Desc :=
  ⟨some "buttress ".toList, some (if a = 0x90000008 then "WDT".toList else "BTRS_CTRL".toList),
    some (a - 0x90000000)⟩

def wdtRead : Rec := ⟨0x90000008, .R, 0xfff0fff, buttressDesc 0x90000008⟩

def btrsCtrlRead : Rec := ⟨0x9000000c, .R, 0x10, buttressDesc 0x9000000c⟩

theorem oneLine_buttressDesc : OneLine buttressDesc := by
  intro a
  constructor
  · rintro t ⟨⟩
    decide
  · rintro t ⟨⟩
    split <;> decide

/-- Two reads of one register and one of the other do not tie. -/
theorem report_order_free_untied :
    formatDiff (diff [wdtRead, btrsCtrlRead, wdtRead] []) =
      formatDiff (diff [btrsCtrlRead, wdtRead, wdtRead] []) := by
  refine (report_order_free_iff oneLine_buttressDesc ?_ ?_).mpr ⟨?_, ?_⟩ _ _ (.swap ..) (.refl _)
  · intro r hr
    simp only [List.mem_cons, List.not_mem_nil, or_false] at hr
    rcases hr with rfl | rfl | rfl <;> rfl
  · nofun
  · have hcases : ∀ a, Touches [wdtRead, btrsCtrlRead, wdtRead] a →
        a = 0x90000008 ∨ a = 0x9000000c := by
      rintro a ⟨r, hr, rfl⟩
      simp only [List.mem_cons, List.not_mem_nil, or_false] at hr
      rcases hr with rfl | rfl | rfl
      · exact .inl rfl
      · exact .inr rfl
      · exact .inl rfl
    intro a b ha _ hb _ hcount
    rcases hcases a ha with rfl | rfl <;> rcases hcases b hb with rfl | rfl
    · rfl
    · cases hcount
    · cases hcount
    · rfl
  · rintro a b ⟨r, hr, -⟩
    cases hr

/-- Each register read once: the report lists first what was read first. -/
theorem tie_shows_order :
    ¬ ∀ (describe : Nat → Desc) (silicon qemu silicon' qemu' : List Rec),
      Described describe silicon → Described describe qemu →
      silicon.Perm silicon' → qemu.Perm qemu' →
      formatDiff (diff silicon qemu) = formatDiff (diff silicon' qemu') := by
  intro h
  have hsame := h buttressDesc [wdtRead, btrsCtrlRead] [] [btrsCtrlRead, wdtRead] []
    (by
      intro r hr
      simp only [List.mem_cons, List.not_mem_nil, or_false] at hr
      rcases hr with rfl | rfl <;> rfl)
    nofun (.swap _ _ _) (.refl _)
  revert hsame
  decide +kernel

end Ipu4.Mmiotrace
