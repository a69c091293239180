import Ipu4.Mmiotrace.Report

/-!
# The baseline gate

`normalize_report.py` reads the report back line by line and blanks what changes from
run to run: the number of accesses in QEMU, and the QEMU values of the rows in a list
of volatile registers. It finds the offset of a row in a column of six characters, and
the report shows at most four values of a list. What two normalized reports say when
they are the same text follows from that.
-/

namespace Ipu4.Mmiotrace

open Text (dec hex zfill ljust rjust lines splitlines Line Word)
open Text (isSpace rstrip strip lower startsWith)

-- ---------------------------------------------------------------------------
-- Looking up an address
-- ---------------------------------------------------------------------------

/-- An `AddressRegion`; its `max_offset` only makes a warning. -/
structure Region where
  start : Nat
  name : String
  namedRegs : List (Nat × String)
  deriving DecidableEq, Repr

def csi2RegNames : List (Nat × String) :=
  [(0x000, "RX_ENABLE"), (0x008, "RX_CONFIG"), (0x400, "PART_IRQ_EDGE"), (0x404, "PART_IRQ_MASK"),
    (0x408, "PART_IRQ_STATUS"), (0x40c, "PART_IRQ_CLEAR"), (0x410, "PART_IRQ_ENABLE"),
    (0x414, "PART_IRQ_LEVEL_NOT_PULSE"), (0x500, "RX_IRQ_EDGE"), (0x504, "RX_IRQ_MASK"),
    (0x508, "RX_IRQ_STATUS"), (0x50c, "RX_IRQ_CLEAR"), (0x510, "RX_IRQ_ENABLE"),
    (0x514, "RX_IRQ_LEVEL_NOT_PULSE"), (0x600, "S2M_IRQ_EDGE"), (0x604, "S2M_IRQ_MASK"),
    (0x608, "S2M_IRQ_STATUS"), (0x60c, "S2M_IRQ_CLEAR"), (0x610, "S2M_IRQ_ENABLE"),
    (0x614, "S2M_IRQ_LEVEL_NOT_PULSE")]

def buttressRegNames : List (Nat × String) :=
  [(0x8, "WDT"), (0xc, "BTRS_CTRL"), (0x30, "FW_RESET_CTL"), (0x34, "IS_FREQ_CTL"),
    (0x38, "PS_FREQ_CTL"), (0x50, "ISH2IUCSR"), (0x54, "ISH2IUDB0"), (0x58, "ISH2IUDATA0"),
    (0x5c, "PWR_STATE"), (0x78, "FW_SOURCE_BASE_LO"), (0x7c, "FW_SOURCE_BASE_HI"),
    (0x80, "FW_SOURCE_BASE_SIZE"), (0x88, "FABRIC_CMD"), (0x90, "ISR_STATUS"),
    (0x94, "ISR_ENABLED_STATUS"), (0x98, "ISR_ENABLE"), (0x9c, "ISR_CLEAR"), (0x100, "IU2CSEDB0"),
    (0x104, "IU2CSEDATA0"), (0x108, "IU2CSECSR"), (0x10c, "IU2ISHDB0"), (0x110, "IU2ISHDATA0"),
    (0x114, "IU2ISHDATA1"), (0x118, "IU2ISHCSR"), (0x120, "TSW_CTL"), (0x164, "TSC_LO"),
    (0x168, "TSC_HI"), (0x300, "SECURITY_CTL"), (0x304, "CSE2IUDB0"), (0x308, "CSE2IUDATA0"),
    (0x30c, "CSE2IUCSR")]

/-- `NAMED_REGIONS`, from the top of the BAR down. -/
def namedRegions : List Region :=
  [⟨0x90740000, "psys isp3", []⟩, ⟨0x906c0000, "psys isp2", []⟩, ⟨0x90640000, "psys isp1", []⟩,
    ⟨0x905c0000, "psys isp0", []⟩, ⟨0x904b0600, "psys2 mmu", []⟩, ⟨0x904b0100, "psys1 mmu", []⟩,
    ⟨0x904b0000, "psys0 mmu", []⟩, ⟨0x90460000, "psys gpdev", []⟩, ⟨0x90430000, "psys spp0", []⟩,
    ⟨0x90420000, "psys spp1", []⟩, ⟨0x90408000, "psys dmem", [(0x0, "BOOTLOADER_STATUS_OFFSET")]⟩,
    ⟨0x90400000, "psys spc ", []⟩, ⟨0x901e0100, "isys1 mmu", []⟩, ⟨0x901e0000, "isys0 mmu", []⟩,
    ⟨0x9017c000, "isys unispart",
      [(0x00, "IRQ_EDGE"), (0x04, "IRQ_MASK"), (0x08, "IRQ_STATUS"), (0x0c, "IRQ_CLEAR"),
        (0x10, "IRQ_ENABLE"), (0x14, "IRQ_LEVEL_NOT_PULSE"), (0x414, "SW_IRQ"),
        (0x418, "SW_IRQ_MUX")]⟩,
    ⟨0x9016c800, "csi2 port5", csi2RegNames⟩, ⟨0x9016c000, "csi2 port4", csi2RegNames⟩,
    ⟨0x90167000, "csi2 port3", csi2RegNames⟩, ⟨0x90166000, "csi2 port2", csi2RegNames⟩,
    ⟨0x90165000, "csi2 port1", csi2RegNames⟩, ⟨0x90164000, "csi2 port0", csi2RegNames⟩,
    ⟨0x90108000, "isys dmem",
      [(0x08, "SYSCOM_STATE"), (0x28, "FW_COM_SEND_WR_POS"), (0x2c, "FW_COM_SEND_RD_POS"),
        (0x70, "FW_COM_RECV_WR_POS"), (0x74, "FW_COM_RECV_RD_POS")]⟩,
    ⟨0x90100000, "isys spc ", [(0x0, "SPC_STATUS_CTRL")]⟩,
    ⟨0x90000000, "buttress ", buttressRegNames⟩]

def Region.desc (r : Region) (address : Nat) : Desc where
  region := some r.name.toList
  regName := (r.namedRegs.lookup (address - r.start)).map String.toList
  offset := some (address - r.start)

def lookupAddress (address : Nat) : Option Desc :=
  (namedRegions.find? fun r => r.start ≤ address).map fun r => r.desc address

-- ---------------------------------------------------------------------------
-- Normalizing a report
-- ---------------------------------------------------------------------------

def parseAddressRow (line : Text) : Option (Text × Text) :=
  if line.length < 23 ∨ ¬ startsWith line "  " ∨ line.getD 2 ' ' = ' ' then none
  else
    let region := rstrip ((line.drop 2).take 14)
    let offset := strip ((line.drop 17).take 6)
    if ¬ startsWith offset "0x" then none
    else if region = [] then none
    else some (region, lower offset)

inductive Section
  | unimpl | mismatch | extra
  deriving DecidableEq, Repr

structure Scan where
  sect : Option Section
  expectVolatileQemu : Bool
  deriving DecidableEq, Repr

def volatileTotal : Text := "qemu accesses:    <volatile>".toList

def volatileValues : Text := "    qemu:    <volatile>".toList

/-- The body of the loop in `normalize`. -/
def normalizeLine (volatile : List (Text × Text)) (s : Scan) (line : Text) : Scan × Text :=
  if startsWith line "qemu accesses:" then (s, volatileTotal)
  else if startsWith line "== unimplemented" then (⟨some .unimpl, false⟩, line)
  else if startsWith line "== read-value mismatches" then (⟨some .mismatch, false⟩, line)
  else if startsWith line "== addresses only in qemu" then (⟨some .extra, false⟩, line)
  else if s.sect = some .mismatch then
    match parseAddressRow line with
    | some parsed => ({ s with expectVolatileQemu := parsed ∈ volatile }, line)
    | none =>
      if s.expectVolatileQemu ∧ startsWith line "    qemu:" then
        ({ s with expectVolatileQemu := false }, volatileValues)
      else (s, line)
  else (s, line)

def normalizeLines (volatile : List (Text × Text)) : Scan → List Text → List Text
  | _, [] => []
  | s, line :: ls =>
    (normalizeLine volatile s line).2 :: normalizeLines volatile (normalizeLine volatile s line).1 ls

/-- A newline at the end stays. -/
def normalize (volatile : List (Text × Text)) (text : Text) : Text :=
  lines (normalizeLines volatile ⟨none, false⟩ (splitlines text)) ++
    if text.getLast? = some '\n' then ['\n'] else []

-- ---------------------------------------------------------------------------
-- Normalizing twice
-- ---------------------------------------------------------------------------

section
variable {volatile : List (Text × Text)}

/-- What becomes of a line: one of the two totals, values that were waited for, or
nothing. -/
inductive Normalized (s : Scan) (line : Text) : Scan × Text → Prop
  | total : Normalized s line (s, volatileTotal)
  | values : s.sect = some .mismatch → s.expectVolatileQemu = true →
    Normalized s line ({ s with expectVolatileQemu := false }, volatileValues)
  | kept (s' : Scan) : Normalized s line (s', line)

theorem normalized_normalizeLine (s : Scan) (line : Text) :
    Normalized s line (normalizeLine volatile s line) := by
  unfold normalizeLine
  split
  · exact .total
  split
  · exact .kept _
  split
  · exact .kept _
  split
  · exact .kept _
  split
  next hsect =>
    split
    · exact .kept _
    · split
      next hexpect => exact .values hsect hexpect.1
      · exact .kept _
  · exact .kept _

theorem normalizeLine_total (s : Scan) : normalizeLine volatile s volatileTotal = (s, volatileTotal) := by
  have hprefix : startsWith volatileTotal "qemu accesses:" = true := by decide
  simp [normalizeLine, hprefix]

theorem normalizeLine_values (hsect : s.sect = some .mismatch) (hexpect : s.expectVolatileQemu = true) :
    normalizeLine volatile s volatileValues =
      ({ s with expectVolatileQemu := false }, volatileValues) := by
  have hparse : parseAddressRow volatileValues = none := by decide
  have hprefix : startsWith volatileValues "qemu accesses:" = false ∧
      startsWith volatileValues "== unimplemented" = false ∧
      startsWith volatileValues "== read-value mismatches" = false ∧
      startsWith volatileValues "== addresses only in qemu" = false ∧
      startsWith volatileValues "    qemu:" = true := by decide
  simp [normalizeLine, hprefix, hparse, hsect, hexpect]

theorem normalizeLine_twice (s : Scan) (line : Text) :
    normalizeLine volatile s (normalizeLine volatile s line).2 = normalizeLine volatile s line := by
  have hcase : Normalized s line (normalizeLine volatile s line) := normalized_normalizeLine s line
  generalize hr : normalizeLine volatile s line = r at hcase
  cases hcase with
  | total => exact normalizeLine_total s
  | values hsect hexpect => exact normalizeLine_values hsect hexpect
  | kept s' => exact hr

theorem normalizeLines_twice (s : Scan) (ls : List Text) :
    normalizeLines volatile s (normalizeLines volatile s ls) = normalizeLines volatile s ls := by
  induction ls generalizing s with
  | nil => rfl
  | cons line ls ih => rw [normalizeLines, normalizeLines, normalizeLine_twice, ih]

theorem normalizeLines_take (s : Scan) (ls : List Text) (n : Nat) :
    normalizeLines volatile s (ls.take n) = (normalizeLines volatile s ls).take n := by
  induction ls generalizing s n with
  | nil => simp [normalizeLines]
  | cons line ls ih =>
    cases n with
    | zero => rfl
    | succ n => rw [List.take_succ_cons, normalizeLines, normalizeLines, List.take_succ_cons, ih]

theorem line_normalizeLines (s : Scan) (h : ∀ l ∈ ls, Line l) :
    ∀ l ∈ normalizeLines volatile s ls, Line l := by
  induction ls generalizing s with
  | nil => nofun
  | cons line ls ih =>
    obtain ⟨hline, hls⟩ := List.forall_mem_cons.mp h
    rw [normalizeLines]
    refine List.forall_mem_cons.mpr ⟨?_, ih _ hls⟩
    have hcase : Normalized s line (normalizeLine volatile s line) := normalized_normalizeLine s line
    generalize normalizeLine volatile s line = r at hcase
    cases hcase with
    | total =>
      have hmark : Line volatileTotal := by decide
      exact hmark
    | values =>
      have hmark : Line volatileValues := by decide
      exact hmark
    | kept s' => exact hline

theorem normalizeLines_eq_nil : normalizeLines volatile s ls = [] ↔ ls = [] := by
  cases ls <;> simp [normalizeLines]

theorem normalize_twice (text : Text) :
    normalize volatile (normalize volatile text) = normalize volatile text := by
  have hlines : ∀ l ∈ splitlines text, Line l := fun l hl =>
    Text.line_splitlinesFrom Text.line_nil hl
  have hout : ∀ l ∈ normalizeLines volatile ⟨none, false⟩ (splitlines text), Line l :=
    line_normalizeLines _ hlines
  have htwice : normalizeLines volatile ⟨none, false⟩
      (normalizeLines volatile ⟨none, false⟩ (splitlines text)) =
        normalizeLines volatile ⟨none, false⟩ (splitlines text) := normalizeLines_twice _ _
  have hnil : normalizeLines volatile ⟨none, false⟩ (splitlines text) = [] → text = [] := by
    intro hnil
    by_contra hne
    exact Text.splitlinesFrom_ne_nil hne [] (normalizeLines_eq_nil.mp hnil)
  unfold normalize
  generalize normalizeLines volatile ⟨none, false⟩ (splitlines text) = out at hout htwice hnil
  split
  next hend =>
    have hne : out ≠ [] := by
      intro hnil'
      rw [hnil hnil'] at hend
      cases hend
    rw [Text.splitlines_lines_newline hout hne, htwice, if_pos (by simp)]
  next hend =>
    rw [List.append_nil]
    rcases List.eq_nil_or_concat' out with rfl | ⟨ls, l, rfl⟩
    · rfl
    have hl : Line l := hout l (by simp)
    cases l with
    | cons c l =>
      rw [Text.splitlines_lines hout (by simp), htwice,
        if_neg (Text.getLast?_lines hl (List.cons_ne_nil _ _) ls), List.append_nil]
    | nil =>
      cases ls with
      | nil => rfl
      | cons l ls =>
        -- The empty last line is not found again, and the newline before it is the end.
        have hls : ∀ l' ∈ l :: ls, Line l' := fun l' hl' => hout l' (List.mem_append_left _ hl')
        have htake : normalizeLines volatile ⟨none, false⟩ (l :: ls) = l :: ls := by
          have htake := congrArg (List.take (l :: ls).length) htwice
          rwa [← normalizeLines_take, List.take_left' rfl] at htake
        rw [Text.lines_concat (List.cons_ne_nil _ _),
          Text.splitlines_lines_newline hls (List.cons_ne_nil _ _), htake, if_pos (by simp)]

end

-- ---------------------------------------------------------------------------
-- Rows of known registers
-- ---------------------------------------------------------------------------

theorem lookupAddress_eq_some (h : lookupAddress a = some d) :
    ∃ r ∈ namedRegions, r.start ≤ a ∧ d = r.desc a := by
  obtain ⟨r, hr, rfl⟩ := Option.map_eq_some_iff.mp h
  exact ⟨r, List.mem_of_find?_eq_some hr, by simpa using List.find?_some hr, rfl⟩

/-- What the names of a region keep to, for the columns to be found again. -/
structure Region.Fits (r : Region) : Prop where
  length : r.name.toList.length ≤ 14
  head : ∃ c t, r.name.toList = c :: t ∧ c ≠ ' '
  line : Line r.name.toList
  names : ∀ reg ∈ r.namedRegs, Line reg.2.toList
  strip : rstrip (ljust 14 r.name.toList) = rstrip r.name.toList
  key : rstrip r.name.toList ≠ []

theorem fits_namedRegions : ∀ r ∈ namedRegions, r.Fits := by
  have hall : ∀ r ∈ namedRegions, r.name.toList.length ≤ 14 ∧ r.name.toList ≠ [] ∧
      r.name.toList.head? ≠ some ' ' ∧ Line r.name.toList ∧ (∀ reg ∈ r.namedRegs, Line reg.2.toList) ∧
      rstrip (ljust 14 r.name.toList) = rstrip r.name.toList ∧ rstrip r.name.toList ≠ [] := by
    decide +kernel
  intro r hr
  obtain ⟨hlength, hne, hhead, hline, hnames, hstrip, hkey⟩ := hall r hr
  refine ⟨hlength, ?_, hline, hnames, hstrip, hkey⟩
  cases hname : r.name.toList with
  | nil => exact absurd hname hne
  | cons c t => exact ⟨c, t, rfl, by simpa [hname] using hhead⟩

theorem namedRegions_inj : ∀ r ∈ namedRegions, ∀ r' ∈ namedRegions,
    ljust 14 r.name.toList = ljust 14 r'.name.toList → r = r' := by
  decide +kernel

theorem fmtPlace_desc {r : Region} (h : r.Fits) (a : Nat) :
    fmtPlace (r.desc a) = ljust 14 r.name.toList ++ ' ' :: rjust 6 (fmtOffset (some (a - r.start))) := by
  obtain ⟨c, t, hname, -⟩ := h.head
  simp [fmtPlace, Region.desc, orText, hname]

theorem word_fmtOffset (n : Nat) : Word (fmtOffset (some n)) := by
  have hword : Word (hex n) := Text.word_toDigits (by decide) (by decide) n
  have hblank := hword.blank
  exact ⟨by simp [fmtOffset], by simp [fmtOffset, zfill, hblank]⟩

theorem fmtOffset_inj (h : fmtOffset (some m) = fmtOffset (some n)) : m = n :=
  Text.zfill_hex_inj (List.append_cancel_left h)

section
variable {a a' : Nat} {d d' : Desc}

theorem fmtPlace_append_inj (hd : lookupAddress a = some d) (hd' : lookupAddress a' = some d')
    (hx : Text.Follows x) (hy : Text.Follows y) (h : fmtPlace d ++ x = fmtPlace d' ++ y) :
    a = a' ∧ x = y := by
  obtain ⟨r, hr, hstart, rfl⟩ := lookupAddress_eq_some hd
  obtain ⟨r', hr', hstart', rfl⟩ := lookupAddress_eq_some hd'
  have hfits := fits_namedRegions r hr
  have hfits' := fits_namedRegions r' hr'
  have hlen : (ljust 14 r.name.toList).length = (ljust 14 r'.name.toList).length := by
    rw [Text.length_ljust hfits.length, Text.length_ljust hfits'.length]
  rw [fmtPlace_desc hfits, fmtPlace_desc hfits', List.append_assoc, List.append_assoc] at h
  obtain ⟨hname, hrest⟩ := List.append_inj h hlen
  obtain rfl := namedRegions_inj r hr r' hr' hname
  obtain ⟨hoffset, hxy⟩ := Text.rjust_append_inj (word_fmtOffset _) (word_fmtOffset _) hx hy
    (List.cons.inj hrest).2
  have hoffset := fmtOffset_inj hoffset
  exact ⟨by omega, hxy⟩

theorem fmtAddr_inj (hd : lookupAddress a = some d) (hd' : lookupAddress a' = some d')
    (h : fmtAddr d = fmtAddr d') : a = a' := by
  have hsplit : ∀ d, ∃ x, fmtAddr d = fmtPlace d ++ x ∧ Text.Follows x := by
    intro d
    unfold fmtAddr
    dsimp only
    split
    · exact ⟨[], by simp, nofun⟩
    · exact ⟨_, List.append_assoc .., by simp [Text.Follows]⟩
  obtain ⟨x, heq, hx⟩ := hsplit d
  obtain ⟨y, heq', hy⟩ := hsplit d'
  rw [heq, heq'] at h
  exact (fmtPlace_append_inj hd hd' hx hy h).1

theorem fmtRow_inj (hr : lookupAddress r.address = some r.desc)
    (hr' : lookupAddress r'.address = some r'.desc) (h : fmtRow r = fmtRow r') : r = r' := by
  obtain ⟨a, d, reads, writes⟩ := r
  obtain ⟨a', d', reads', writes'⟩ := r'
  unfold fmtRow at h
  simp only [List.append_assoc] at h
  obtain ⟨rfl, hrest⟩ := fmtPlace_append_inj hr hr' (by simp [Text.Follows]) (by simp [Text.Follows])
    (List.append_cancel_left h)
  obtain rfl : d = d' := Option.some.inj (hr.symm.trans hr')
  have hcounts := (List.cons.inj (List.append_cancel_left (List.append_cancel_left hrest))).2
  obtain ⟨hreads, hwrites⟩ := Text.rjust_append_inj (Text.word_dec _) (Text.word_dec _) (by simp [Text.Follows])
    (by simp [Text.Follows]) hcounts
  have hwrites : rjust 4 (dec writes) ++ [] = rjust 4 (dec writes') ++ [] :=
    congrArg (· ++ []) (List.cons.inj hwrites).2
  have hnil : Text.Follows [] := by simp [Text.Follows]
  obtain ⟨hwrites, -⟩ := Text.rjust_append_inj (Text.word_dec _) (Text.word_dec _) hnil hnil hwrites
  rw [Text.dec_inj hreads, Text.dec_inj hwrites]

end

-- ---------------------------------------------------------------------------
-- Finding the row of a register
-- ---------------------------------------------------------------------------

/-- The region and offset of a row, as the list of volatile registers names them. -/
def Desc.key (d : Desc) : Text × Text := (rstrip (orText ['?'] d.region), fmtOffset d.offset)

/-- What the columns of a row show of its key: six characters of the offset. -/
def Desc.printedKey (d : Desc) : Text × Text := (d.key.1, d.key.2.take 6)

theorem mem_fmtOffset (h : c ∈ fmtOffset (some n)) : c = 'x' ∨ ∃ d < 16, c = Nat.digitChar d := by
  have hzero : '0' = Nat.digitChar 0 := by decide
  simp only [fmtOffset, zfill, List.mem_append, List.mem_replicate] at h
  rcases h with h | ⟨-, rfl⟩ | h
  · have h : c = '0' ∨ c = 'x' := by simpa using h
    rcases h with rfl | rfl
    · exact .inr ⟨0, by decide, hzero⟩
    · exact .inl rfl
  · exact .inr ⟨0, by decide, hzero⟩
  · exact .inr (Text.mem_toDigits (by decide) (by decide) n h)

theorem digitChar_plain : ∀ d < 16, isSpace (Nat.digitChar d) = false ∧
    (Nat.digitChar d).toLower = Nat.digitChar d := by
  decide

theorem plain_fmtOffset (h : c ∈ fmtOffset (some n)) : isSpace c = false ∧ c.toLower = c := by
  rcases mem_fmtOffset h with rfl | ⟨d, hd, rfl⟩
  · decide
  · exact digitChar_plain d hd

theorem parseAddressRow_columns (hlen : region.length = 14) (hhead : region.head? ≠ some ' ')
    (hrest : 6 ≤ rest.length) (hoffset : startsWith (strip (rest.take 6)) "0x" = true)
    (hregion : rstrip region ≠ []) :
    parseAddressRow (' ' :: ' ' :: (region ++ ' ' :: rest)) =
      some (rstrip region, lower (strip (rest.take 6))) := by
  have hlong : ¬ (' ' :: ' ' :: (region ++ ' ' :: rest)).length < 23 := by
    simp only [List.length_cons, List.length_append]
    omega
  have htwo : startsWith (' ' :: ' ' :: (region ++ ' ' :: rest)) "  " = true := by
    simp [startsWith]
  have hthird : (' ' :: ' ' :: (region ++ ' ' :: rest)).getD 2 ' ' ≠ ' ' := by
    cases region with
    | nil => cases hlen
    | cons c region => simpa using hhead
  have htake : ((' ' :: ' ' :: (region ++ ' ' :: rest)).drop 2).take 14 = region := by
    rw [List.drop_succ_cons, List.drop_succ_cons, List.drop_zero, List.take_left' hlen]
  have hdrop : (' ' :: ' ' :: (region ++ ' ' :: rest)).drop 17 = rest := by
    rw [List.drop_succ_cons, List.drop_succ_cons, ← List.drop_drop (i := 1) (j := 14),
      List.drop_left' hlen, List.drop_one, List.tail_cons]
  unfold parseAddressRow
  dsimp only
  rw [htake, hdrop, if_neg (by simp only [hlong, htwo, hthird]; simp), if_neg (by simp [hoffset]),
    if_neg hregion]

theorem parseAddressRow_fmtPlace (hd : lookupAddress a = some d) (x : Text) :
    parseAddressRow ("  ".toList ++ (fmtPlace d ++ x)) = some d.printedKey := by
  obtain ⟨r, hr, -, rfl⟩ := lookupAddress_eq_some hd
  have hfits := fits_namedRegions r hr
  obtain ⟨c, t, hname, hc⟩ := hfits.head
  have hkey : (r.desc a).key = (rstrip r.name.toList, fmtOffset (some (a - r.start))) := by
    simp [Desc.key, Region.desc, orText, hname]
  have hplain : ∀ c ∈ (fmtOffset (some (a - r.start))).take 6, isSpace c = false ∧ c.toLower = c :=
    fun c hc => plain_fmtOffset (List.mem_of_mem_take hc)
  have hlen : 6 ≤ (rjust 6 (fmtOffset (some (a - r.start)))).length := by
    simp only [rjust, List.length_append, List.length_replicate]
    omega
  have hoffset : strip ((rjust 6 (fmtOffset (some (a - r.start))) ++ x).take 6) =
      (fmtOffset (some (a - r.start))).take 6 := by
    rw [List.take_append_of_le_length hlen, Text.take_rjust, Text.strip_rjust (fun c hc => (hplain c hc).1)]
  have hlower : lower ((fmtOffset (some (a - r.start))).take 6) =
      (fmtOffset (some (a - r.start))).take 6 := by
    unfold lower
    refine (List.map_congr_left fun c hc => (hplain c hc).2).trans (List.map_id _)
  rw [fmtPlace_desc hfits, List.append_assoc, List.cons_append]
  refine (parseAddressRow_columns (Text.length_ljust hfits.length) ?_ ?_ ?_ ?_).trans ?_
  · simpa [ljust, hname] using hc
  · simp only [List.length_append]
    omega
  · rw [hoffset]
    simp [fmtOffset, startsWith]
  · rw [hfits.strip]
    exact hfits.key
  · rw [hfits.strip, hoffset, hlower, Desc.printedKey, hkey]

-- ---------------------------------------------------------------------------
-- Lists of values
-- ---------------------------------------------------------------------------

/-- The words of a list of values. -/
def valueWords (values : List Nat) : List Text :=
  if values = [] then ["(none)".toList]
  else if values.length ≤ 4 then values.map fmtValue
  else (values.take 4).map fmtValue ++
    ["...".toList, "(+".toList ++ dec (values.length - 4), "more)".toList]

theorem fmtValues_eq_words (values : List Nat) :
    fmtValues values = [' '].intercalate (valueWords values) := by
  unfold fmtValues valueWords
  split
  · simp
  split
  · rfl
  next hlong =>
    match values with
    | [] | [_] | [_, _] | [_, _, _] | [_, _, _, _] => exact absurd (by simp) hlong
    | v₁ :: v₂ :: v₃ :: v₄ :: v₅ :: vs => simp [List.intercalate_cons_cons]

theorem blank_valueWords (values : List Nat) : ∀ t ∈ valueWords values, ' ' ∉ t := by
  have hvalue : ∀ l : List Nat, ∀ t ∈ l.map fmtValue, ' ' ∉ t := by
    intro l t ht
    obtain ⟨v, -, rfl⟩ := List.mem_map.mp ht
    have hword : Word (hex v) := Text.word_toDigits (by decide) (by decide) v
    have hblank := hword.blank
    simp [fmtValue, hblank]
  have hdec := (Text.word_dec (values.length - 4)).blank
  unfold valueWords
  split
  · decide
  split
  · exact hvalue values
  · refine List.forall_mem_append.mpr ⟨hvalue _, ?_⟩
    simp [hdec]

theorem valueWords_ne_nil (values : List Nat) : valueWords values ≠ [] := by
  unfold valueWords
  split
  · simp
  split
  · simpa
  · simp

/-- Lists of which the report shows the same: four values and the length. -/
def SameShown (l l' : List Nat) : Prop := l.take 4 = l'.take 4 ∧ l.length = l'.length

theorem fmtValue_inj : Function.Injective fmtValue := fun _ _ h =>
  Text.hex_inj (List.append_cancel_left h)

theorem fmtValue_ne_none (v : Nat) : fmtValue v ≠ "(none)".toList := by
  simp [fmtValue]

theorem valueWords_cases (l : List Nat) :
    (l = [] ∧ valueWords l = ["(none)".toList]) ∨
    (l ≠ [] ∧ l.length ≤ 4 ∧ valueWords l = l.map fmtValue) ∨
    (4 < l.length ∧ valueWords l = (l.take 4).map fmtValue ++
      ["...".toList, "(+".toList ++ dec (l.length - 4), "more)".toList]) := by
  unfold valueWords
  split
  next hnil => exact .inl ⟨hnil, rfl⟩
  next hne =>
    split
    next hle => exact .inr (.inl ⟨hne, hle, rfl⟩)
    next hlong => exact .inr (.inr ⟨by omega, rfl⟩)

theorem ne_words_of_short {l l' : List Nat} (hle : l.length ≤ 4) (hlong : 4 < l'.length) :
    l.map fmtValue ≠ (l'.take 4).map fmtValue ++ [x, y, z] := by
  intro h
  have hlen := congrArg List.length h
  simp only [List.length_map, List.length_append, List.length_take, List.length_cons,
    List.length_nil] at hlen
  omega

theorem none_ne_words (hne : l ≠ []) : ["(none)".toList] ≠ l.map fmtValue ++ x := by
  cases l with
  | nil => exact absurd rfl hne
  | cons v l => exact fun h => fmtValue_ne_none v (List.cons.inj h).1.symm

theorem valueWords_inj (h : valueWords l = valueWords l') : SameShown l l' := by
  have htake : ∀ {l : List Nat}, 4 < l.length → l.take 4 ≠ [] := by
    intro l hlong hnil
    have hlen := congrArg List.length hnil
    simp only [List.length_take, List.length_nil] at hlen
    omega
  rcases valueWords_cases l with ⟨hnil, hw⟩ | ⟨hne, hle, hw⟩ | ⟨hlong, hw⟩ <;>
    rcases valueWords_cases l' with ⟨hnil', hw'⟩ | ⟨hne', hle', hw'⟩ | ⟨hlong', hw'⟩ <;>
    rw [hw, hw'] at h
  · rw [hnil, hnil']
    exact ⟨rfl, rfl⟩
  · rw [← List.append_nil (l'.map _)] at h
    exact absurd h (none_ne_words hne')
  · exact absurd h (none_ne_words (htake hlong'))
  · rw [← List.append_nil (l.map _)] at h
    exact absurd h.symm (none_ne_words hne)
  · obtain rfl := fmtValue_inj.list_map h
    exact ⟨rfl, rfl⟩
  · exact absurd h (ne_words_of_short hle hlong')
  · exact absurd h.symm (none_ne_words (htake hlong))
  · exact absurd h.symm (ne_words_of_short hle' hlong)
  · obtain ⟨hshown, hmore⟩ := List.append_inj' h rfl
    have hcount := (List.cons.inj (List.cons.inj hmore).2).1
    have hcount := Text.dec_inj (List.append_cancel_left hcount)
    exact ⟨fmtValue_inj.list_map hshown, by omega⟩

theorem fmtValues_eq_iff : fmtValues l = fmtValues l' ↔ SameShown l l' := by
  constructor
  · intro h
    rw [fmtValues_eq_words, fmtValues_eq_words] at h
    have hsplit := congrArg (List.splitOn ' ') h
    rw [List.splitOn_intercalate _ (blank_valueWords l) (valueWords_ne_nil l),
      List.splitOn_intercalate _ (blank_valueWords l') (valueWords_ne_nil l')] at hsplit
    exact valueWords_inj hsplit
  · rintro ⟨htake, hlen⟩
    have hnil : l = [] ↔ l' = [] := by
      rw [← List.length_eq_zero_iff, ← List.length_eq_zero_iff, hlen]
    unfold fmtValues
    simp only [hnil, hlen, htake]
    split
    · rfl
    split
    next hle =>
      rw [List.take_of_length_le (hlen ▸ hle), List.take_of_length_le hle] at htake
      rw [htake]
    · rfl

-- ---------------------------------------------------------------------------
-- What is left of a report
-- ---------------------------------------------------------------------------

def redact (volatile : List (Text × Text)) (m : Mismatch) : List Text :=
  ["  ".toList ++ fmtAddr m.desc, "    silicon: ".toList ++ fmtValues m.siliconValues,
    if m.desc.printedKey ∈ volatile then volatileValues
    else "    qemu:    ".toList ++ fmtValues m.qemuValues]

def redactedLines (volatile : List (Text × Text)) (d : Diff) : List Text :=
  ("silicon accesses: ".toList ++ dec d.siliconTotal) :: volatileTotal :: [] ::
    (unimplementedLines (d.unimplemented.map fmtRow) ++ [] ::
      (sectionHeader "read-value mismatches" d.valueMismatches.length ::
        orNone (d.valueMismatches.flatMap (redact volatile)) ++ [] ::
          extraLines (d.extraInQemu.map fmtRow)))

/-- Every row is of an address that is looked up, and says what was found. -/
structure Diff.Known (d : Diff) : Prop where
  unimplemented : ∀ r ∈ d.unimplemented, lookupAddress r.address = some r.desc
  valueMismatches : ∀ m ∈ d.valueMismatches, lookupAddress m.address = some m.desc
  extraInQemu : ∀ r ∈ d.extraInQemu, lookupAddress r.address = some r.desc

section
variable {volatile : List (Text × Text)}

theorem not_header (h : Text.Follows line) :
    startsWith line "qemu accesses:" = false ∧ startsWith line "== unimplemented" = false ∧
      startsWith line "== read-value mismatches" = false ∧
      startsWith line "== addresses only in qemu" = false := by
  cases line with
  | nil => exact ⟨rfl, rfl, rfl, rfl⟩
  | cons c line =>
    obtain rfl := h c rfl
    have hother : ∀ s : String, (∃ c, s.toList.head? = some c ∧ c ≠ ' ') →
        startsWith (' ' :: line) s = false := by
      rintro s ⟨c, hhead, hne⟩
      exact Text.startsWith_eq_false hhead hne _
    exact ⟨hother _ ⟨'q', rfl, by decide⟩, hother _ ⟨'=', rfl, by decide⟩,
      hother _ ⟨'=', rfl, by decide⟩, hother _ ⟨'=', rfl, by decide⟩⟩

theorem normalizeLine_kept (hsect : s.sect ≠ some .mismatch) (h : Text.Follows line) :
    normalizeLine volatile s line = (s, line) := by
  simp [normalizeLine, not_header h, hsect]

theorem normalizeLine_mismatch (h : Text.Follows line) (b : Bool) :
    normalizeLine volatile ⟨some .mismatch, b⟩ line =
      match parseAddressRow line with
      | some parsed => (⟨some .mismatch, parsed ∈ volatile⟩, line)
      | none =>
        if b ∧ startsWith line "    qemu:" then (⟨some .mismatch, false⟩, volatileValues)
        else (⟨some .mismatch, b⟩, line) := by
  simp [normalizeLine, not_header h]

theorem normalizeLines_kept (hsect : s.sect ≠ some .mismatch) (h : ∀ l ∈ ls, Text.Follows l)
    (rest : List Text) :
    normalizeLines volatile s (ls ++ rest) = ls ++ normalizeLines volatile s rest := by
  induction ls with
  | nil => rfl
  | cons l ls ih =>
    obtain ⟨hl, hls⟩ := List.forall_mem_cons.mp h
    rw [List.cons_append, normalizeLines, normalizeLine_kept hsect hl, ih hls, List.cons_append]

theorem startsWith_sectionHeader {s : String}
    (h : s.toList.length ≤ ("== ".toList ++ title.toList).length) (n : Nat) :
    startsWith (sectionHeader title n) s = startsWith ("== ".toList ++ title.toList) s := by
  unfold sectionHeader
  rw [List.append_assoc, List.append_assoc]
  exact Text.startsWith_append h

theorem normalizeLine_unimplemented (s : Scan) (n : Nat) :
    normalizeLine volatile s (sectionHeader "unimplemented addresses" n) =
      (⟨some .unimpl, false⟩, sectionHeader "unimplemented addresses" n) := by
  have hqemu : startsWith (sectionHeader "unimplemented addresses" n) "qemu accesses:" = false :=
    (startsWith_sectionHeader (by decide) n).trans (by decide)
  have hunimpl : startsWith (sectionHeader "unimplemented addresses" n) "== unimplemented" = true :=
    (startsWith_sectionHeader (by decide) n).trans (by decide)
  simp only [normalizeLine, hqemu, hunimpl, Bool.false_eq_true, if_false, if_true]

theorem normalizeLine_readValue (s : Scan) (n : Nat) :
    normalizeLine volatile s (sectionHeader "read-value mismatches" n) =
      (⟨some .mismatch, false⟩, sectionHeader "read-value mismatches" n) := by
  have hqemu : startsWith (sectionHeader "read-value mismatches" n) "qemu accesses:" = false :=
    (startsWith_sectionHeader (by decide) n).trans (by decide)
  have hunimpl : startsWith (sectionHeader "read-value mismatches" n) "== unimplemented" = false :=
    (startsWith_sectionHeader (by decide) n).trans (by decide)
  have hmis : startsWith (sectionHeader "read-value mismatches" n) "== read-value mismatches" = true :=
    (startsWith_sectionHeader (by decide) n).trans (by decide)
  simp only [normalizeLine, hqemu, hunimpl, hmis, Bool.false_eq_true, if_false, if_true]

theorem normalizeLine_onlyInQemu (s : Scan) (n : Nat) :
    normalizeLine volatile s (sectionHeader "addresses only in qemu" n) =
      (⟨some .extra, false⟩, sectionHeader "addresses only in qemu" n) := by
  have hqemu : startsWith (sectionHeader "addresses only in qemu" n) "qemu accesses:" = false :=
    (startsWith_sectionHeader (by decide) n).trans (by decide)
  have hunimpl : startsWith (sectionHeader "addresses only in qemu" n) "== unimplemented" = false :=
    (startsWith_sectionHeader (by decide) n).trans (by decide)
  have hmis : startsWith (sectionHeader "addresses only in qemu" n) "== read-value mismatches" = false :=
    (startsWith_sectionHeader (by decide) n).trans (by decide)
  have hextra : startsWith (sectionHeader "addresses only in qemu" n) "== addresses only in qemu" =
      true := (startsWith_sectionHeader (by decide) n).trans (by decide)
  simp only [normalizeLine, hqemu, hunimpl, hmis, hextra, Bool.false_eq_true, if_false, if_true]

theorem parseAddressRow_fmtAddr {d d' : Desc} (hd : lookupAddress a = some d)
    (hregion : d'.region = d.region) (hoffset : d'.offset = d.offset) :
    parseAddressRow ("  ".toList ++ fmtAddr d') = some d'.printedKey := by
  have hplace : fmtPlace d' = fmtPlace d := by rw [fmtPlace, fmtPlace, hregion, hoffset]
  have hkey : d'.printedKey = d.printedKey := by
    rw [Desc.printedKey, Desc.printedKey, Desc.key, Desc.key, hregion, hoffset]
  rw [hkey, fmtAddr, hplace]
  split
  · have hparse := parseAddressRow_fmtPlace hd []
    rwa [List.append_nil] at hparse
  · rw [List.append_assoc]
    exact parseAddressRow_fmtPlace hd _

theorem parseAddressRow_indented (t : Text) : parseAddressRow (' ' :: ' ' :: ' ' :: t) = none := by
  simp [parseAddressRow]

theorem normalizeLine_silicon (b : Bool) (x : Text) :
    normalizeLine volatile ⟨some .mismatch, b⟩ ("    silicon: ".toList ++ x) =
      (⟨some .mismatch, b⟩, "    silicon: ".toList ++ x) := by
  have hparse : parseAddressRow ("    silicon: ".toList ++ x) = none := parseAddressRow_indented _
  have hother : startsWith ("    silicon: ".toList ++ x) "    qemu:" = false :=
    (Text.startsWith_append (by decide)).trans (by decide)
  rw [normalizeLine_mismatch (Text.follows_append rfl _), hparse]
  exact if_neg fun h => Bool.false_ne_true (hother.symm.trans h.2)

theorem normalizeLine_qemu (b : Bool) (x : Text) :
    normalizeLine volatile ⟨some .mismatch, b⟩ ("    qemu:    ".toList ++ x) =
      (⟨some .mismatch, false⟩, if b then volatileValues else "    qemu:    ".toList ++ x) := by
  have hparse : parseAddressRow ("    qemu:    ".toList ++ x) = none := parseAddressRow_indented _
  have hqemu : startsWith ("    qemu:    ".toList ++ x) "    qemu:" = true :=
    (Text.startsWith_append (by decide)).trans (by decide)
  rw [normalizeLine_mismatch (Text.follows_append rfl _), hparse]
  cases b with
  | false => exact if_neg fun h => Bool.false_ne_true h.1
  | true => exact if_pos ⟨rfl, hqemu⟩

theorem normalizeLines_fmtMismatch (hm : lookupAddress m.address = some m.desc) (rest : List Text) :
    normalizeLines volatile ⟨some .mismatch, false⟩ (fmtMismatch m ++ rest) =
      redact volatile m ++ normalizeLines volatile ⟨some .mismatch, false⟩ rest := by
  have hrow : normalizeLine volatile ⟨some .mismatch, false⟩ ("  ".toList ++ fmtAddr m.desc) =
      (⟨some .mismatch, m.desc.printedKey ∈ volatile⟩, "  ".toList ++ fmtAddr m.desc) := by
    rw [normalizeLine_mismatch (Text.follows_append rfl _), parseAddressRow_fmtAddr hm rfl rfl]
  unfold fmtMismatch redact
  rw [List.cons_append, List.cons_append, List.cons_append, List.nil_append, normalizeLines,
    hrow, normalizeLines, normalizeLine_silicon, normalizeLines, normalizeLine_qemu]
  simp only [decide_eq_true_eq, List.cons_append, List.nil_append]

theorem normalizeLines_mismatches {ms : List Mismatch} (hms : ∀ m ∈ ms, lookupAddress m.address = some m.desc)
    (rest : List Text) :
    normalizeLines volatile ⟨some .mismatch, false⟩ (ms.flatMap fmtMismatch ++ rest) =
      ms.flatMap (redact volatile) ++ normalizeLines volatile ⟨some .mismatch, false⟩ rest := by
  induction ms with
  | nil => rfl
  | cons m ms ih =>
    obtain ⟨hm, hms⟩ := List.forall_mem_cons.mp hms
    rw [List.flatMap_cons, List.flatMap_cons, List.append_assoc, List.append_assoc,
      normalizeLines_fmtMismatch hm, ih hms]

theorem follows_fmtRow (rows : List Row) : ∀ l ∈ rows.map fmtRow, Text.Follows l := by
  intro l hl
  obtain ⟨r, -, rfl⟩ := List.mem_map.mp hl
  simp only [fmtRow, List.append_assoc]
  exact Text.follows_append rfl _

theorem follows_orNone (h : ∀ l ∈ rows, Text.Follows l) : ∀ l ∈ orNone rows, Text.Follows l := by
  unfold orNone
  split
  · simp [Text.Follows]
  · exact h

theorem normalizeLines_unimplemented (s : Scan) (rows : List Row) (rest : List Text) :
    normalizeLines volatile s (unimplementedLines (rows.map fmtRow) ++ rest) =
      unimplementedLines (rows.map fmtRow) ++ normalizeLines volatile ⟨some .unimpl, false⟩ rest := by
  have htable : ∀ l ∈ (if rows.map fmtRow = [] then [] else tableHeader :: rows.map fmtRow),
      Text.Follows l := by
    split
    · nofun
    · refine List.forall_mem_cons.mpr ⟨?_, follows_fmtRow rows⟩
      exact Text.follows_of_head? rfl
  unfold unimplementedLines
  rw [List.cons_append, normalizeLines, normalizeLine_unimplemented,
    normalizeLines_kept (by simp) (follows_orNone htable), List.cons_append]

theorem normalizeLines_extra (s : Scan) (rows : List Row) :
    normalizeLines volatile s (extraLines (rows.map fmtRow)) = extraLines (rows.map fmtRow) := by
  have hkept : normalizeLines volatile ⟨some .extra, false⟩ (orNone (rows.map fmtRow) ++ []) =
      orNone (rows.map fmtRow) ++ normalizeLines volatile ⟨some .extra, false⟩ [] :=
    normalizeLines_kept (by simp) (follows_orNone (follows_fmtRow rows)) []
  rw [normalizeLines, List.append_nil] at hkept
  unfold extraLines
  rw [normalizeLines, normalizeLine_onlyInQemu, hkept]

theorem normalizeLines_mismatchLines (s : Scan)
    (hms : ∀ m ∈ ms, lookupAddress (Mismatch.address m) = some m.desc) (rest : List Text) :
    normalizeLines volatile s (mismatchLines ms ++ [] :: rest) =
      sectionHeader "read-value mismatches" ms.length :: orNone (ms.flatMap (redact volatile)) ++
        [] :: normalizeLines volatile ⟨some .mismatch, false⟩ rest := by
  have hempty : normalizeLine volatile ⟨some .mismatch, false⟩ [] = (⟨some .mismatch, false⟩, []) := by
    rw [normalizeLine_mismatch Text.follows_nil]
    rfl
  unfold mismatchLines
  rw [List.cons_append, normalizeLines, normalizeLine_readValue, List.cons_append]
  refine congrArg _ ?_
  cases ms with
  | nil =>
    have hnone : normalizeLine volatile ⟨some .mismatch, false⟩ "  (none)".toList =
        (⟨some .mismatch, false⟩, "  (none)".toList) := by
      rw [normalizeLine_mismatch (by simp [Text.Follows])]
      rfl
    simp only [List.flatMap_nil, orNone, if_true, List.cons_append, List.nil_append, normalizeLines,
      hnone, hempty]
  | cons m ms =>
    have hshown : orNone ((m :: ms).flatMap fmtMismatch) = (m :: ms).flatMap fmtMismatch :=
      if_neg (List.cons_ne_nil _ _)
    have hleft : orNone ((m :: ms).flatMap (redact volatile)) = (m :: ms).flatMap (redact volatile) :=
      if_neg (List.cons_ne_nil _ _)
    rw [hshown, hleft, normalizeLines_mismatches hms, normalizeLines, hempty]

theorem normalizeLine_siliconTotal (x : Text) :
    normalizeLine volatile ⟨none, false⟩ ("silicon accesses: ".toList ++ x) =
      (⟨none, false⟩, "silicon accesses: ".toList ++ x) := by
  have hother : ∀ s : String, (∃ c, s.toList.head? = some c ∧ c ≠ 's') →
      startsWith ("silicon accesses: ".toList ++ x) s = false := by
    rintro s ⟨c, hhead, hne⟩
    exact Text.startsWith_eq_false hhead hne _
  have hqemu := hother "qemu accesses:" ⟨'q', rfl, by decide⟩
  have hun := hother "== unimplemented" ⟨'=', rfl, by decide⟩
  have hmis := hother "== read-value mismatches" ⟨'=', rfl, by decide⟩
  have hextra := hother "== addresses only in qemu" ⟨'=', rfl, by decide⟩
  simp only [normalizeLine, hqemu, hun, hmis, hextra, Bool.false_eq_true, if_false, reduceCtorEq]

theorem normalizeLine_qemuTotal (s : Scan) (x : Text) :
    normalizeLine volatile s ("qemu accesses:    ".toList ++ x) = (s, volatileTotal) := by
  have hqemu : startsWith ("qemu accesses:    ".toList ++ x) "qemu accesses:" = true :=
    (Text.startsWith_append (by decide)).trans (by decide)
  simp only [normalizeLine, hqemu, if_true]

theorem normalizeLines_reportLines (hd : d.Known) :
    normalizeLines volatile ⟨none, false⟩ (reportLines d) = redactedLines volatile d := by
  have hempty : ∀ {s : Scan}, s.sect ≠ some .mismatch → normalizeLine volatile s [] = (s, []) :=
    fun hs => normalizeLine_kept hs Text.follows_nil
  unfold reportLines redactedLines
  rw [normalizeLines, normalizeLine_siliconTotal, normalizeLines, normalizeLine_qemuTotal,
    normalizeLines, hempty (by simp),
    normalizeLines_unimplemented, normalizeLines, hempty (by simp),
    normalizeLines_mismatchLines _ hd.valueMismatches, normalizeLines_extra]

-- ---------------------------------------------------------------------------
-- Reports that are the same text
-- ---------------------------------------------------------------------------

theorem line_lookup (hd : lookupAddress a = some d) :
    (∀ t ∈ d.region, Line t) ∧ ∀ t ∈ d.regName, Line t := by
  obtain ⟨r, hr, -, rfl⟩ := lookupAddress_eq_some hd
  have hfits := fits_namedRegions r hr
  refine ⟨?_, ?_⟩
  · rintro t ⟨⟩
    exact hfits.line
  · intro t ht
    obtain ⟨name, hname, rfl⟩ := Option.map_eq_some_iff.mp ht
    obtain ⟨before, after, hregs, -⟩ := List.lookup_eq_some_iff.mp hname
    have hmem : (a - r.start, name) ∈ r.namedRegs := by
      rw [hregs]
      exact List.mem_append_right _ List.mem_cons_self
    exact hfits.names _ hmem

theorem line_known (hd : d.Known) : ∀ l ∈ reportLines d, Line l := by
  have hrows : ∀ rows : List Row, (∀ r ∈ rows, lookupAddress r.address = some r.desc) →
      ∀ l ∈ rows.map fmtRow, Line l := by
    intro rows hrows l hl
    obtain ⟨r, hr, rfl⟩ := List.mem_map.mp hl
    obtain ⟨hregion, hname⟩ := line_lookup (hrows r hr)
    exact line_fmtRow hregion hname
  refine line_reportLines d (hrows _ hd.unimplemented) (fun l hl => ?_) (hrows _ hd.extraInQemu)
  obtain ⟨m, hm, hl⟩ := List.mem_flatMap.mp hl
  obtain ⟨hregion, hname⟩ := line_lookup (hd.valueMismatches m hm)
  exact line_fmtMismatch hregion hname hl

theorem reportLines_concat (d : Diff) : ∃ ls l, reportLines d = ls ++ [l] ∧ l ≠ [] := by
  have hrows : ∀ l ∈ orNone (d.extraInQemu.map fmtRow), l ≠ [] := by
    unfold orNone
    split
    · simp
    · intro l hl
      obtain ⟨r, -, rfl⟩ := List.mem_map.mp hl
      simp [fmtRow]
  rcases List.eq_nil_or_concat' (orNone (d.extraInQemu.map fmtRow)) with hnil | ⟨ls, l, hlast⟩
  · unfold orNone at hnil
    split at hnil
    · cases hnil
    · contradiction
  · refine ⟨("silicon accesses: ".toList ++ dec d.siliconTotal) ::
      ("qemu accesses:    ".toList ++ dec d.qemuTotal) :: [] ::
      (unimplementedLines (d.unimplemented.map fmtRow) ++ [] :: (mismatchLines d.valueMismatches ++ [] ::
        sectionHeader "addresses only in qemu" (d.extraInQemu.map fmtRow).length :: ls)), l, ?_,
      hrows l (by simp [hlast])⟩
    unfold reportLines extraLines
    rw [hlast]
    simp only [List.cons_append, List.append_assoc]

theorem normalize_formatDiff (hd : d.Known) :
    normalize volatile (formatDiff d) = lines (redactedLines volatile d) := by
  obtain ⟨ls, l, hlast, hne⟩ := reportLines_concat d
  have hlines := line_known hd
  have hl : Line l := hlines l (by simp [hlast])
  have hsplit : splitlines (formatDiff d) = reportLines d :=
    Text.splitlines_lines hlines (by simpa [hlast] using hne)
  have hend : (formatDiff d).getLast? ≠ some '\n' := by
    unfold formatDiff
    rw [hlast]
    exact Text.getLast?_lines hl hne ls
  unfold normalize
  rw [hsplit, normalizeLines_reportLines hd, if_neg hend, List.append_nil]

/-- Mismatches of which the gate sees the same. -/
def Mismatch.ShownAlike (volatile : List (Text × Text)) (m m' : Mismatch) : Prop :=
  m.address = m'.address ∧ SameShown m.siliconValues m'.siliconValues ∧
    (m.desc.printedKey ∉ volatile → SameShown m.qemuValues m'.qemuValues)

theorem redact_eq_iff (hm : lookupAddress m.address = some m.desc)
    (hm' : lookupAddress m'.address = some m'.desc) :
    redact volatile m = redact volatile m' ↔ m.ShownAlike volatile m' := by
  unfold redact Mismatch.ShownAlike
  rw [← fmtValues_eq_iff, ← fmtValues_eq_iff]
  constructor
  · intro h
    obtain ⟨haddr, h⟩ := List.cons.inj h
    obtain ⟨hsilicon, h⟩ := List.cons.inj h
    obtain ⟨hqemu, -⟩ := List.cons.inj h
    have haddr := fmtAddr_inj hm hm' (List.append_cancel_left haddr)
    have hdesc : m.desc = m'.desc := by
      rw [haddr] at hm
      exact Option.some.inj (hm.symm.trans hm')
    refine ⟨haddr, List.append_cancel_left hsilicon, fun hkey => ?_⟩
    rw [if_neg hkey, if_neg (hdesc ▸ hkey)] at hqemu
    exact List.append_cancel_left hqemu
  · rintro ⟨haddr, hsilicon, hqemu⟩
    have hdesc : m.desc = m'.desc := by
      rw [haddr] at hm
      exact Option.some.inj (hm.symm.trans hm')
    rw [← hdesc, hsilicon]
    by_cases hkey : m.desc.printedKey ∈ volatile
    · rw [if_pos hkey, if_pos hkey]
    · rw [if_neg hkey, if_neg hkey, hqemu hkey]

theorem flatMap_redact_iff {ms ms' : List Mismatch}
    (hms : ∀ m ∈ ms, lookupAddress m.address = some m.desc)
    (hms' : ∀ m ∈ ms', lookupAddress m.address = some m.desc) :
    (ms.length = ms'.length ∧ ms.flatMap (redact volatile) = ms'.flatMap (redact volatile)) ↔
      List.Forall₂ (Mismatch.ShownAlike volatile) ms ms' := by
  induction ms generalizing ms' with
  | nil => cases ms' <;> simp
  | cons m ms ih =>
    cases ms' with
    | nil => simp
    | cons m' ms' =>
      obtain ⟨hm, hms⟩ := List.forall_mem_cons.mp hms
      obtain ⟨hm', hms'⟩ := List.forall_mem_cons.mp hms'
      have hlen : (redact volatile m).length = (redact volatile m').length := rfl
      rw [List.forall₂_cons, ← redact_eq_iff hm hm', ← ih hms hms', List.flatMap_cons,
        List.flatMap_cons, List.length_cons, List.length_cons, Nat.add_right_cancel_iff]
      constructor
      · rintro ⟨hcount, h⟩
        obtain ⟨hfirst, hrest⟩ := List.append_inj h hlen
        exact ⟨hfirst, hcount, hrest⟩
      · rintro ⟨hfirst, hcount, hrest⟩
        exact ⟨hcount, by rw [hfirst, hrest]⟩

theorem rows_of_map {rows rows' : List Row} (h : ∀ r ∈ rows, lookupAddress r.address = some r.desc)
    (h' : ∀ r ∈ rows', lookupAddress r.address = some r.desc)
    (heq : rows.map fmtRow = rows'.map fmtRow) : rows = rows' := by
  induction rows generalizing rows' with
  | nil =>
    cases rows' with
    | nil => rfl
    | cons r' rows' => cases heq
  | cons r rows ih =>
    cases rows' with
    | nil => cases heq
    | cons r' rows' =>
      obtain ⟨hr, hrows⟩ := List.forall_mem_cons.mp h
      obtain ⟨hr', hrows'⟩ := List.forall_mem_cons.mp h'
      obtain ⟨hfirst, hrest⟩ := List.cons.inj heq
      rw [fmtRow_inj hr hr' hfirst, ih hrows hrows' hrest]

/-- Comparisons of which the gate sees the same. -/
structure Diff.ShownAlike (volatile : List (Text × Text)) (d d' : Diff) : Prop where
  siliconTotal : d.siliconTotal = d'.siliconTotal
  unimplemented : d.unimplemented = d'.unimplemented
  extraInQemu : d.extraInQemu = d'.extraInQemu
  valueMismatches :
    List.Forall₂ (Mismatch.ShownAlike volatile) d.valueMismatches d'.valueMismatches

theorem length_flatMap_redact (ms : List Mismatch) :
    (ms.flatMap (redact volatile)).length = 3 * ms.length := by
  induction ms with
  | nil => rfl
  | cons m ms ih =>
    rw [List.flatMap_cons, List.length_append, ih, List.length_cons]
    simp only [redact, List.length_cons, List.length_nil]
    omega

theorem line_redactedLines (hd : d.Known) : ∀ l ∈ redactedLines volatile d, Line l := by
  rw [← normalizeLines_reportLines hd]
  exact line_normalizeLines _ (line_known hd)

theorem redactedLines_inj (hd : d.Known) (hd' : d'.Known)
    (h : redactedLines volatile d = redactedLines volatile d') : d.ShownAlike volatile d' := by
  unfold redactedLines at h
  obtain ⟨htotal, h⟩ := List.cons.inj h
  obtain ⟨-, h⟩ := List.cons.inj h
  obtain ⟨-, h⟩ := List.cons.inj h
  obtain ⟨hun, h⟩ := unimplementedLines_append_inj h
  obtain ⟨-, h⟩ := List.cons.inj h
  rw [List.cons_append, List.cons_append] at h
  obtain ⟨hheader, h⟩ := List.cons.inj h
  have hcount := sectionHeader_inj hheader
  have hlen : (d.valueMismatches.flatMap (redact volatile)).length =
      (d'.valueMismatches.flatMap (redact volatile)).length := by
    rw [length_flatMap_redact, length_flatMap_redact, hcount]
  obtain ⟨hmis, h⟩ := List.append_inj h (length_orNone hlen)
  have hextra := extraLines_inj (List.cons.inj h).2
  exact
    { siliconTotal := Text.dec_inj (List.append_cancel_left htotal)
      unimplemented := rows_of_map hd.unimplemented hd'.unimplemented hun
      extraInQemu := rows_of_map hd.extraInQemu hd'.extraInQemu hextra
      valueMismatches := (flatMap_redact_iff hd.valueMismatches hd'.valueMismatches).mp
        ⟨hcount, orNone_inj hlen hmis⟩ }

theorem normalize_eq_iff (hd : d.Known) (hd' : d'.Known) :
    normalize volatile (formatDiff d) = normalize volatile (formatDiff d') ↔
      d.ShownAlike volatile d' := by
  rw [normalize_formatDiff hd, normalize_formatDiff hd']
  constructor
  · intro h
    exact redactedLines_inj hd hd' (Text.lines_inj (line_redactedLines hd) (line_redactedLines hd')
      (List.cons_ne_nil _ _) (List.cons_ne_nil _ _) h)
  · rintro ⟨htotal, hun, hextra, hmis⟩
    obtain ⟨hcount, hmis⟩ := (flatMap_redact_iff hd.valueMismatches hd'.valueMismatches).mpr hmis
    unfold redactedLines
    rw [htotal, hun, hextra, hcount, hmis]

end

-- ---------------------------------------------------------------------------
-- What the gate is for
-- ---------------------------------------------------------------------------

/-- The same register, with the same values on silicon and, unless it is volatile, in
QEMU. -/
def Mismatch.Agrees (volatile : List (Text × Text)) (m m' : Mismatch) : Prop :=
  m.address = m'.address ∧ m.desc = m'.desc ∧ m.siliconValues = m'.siliconValues ∧
    (m.desc.key ∉ volatile → m.qemuValues = m'.qemuValues)

/-- Comparisons that differ in volatile fields only. -/
structure Diff.Agrees (volatile : List (Text × Text)) (d d' : Diff) : Prop where
  siliconTotal : d.siliconTotal = d'.siliconTotal
  unimplemented : d.unimplemented = d'.unimplemented
  extraInQemu : d.extraInQemu = d'.extraInQemu
  valueMismatches : List.Forall₂ (Mismatch.Agrees volatile) d.valueMismatches d'.valueMismatches

/-- The report shows all of a row that counts, and its offset names the same register
in six characters. -/
def Mismatch.Exact (volatile : List (Text × Text)) (m : Mismatch) : Prop :=
  m.siliconValues.length ≤ 4 ∧ (m.desc.printedKey ∈ volatile ↔ m.desc.key ∈ volatile) ∧
    (m.desc.key ∉ volatile → m.qemuValues.length ≤ 4)

section
variable {volatile : List (Text × Text)} {d d' : Diff} {m m' : Mismatch}

theorem sameShown_iff_eq {l l' : List Nat} (h : l.length ≤ 4) : SameShown l l' ↔ l = l' := by
  constructor
  · rintro ⟨htake, hlen⟩
    rwa [List.take_of_length_le h, List.take_of_length_le (hlen ▸ h)] at htake
  · rintro rfl
    exact ⟨rfl, rfl⟩

theorem Mismatch.Exact.shownAlike_iff (h : m.Exact volatile)
    (hm : lookupAddress m.address = some m.desc) (hm' : lookupAddress m'.address = some m'.desc) :
    m.ShownAlike volatile m' ↔ m.Agrees volatile m' := by
  obtain ⟨hsilicon, hkey, hqemu⟩ := h
  unfold Mismatch.ShownAlike Mismatch.Agrees
  rw [sameShown_iff_eq hsilicon, hkey]
  constructor
  · rintro ⟨haddr, hsil, hvalues⟩
    have hdesc : m.desc = m'.desc := by
      rw [haddr] at hm
      exact Option.some.inj (hm.symm.trans hm')
    exact ⟨haddr, hdesc, hsil, fun hv => (sameShown_iff_eq (hqemu hv)).mp (hvalues hv)⟩
  · rintro ⟨haddr, -, hsil, hvalues⟩
    exact ⟨haddr, hsil, fun hv => (sameShown_iff_eq (hqemu hv)).mpr (hvalues hv)⟩

theorem forall₂_shownAlike_iff {ms ms' : List Mismatch} (h : ∀ m ∈ ms, m.Exact volatile)
    (hms : ∀ m ∈ ms, lookupAddress m.address = some m.desc)
    (hms' : ∀ m ∈ ms', lookupAddress m.address = some m.desc) :
    List.Forall₂ (Mismatch.ShownAlike volatile) ms ms' ↔
      List.Forall₂ (Mismatch.Agrees volatile) ms ms' := by
  induction ms generalizing ms' with
  | nil => cases ms' <;> simp
  | cons m ms ih =>
    cases ms' with
    | nil => simp
    | cons m' ms' =>
      obtain ⟨hexact, h⟩ := List.forall_mem_cons.mp h
      obtain ⟨hm, hms⟩ := List.forall_mem_cons.mp hms
      obtain ⟨hm', hms'⟩ := List.forall_mem_cons.mp hms'
      rw [List.forall₂_cons, List.forall₂_cons, hexact.shownAlike_iff hm hm', ih h hms hms']

theorem shownAlike_iff_agrees (h : ∀ m ∈ d.valueMismatches, m.Exact volatile) (hd : d.Known)
    (hd' : d'.Known) : d.ShownAlike volatile d' ↔ d.Agrees volatile d' := by
  have hiff := forall₂_shownAlike_iff h hd.valueMismatches hd'.valueMismatches
  constructor
  · rintro ⟨htotal, hun, hextra, hmis⟩
    exact ⟨htotal, hun, hextra, hiff.mp hmis⟩
  · rintro ⟨htotal, hun, hextra, hmis⟩
    exact ⟨htotal, hun, hextra, hiff.mpr hmis⟩

/-- Other values in one row. -/
def Diff.setValues (d : Diff) (m : Mismatch) (silicon qemu : List Nat) : Diff :=
  { d with valueMismatches := d.valueMismatches.map fun x =>
      if x = m then { m with siliconValues := silicon, qemuValues := qemu } else x }

theorem Diff.Known.setValues (hd : d.Known) (hm : m ∈ d.valueMismatches) (silicon qemu : List Nat) :
    (d.setValues m silicon qemu).Known where
  unimplemented := hd.unimplemented
  extraInQemu := hd.extraInQemu
  valueMismatches := by
    intro x hx
    obtain ⟨y, hy, rfl⟩ := List.mem_map.mp hx
    split
    · exact hd.valueMismatches m hm
    · exact hd.valueMismatches y hy

theorem forall₂_setValues {R : Mismatch → Mismatch → Prop} (hrefl : ∀ x, R x x)
    (hm : m ∈ d.valueMismatches) :
    List.Forall₂ R d.valueMismatches (Diff.setValues d m silicon qemu).valueMismatches ↔
      R m { m with siliconValues := silicon, qemuValues := qemu } := by
  unfold Diff.setValues
  rw [List.forall₂_map_right_iff, List.forall₂_same]
  constructor
  · intro h
    simpa using h m hm
  · intro h x hx
    split
    next heq =>
      rw [heq]
      exact h
    · exact hrefl x

theorem setValues_alike_iff (hd : d.Known) (hm : m ∈ d.valueMismatches)
    (h : ∀ d' : Diff, d'.Known → (d.ShownAlike volatile d' ↔ d.Agrees volatile d'))
    (silicon qemu : List Nat) :
    (SameShown m.siliconValues silicon ∧ (m.desc.printedKey ∉ volatile → SameShown m.qemuValues qemu)) ↔
      (m.siliconValues = silicon ∧ (m.desc.key ∉ volatile → m.qemuValues = qemu)) := by
  have hshown : List.Forall₂ (Mismatch.ShownAlike volatile) d.valueMismatches
      (d.setValues m silicon qemu).valueMismatches ↔ _ :=
    forall₂_setValues (fun _ => ⟨rfl, ⟨rfl, rfl⟩, fun _ => ⟨rfl, rfl⟩⟩) hm
  have hagrees : List.Forall₂ (Mismatch.Agrees volatile) d.valueMismatches
      (d.setValues m silicon qemu).valueMismatches ↔ _ :=
    forall₂_setValues (fun _ => ⟨rfl, rfl, rfl, fun _ => rfl⟩) hm
  have hiff := h _ (hd.setValues hm silicon qemu)
  constructor
  · intro hsame
    have hshown := hiff.mp ⟨rfl, rfl, rfl, hshown.mpr ⟨rfl, hsame⟩⟩
    exact (hagrees.mp hshown.valueMismatches).2.2
  · intro hsame
    have hagrees := hiff.mpr ⟨rfl, rfl, rfl, hagrees.mpr ⟨rfl, rfl, hsame⟩⟩
    exact (hshown.mp hagrees.valueMismatches).2

theorem exists_sameShown (h : 4 < l.length) : ∃ l', SameShown l l' ∧ l ≠ l' := by
  refine ⟨l.take 4 ++ (l.drop 4).map (· + 1), ⟨?_, ?_⟩, fun heq => ?_⟩
  · rw [List.take_append_of_le_length (by simp; omega), List.take_take, Nat.min_self]
  · rw [List.length_append, List.length_map, ← List.length_append, List.take_append_drop]
  · have hdrop := congrArg (List.drop 4) heq
    rw [List.drop_left' (by simp; omega)] at hdrop
    cases hcase : l.drop 4 with
    | nil =>
      have hlen := congrArg List.length hcase
      simp only [List.length_drop, List.length_nil] at hlen
      omega
    | cons v vs => simp [hcase] at hdrop

theorem not_sameShown_cons (v : Nat) (l : List Nat) : ¬ SameShown l (v :: l) := fun h =>
  Nat.succ_ne_self _ h.2.symm

theorem exact_of_alike_iff
    (h : ∀ silicon qemu, (SameShown m.siliconValues silicon ∧
        (m.desc.printedKey ∉ volatile → SameShown m.qemuValues qemu)) ↔
      (m.siliconValues = silicon ∧ (m.desc.key ∉ volatile → m.qemuValues = qemu))) :
    m.Exact volatile := by
  have hsame : ∀ l : List Nat, SameShown l l := fun _ => ⟨rfl, rfl⟩
  refine ⟨?_, ?_, ?_⟩
  · by_contra hlong
    obtain ⟨silicon, hshown, hne⟩ := exists_sameShown (Nat.lt_of_not_le hlong)
    exact hne ((h silicon m.qemuValues).mp ⟨hshown, fun _ => hsame _⟩).1
  · have hother := h m.siliconValues (0 :: m.qemuValues)
    constructor
    · intro hprinted
      by_contra hkey
      have heq := (hother.mp ⟨hsame _, fun hnot => absurd hprinted hnot⟩).2 hkey
      exact List.cons_ne_self _ _ heq.symm
    · intro hkey
      by_contra hprinted
      have hshown := (hother.mpr ⟨rfl, fun hnot => absurd hkey hnot⟩).2 hprinted
      exact not_sameShown_cons _ _ hshown
  · intro hkey
    by_contra hlong
    obtain ⟨qemu, hshown, hne⟩ := exists_sameShown (Nat.lt_of_not_le hlong)
    exact hne (((h m.siliconValues qemu).mp ⟨hsame _, fun _ => hshown⟩).2 hkey)

/-- The gate tells a comparison from exactly those that differ in more than volatile
fields if and only if the report shows its rows exactly; and a second pass changes
nothing. -/
theorem gate_exact_iff (hd : d.Known) :
    ((∀ d' : Diff, d'.Known →
        (normalize volatile (formatDiff d) = normalize volatile (formatDiff d') ↔
          d.Agrees volatile d')) ∧
      ∀ text, normalize volatile (normalize volatile text) = normalize volatile text) ↔
      ∀ m ∈ d.valueMismatches, m.Exact volatile := by
  constructor
  · rintro ⟨hgate, -⟩ m hm
    have halike : ∀ d' : Diff, d'.Known → (d.ShownAlike volatile d' ↔ d.Agrees volatile d') :=
      fun d' hd' => (normalize_eq_iff hd hd').symm.trans (hgate d' hd')
    exact exact_of_alike_iff (setValues_alike_iff hd hm halike)
  · intro hexact
    refine ⟨fun d' hd' => ?_, normalize_twice⟩
    rw [normalize_eq_iff hd hd', shownAlike_iff_agrees hexact hd hd']

end

/-- The records of reads of one register. -/
def readsAt (address : Nat) (values : List Nat) : List Rec :=
  values.filterMap fun v => (lookupAddress address).map fun desc => ⟨address, .R, v, desc⟩

def pwrState : Desc := ⟨some "buttress ".toList, some "PWR_STATE".toList, some 0x5c⟩

theorem sort_eq_list {s : Finset Nat} {l : List Nat} (hnodup : l.Nodup) (hle : l.Pairwise (· ≤ ·))
    (h : s = l.toFinset) : s.sort = l := by
  rw [h]
  exact (List.toFinset_sort (· ≤ ·) hnodup).mpr hle

theorem of_lists (hs : s = silicon.toFinset) (hq : q = qemu.toFinset) (hdisjoint : Disjoint s q)
    (hsilicon : silicon.Nodup ∧ silicon.Pairwise (· ≤ ·))
    (hqemu : qemu.Nodup ∧ qemu.Pairwise (· ≤ ·)) :
    Mismatch.of a d s q = ⟨a, d, silicon, qemu, silicon, qemu⟩ := by
  unfold Mismatch.of
  rw [Finset.sdiff_eq_self_of_disjoint hdisjoint, Finset.sdiff_eq_self_of_disjoint hdisjoint.symm,
    sort_eq_list hsilicon.1 hsilicon.2 hs, sort_eq_list hqemu.1 hqemu.2 hq]

theorem diff_pwrState_two : diff (readsAt 0x9000005c [1, 2]) (readsAt 0x9000005c [3]) =
    ⟨2, 1, [], [⟨0x9000005c, pwrState, [1, 2], [3], [1, 2], [3]⟩], []⟩ := by
  have hdiff : diff (readsAt 0x9000005c [1, 2]) (readsAt 0x9000005c [3]) =
      ⟨2, 1, [], [.of 0x9000005c pwrState {2, 1} {3}], []⟩ := rfl
  have hof : Mismatch.of 0x9000005c pwrState {2, 1} {3} =
      ⟨0x9000005c, pwrState, [1, 2], [3], [1, 2], [3]⟩ :=
    of_lists (by decide) (by decide) (by decide) (by decide) (by decide)
  rw [hdiff, hof]

theorem diff_pwrState_five : ∀ v ∈ [4, 5],
    diff (readsAt 0x9000005c [0, 1, 2, 3, v]) (readsAt 0x9000005c [9]) =
      ⟨5, 1, [], [⟨0x9000005c, pwrState, [0, 1, 2, 3, v], [9], [0, 1, 2, 3, v], [9]⟩], []⟩ := by
  have hdiff : ∀ v ∈ [4, 5], diff (readsAt 0x9000005c [0, 1, 2, 3, v]) (readsAt 0x9000005c [9]) =
      ⟨5, 1, [], [.of 0x9000005c pwrState {v, 3, 2, 1, 0} {9}], []⟩ := by
    simp only [List.forall_mem_cons, List.not_mem_nil, false_imp_iff, implies_true, and_true]
    exact ⟨rfl, rfl⟩
  intro v hv
  have hof : Mismatch.of 0x9000005c pwrState {v, 3, 2, 1, 0} {9} =
      ⟨0x9000005c, pwrState, [0, 1, 2, 3, v], [9], [0, 1, 2, 3, v], [9]⟩ := by
    simp only [List.mem_cons, List.not_mem_nil, or_false] at hv
    rcases hv with rfl | rfl
    · exact of_lists (by decide) (by decide) (by decide) (by decide) (by decide)
    · exact of_lists (by decide) (by decide) (by decide) (by decide) (by decide)
  rw [hdiff v hv, hof]

/-- `PWR_STATE` with two values on silicon and one in QEMU, on the list of volatile
registers. -/
theorem gate_exact_pwrState :
    (∀ d' : Diff, d'.Known →
        (normalize [("buttress".toList, "0x05c".toList)]
            (formatDiff (diff (readsAt 0x9000005c [1, 2]) (readsAt 0x9000005c [3]))) =
          normalize [("buttress".toList, "0x05c".toList)] (formatDiff d') ↔
          (diff (readsAt 0x9000005c [1, 2]) (readsAt 0x9000005c [3])).Agrees
            [("buttress".toList, "0x05c".toList)] d')) ∧
      ∀ text, normalize [("buttress".toList, "0x05c".toList)]
          (normalize [("buttress".toList, "0x05c".toList)] text) =
        normalize [("buttress".toList, "0x05c".toList)] text := by
  rw [diff_pwrState_two]
  refine (gate_exact_iff ⟨by decide +kernel, by decide +kernel, by decide +kernel⟩).mpr ?_
  unfold Mismatch.Exact
  decide +kernel

/-- Another fifth value on silicon, and the same report. -/
theorem fifth_value_unseen :
    ¬ ∀ volatile : List (Text × Text),
      (∀ d d' : Diff, d.Known → d'.Known →
        (normalize volatile (formatDiff d) = normalize volatile (formatDiff d') ↔
          d.Agrees volatile d')) ∧
      ∀ text, normalize volatile (normalize volatile text) = normalize volatile text := by
  intro h
  have hiff := (h []).1 (diff (readsAt 0x9000005c [0, 1, 2, 3, 4]) (readsAt 0x9000005c [9]))
    (diff (readsAt 0x9000005c [0, 1, 2, 3, 5]) (readsAt 0x9000005c [9]))
  rw [diff_pwrState_five 4 (by decide), diff_pwrState_five 5 (by decide)] at hiff
  have hknown : ∀ d : Diff, d.unimplemented = [] → d.extraInQemu = [] →
      (∀ m ∈ d.valueMismatches, lookupAddress m.address = some m.desc) → d.Known := by
    intro d hun hextra hmis
    exact ⟨by simp [hun], hmis, by simp [hextra]⟩
  have hagrees := (hiff (hknown _ rfl rfl (by decide +kernel)) (hknown _ rfl rfl (by decide +kernel))).mp
    (by decide +kernel)
  obtain ⟨-, -, -, hmis⟩ := hagrees
  obtain ⟨⟨-, -, hsilicon, -⟩, -⟩ := List.forall₂_cons.mp hmis
  revert hsilicon
  decide

end Ipu4.Mmiotrace
