import Ipu4.Lib.Numerals
import Ipu4.Lib.Regex
import Ipu4.Mmiotrace.Baseline

/-!
# Two readers of a trace

`postprocess_trace.py` takes the columns of a line by their number, `diff.py` has a
regular expression. The expression expects an address in the column where the time
of the access stands, and matches no access that the other reads.
-/

namespace Ipu4.Mmiotrace

open Numeral (float int16 isHexDigit)
open Regex (char star boundary group lit plus)
open Text (isSpace strip rstrip)

section
variable (u : Alphabet)

-- ---------------------------------------------------------------------------
-- By columns
-- ---------------------------------------------------------------------------

def opOf : Text → Option Op
  | ['R'] => some .R
  | ['W'] => some .W
  | _ => none

/-- The record of an access. The time is kept as the text of its number. -/
structure Parsed where
  op : Op
  timestamp : Text
  address : Int
  lookup : Option Desc
  value : Int
  deriving DecidableEq

/-- `lookup_address`: no region is below 0. -/
def lookupInt : Int → Option Desc
  | .ofNat address => lookupAddress address
  | .negSucc _ => none

def parseRw (line : Text) : Option Parsed :=
  match line.splitOn ' ' with
  | p₀ :: _ :: p₂ :: _ :: p₄ :: p₅ :: _ => do
    let op ← opOf p₀
    let timestamp ← float u p₂
    let address ← int16 u p₄
    let value ← int16 u p₅
    pure ⟨op, timestamp, address, lookupInt address, value⟩
  | _ => none

-- ---------------------------------------------------------------------------
-- By a regular expression
-- ---------------------------------------------------------------------------

structure Access where
  op : Op
  offset : Int
  value : Int
  deriving DecidableEq, Repr

/-- `(0x[0-9a-fA-F]+)`. -/
def hexGroup : Regex := group ((lit '0').seq ((lit 'x').seq (plus isHexDigit)))

/-- `_RE`: an op, a width and three addresses. -/
def accessRe : Regex :=
  (star isSpace).seq <| (group (char fun c => c == 'R' || c == 'W')).seq <|
  (plus isSpace).seq <| (plus u.isDecimal).seq <|
  (plus isSpace).seq <| hexGroup.seq <|
  (plus isSpace).seq <| hexGroup.seq <|
  (plus isSpace).seq <| hexGroup.seq boundary

/-- A line in the loop of `parse`. -/
def diffLine (line : Text) : Option Access :=
  match (accessRe u).first u.word line with
  | some ⟨_, [op, offset, _, value], _⟩ => do
    let op ← opOf op
    let offset ← int16 u offset
    let value ← int16 u value
    pure ⟨op, offset, value⟩
  | _ => none

def parse (lines : List Text) : List Access := lines.filterMap (diffLine u)

theorem diffLine_isSome (line : Text) :
    (diffLine u line).isSome = ((accessRe u).first u.word line).isSome := by
  cases h : (accessRe u).first u.word line with
  | none => simp [diffLine, h]
  | some m =>
    have hgroups := Regex.first_groups h
    have hhex : ∀ t ∈ hexGroup.lang, (int16 u t).isSome := by
      rintro t ⟨_, h₀, _, ⟨_, h₁, digits, hdigits, rfl⟩, rfl⟩
      obtain rfl := Regex.mem_lang_lit.mp h₀
      obtain rfl := Regex.mem_lang_lit.mp h₁
      obtain ⟨hne, hall⟩ := Regex.mem_lang_plus.mp hdigits
      exact Numeral.int16_isSome u hne hall
    obtain ⟨text, groups, rest⟩ := m
    cases hgroups with
    | cons hop hgroups =>
    cases hgroups with
    | cons hoffset hgroups =>
    cases hgroups with
    | cons _ hgroups =>
    cases hgroups with
    | cons hvalue hgroups =>
    cases hgroups
    obtain ⟨o, ho, rfl⟩ := hop
    obtain ⟨offset, hoffset⟩ := Option.isSome_iff_exists.mp (hhex _ hoffset)
    obtain ⟨value, hvalue⟩ := Option.isSome_iff_exists.mp (hhex _ hvalue)
    obtain ⟨op, hop⟩ : ∃ op, opOf [o] = some op := by
      simp only [Bool.or_eq_true, beq_iff_eq] at ho
      rcases ho with rfl | rfl
      · exact ⟨.R, rfl⟩
      · exact ⟨.W, rfl⟩
    simp [diffLine, h, hop, hoffset, hvalue]

-- ---------------------------------------------------------------------------
-- Traces
-- ---------------------------------------------------------------------------

def Parsed.access (r : Parsed) : Access := ⟨r.op, r.address, r.value⟩

/-- The accesses that `postprocess_trace.py` sees. -/
def parsedAccesses (lines : List Text) : List Access :=
  lines.filterMap fun line => (parseRw u (strip line)).map Parsed.access

/-- The first word of a line is R or W. -/
def IsAccess (line : Text) : Prop :=
  (line.dropWhile isSpace).takeWhile (fun c => !isSpace c) ∈ [['R'], ['W']]

def width (line : Text) : Text := ((strip line).splitOn ' ').getD 1 []

/-- The lines of an mmiotrace: those of an access have the columns of one, with single blanks
between them. -/
def IsTrace (lines : List Text) : Prop :=
  ∀ line ∈ lines, IsAccess line →
    (parseRw u (strip line)).isSome ∧ width line ≠ [] ∧ ∀ c ∈ width line, isSpace c = false

/-- Both readers see the same, in each line and over the whole trace. -/
structure Agree (lines : List Text) : Prop where
  line : ∀ line ∈ lines, ∀ r, parseRw u (strip line) = some r → diffLine u line = some r.access
  trace : parse u lines = parsedAccesses u lines

end

section
variable {u : Alphabet} {line : Text}

theorem parseRw_columns (h : parseRw u line = some r) : ∃ o w time more,
    line = o :: ' ' :: (w ++ ' ' :: (time ++ ' ' :: more)) ∧ (line.splitOn ' ').getD 1 [] = w ∧
    (o = 'R' ∨ o = 'W') ∧ (float u time).isSome := by
  have hjoin : [' '].intercalate (line.splitOn ' ') = line := List.intercalate_splitOn ' '
  unfold parseRw at h
  split at h
  · next p₀ p₁ p₂ p₃ p₄ p₅ rest heq =>
    simp only [Option.bind_eq_bind, Option.bind_eq_some_iff] at h
    obtain ⟨op, hop, t, ht, -⟩ := h
    obtain ⟨o, rfl, ho⟩ : ∃ o, p₀ = [o] ∧ (o = 'R' ∨ o = 'W') := by
      unfold opOf at hop
      split at hop
      · exact ⟨_, rfl, .inl rfl⟩
      · exact ⟨_, rfl, .inr rfl⟩
      · cases hop
    refine ⟨o, p₁, p₂, [' '].intercalate (p₃ :: p₄ :: p₅ :: rest), ?_, by rw [heq]; rfl, ho, by rw [ht]; rfl⟩
    rw [← hjoin, heq]
    simp [List.intercalate]
  · cases h

/-- A text that the expression matches begins with blanks, the op, blanks, digits, blanks and
the prefix of a number. -/
theorem accessRe_prefix (h : (accessRe u).first u.word line = some m) : ∃ b o b₁ w b₂ more,
    line = b ++ o :: (b₁ ++ (w ++ (b₂ ++ '0' :: 'x' :: more))) ∧ (∀ c ∈ b, isSpace c) ∧ (o = 'R' ∨ o = 'W') ∧
    (b₁ ≠ [] ∧ ∀ c ∈ b₁, isSpace c) ∧ (w ≠ [] ∧ ∀ c ∈ w, u.isDecimal c) ∧ (b₂ ≠ [] ∧ ∀ c ∈ b₂, isSpace c) := by
  obtain ⟨hline, b, hb, _, ⟨_, ⟨o, ho, rfl⟩, _, ⟨b₁, hb₁, _, ⟨w, hw, _, ⟨b₂, hb₂, _, ⟨_, ⟨_, h₀, _,
    ⟨_, h₁, digits, -, rfl⟩, rfl⟩, tail, -, rfl⟩, rfl⟩, rfl⟩, rfl⟩, rfl⟩, htext⟩ := Regex.first_lang h
  obtain rfl := Regex.mem_lang_lit.mp h₀
  obtain rfl := Regex.mem_lang_lit.mp h₁
  refine ⟨b, o, b₁, w, b₂, digits ++ (tail ++ m.rest), ?_, hb, ?_, Regex.mem_lang_plus.mp hb₁,
    Regex.mem_lang_plus.mp hw, Regex.mem_lang_plus.mp hb₂⟩
  · rw [hline, ← htext]
    simp
  · simpa using ho

theorem isSpace_op (h : o = 'R' ∨ o = 'W') : isSpace o = false := by
  rcases h with rfl | rfl <;> rfl

theorem isSpace_decimal (h : u.isDecimal c = true) : isSpace c = false := by
  cases hs : isSpace c with
  | false => rfl
  | true =>
    rw [Alphabet.isDecimal, u.decimal_space c hs] at h
    cases h

theorem diffLine_of_parseRw (h : parseRw u (strip line) = some r) (hne : width line ≠ [])
    (hw : ∀ c ∈ width line, isSpace c = false) : diffLine u line = none := by
  obtain ⟨o, w, time, more, hstrip, hwidth, ho, htime⟩ := parseRw_columns h
  cases hm : (accessRe u).first u.word line with
  | none =>
    rw [← Option.isNone_iff_eq_none, ← Option.not_isSome, diffLine_isSome, hm]
    rfl
  | some m =>
    exfalso
    obtain ⟨a, trail, hline, ha, -⟩ := Text.exists_strip line
    obtain ⟨b, o', b₁, w', b₂, more', hline', hb, ho', ⟨-, hb₁⟩, ⟨hw'ne, hw'⟩, ⟨hb₂ne, hb₂⟩⟩ := accessRe_prefix hm
    rw [hstrip] at hline
    rw [width, hwidth] at hne hw
    obtain ⟨c, ws, rfl⟩ := List.exists_cons_of_ne_nil hne
    obtain ⟨c', ws', rfl⟩ := List.exists_cons_of_ne_nil hw'ne
    obtain ⟨s, b₂', rfl⟩ := List.exists_cons_of_ne_nil hb₂ne
    obtain ⟨hc, hws⟩ := List.forall_mem_cons.mp hw
    obtain ⟨hc', hws'⟩ := List.forall_mem_cons.mp hw'
    obtain ⟨hs, hb₂'⟩ := List.forall_mem_cons.mp hb₂
    simp only [List.cons_append, List.append_assoc] at hline hline'
    -- the op, then the width, then the blank behind it are in the same place
    obtain ⟨-, -, hrest⟩ := Text.span_unique ha hb (isSpace_op ho) (isSpace_op ho') (hline.symm.trans hline')
    obtain ⟨-, -, hrest⟩ := Text.span_unique (a := [' ']) (List.forall_mem_singleton.mpr rfl) hb₁ hc
      (isSpace_decimal hc') hrest
    obtain ⟨-, -, hrest⟩ := Text.span_unique (p := fun c => !isSpace c) (fun c hc => by simp [hws c hc])
      (fun c hc => by simp [isSpace_decimal (hws' c hc)]) rfl (by simp [hs]) hrest
    -- the expression has an x where the time is
    obtain ⟨t, ht⟩ := Option.isSome_iff_exists.mp htime
    obtain ⟨⟨d, hd, hdspace⟩, hx⟩ := Numeral.float_chars ht
    obtain ⟨e, f, g, rfl, he, hf⟩ := Text.exists_first hd hdspace
    simp only [List.cons_append, List.append_assoc] at hrest
    obtain ⟨-, -, hrest⟩ := Text.span_unique he hb₂' hf rfl hrest
    cases g with
    | nil => cases hrest
    | cons g gs =>
      obtain rfl := (List.cons.inj hrest).1
      exact hx (by simp)

theorem isAccess_of_op (ha : ∀ c ∈ a, isSpace c) (ho : o = 'R' ∨ o = 'W') (hc : isSpace c = true) (t : Text) :
    IsAccess (a ++ o :: c :: t) := by
  have hop := isSpace_op ho
  rw [IsAccess, List.dropWhile_append_of_pos ha, List.dropWhile_cons_of_neg (by simp [hop]),
    List.takeWhile_cons_of_pos (by simp [hop]), List.takeWhile_cons_of_neg (by simp [hc])]
  rcases ho with rfl | rfl
  · exact .head _
  · exact .tail _ (.head _)

theorem isAccess_of_parseRw (h : parseRw u (strip line) = some r) : IsAccess line := by
  obtain ⟨o, w, time, more, hstrip, -, ho, -⟩ := parseRw_columns h
  obtain ⟨a, trail, hline, ha, -⟩ := Text.exists_strip line
  rw [hline, hstrip]
  exact isAccess_of_op ha ho rfl _

theorem isAccess_of_diffLine (h : diffLine u line = some a) : IsAccess line := by
  have hsome := diffLine_isSome u line
  rw [h] at hsome
  obtain ⟨m, hm⟩ := Option.isSome_iff_exists.mp hsome.symm
  obtain ⟨b, o, b₁, w, b₂, more, hline, hb, ho, ⟨hne, hb₁⟩, -⟩ := accessRe_prefix hm
  obtain ⟨c, b₁, rfl⟩ := List.exists_cons_of_ne_nil hne
  rw [hline]
  exact isAccess_of_op hb ho (hb₁ c List.mem_cons_self) _

/-- The readers agree on a trace if and only if it has no accesses. -/
theorem parsers_agree_iff {lines : List Text} (h : IsTrace u lines) :
    Agree u lines ↔ ∀ line ∈ lines, ¬ IsAccess line := by
  constructor
  · rintro ⟨hline, -⟩ line hin hacc
    obtain ⟨hsome, hne, hw⟩ := h line hin hacc
    obtain ⟨r, hr⟩ := Option.isSome_iff_exists.mp hsome
    have hagree := hline line hin r hr
    rw [diffLine_of_parseRw hr hne hw] at hagree
    cases hagree
  · intro hnone
    have hdiff : ∀ line ∈ lines, diffLine u line = none := fun line hin =>
      Option.eq_none_iff_forall_ne_some.mpr fun a ha => hnone line hin (isAccess_of_diffLine ha)
    have hrw : ∀ line ∈ lines, parseRw u (strip line) = none := fun line hin =>
      Option.eq_none_iff_forall_ne_some.mpr fun r hr => hnone line hin (isAccess_of_parseRw hr)
    refine ⟨fun line hin r hr => ?_, ?_⟩
    · rw [hrw line hin] at hr
      cases hr
    · have hleft : parse u lines = [] := List.filterMap_eq_nil_iff.mpr hdiff
      have hright : parsedAccesses u lines = [] := by
        refine List.filterMap_eq_nil_iff.mpr fun line hin => ?_
        rw [hrw line hin]
        rfl
      rw [hleft, hright]

end

-- ---------------------------------------------------------------------------
-- A line of a trace
-- ---------------------------------------------------------------------------

def sampleLine : Text := "R 4 1.5 1 0x9000005c 0xfa02003 0x0 0\n".toList

theorem isTrace_sample : IsTrace .ascii [sampleLine] := by
  intro line hin _
  obtain rfl := List.mem_singleton.mp hin
  have hread : (parseRw .ascii (strip sampleLine)).isSome := by
    decide +kernel
  have hwidth : width sampleLine = ['4'] := by
    decide +kernel
  refine ⟨hread, ?_⟩
  rw [hwidth]
  exact ⟨List.cons_ne_nil _ _, fun c hc => by simp only [List.mem_singleton] at hc; subst hc; rfl⟩

theorem parsers_agree_sample :
    Agree .ascii [sampleLine] ↔ ∀ line ∈ [sampleLine], ¬ IsAccess line :=
  parsers_agree_iff isTrace_sample

/-- A read of `PWR_STATE` is seen by one reader only. -/
theorem parsers_disagree_sample : IsTrace .ascii [sampleLine] ∧
    (parsedAccesses .ascii [sampleLine] = [⟨.R, 0x9000005c, 0xfa02003⟩] ∧ parse .ascii [sampleLine] = []) ∧
    ¬ Agree .ascii [sampleLine] := by
  have hruns : parsedAccesses .ascii [sampleLine] = [⟨.R, 0x9000005c, 0xfa02003⟩] ∧
      parse .ascii [sampleLine] = [] := by
    decide +kernel
  refine ⟨isTrace_sample, hruns, fun hagree => ?_⟩
  have htrace := hagree.trace
  rw [hruns.1, hruns.2] at htrace
  cases htrace

end Ipu4.Mmiotrace
