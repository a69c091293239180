import Mathlib.Data.Nat.Digits.Defs
import Mathlib.Data.List.Basic

/-!
# Text

Numbers in a base, padded columns, words and lines, as Python's format strings
and `splitlines` have them. Each comes with what can be read back from it: the
digits of a number determine it, a padded column ends at the first blank after
its word, and lines that are joined are found again by splitting.
-/

namespace Ipu4

abbrev Text := List Char

namespace Text

-- ---------------------------------------------------------------------------
-- Numbers
-- ---------------------------------------------------------------------------

def dec (n : Nat) : Text := Nat.toDigits 10 n

def hex (n : Nat) : Text := Nat.toDigits 16 n

def zfill (w : Nat) (t : Text) : Text := List.replicate (w - t.length) '0' ++ t

def digitValue (c : Char) : Nat := if c.isDigit then c.toNat - 48 else c.toNat - 87

def ofDigits (b : Nat) (t : Text) : Nat := t.foldl (fun n c => b * n + digitValue c) 0

theorem digitValue_digitChar : ∀ d < 16, digitValue (Nat.digitChar d) = d := by
  decide

theorem ofDigits_toDigits (hb : 1 < b) (hb' : b ≤ 16) (n : Nat) :
    ofDigits b (Nat.toDigits b n) = n := by
  induction n using Nat.strongRecOn with
  | ind n ih =>
    by_cases hn : n < b
    · rw [Nat.toDigits_of_lt_base hn]
      simp [ofDigits, digitValue_digitChar n (by omega)]
    · have hdiv : n / b < n := Nat.div_lt_self (by omega) hb
      have hmod := Nat.mod_lt n (by omega : 0 < b)
      have hih := ih (n / b) hdiv
      unfold ofDigits at hih ⊢
      rw [Nat.toDigits_of_base_le hb (by omega), List.foldl_append, hih, List.foldl_cons,
        List.foldl_nil, digitValue_digitChar _ (by omega)]
      exact Nat.div_add_mod n b

theorem mem_toDigits (hb : 1 < b) (hb' : b ≤ 16) (n : Nat) (h : c ∈ Nat.toDigits b n) :
    ∃ d < 16, c = Nat.digitChar d := by
  induction n using Nat.strongRecOn with
  | ind n ih =>
    by_cases hn : n < b
    · rw [Nat.toDigits_of_lt_base hn] at h
      exact ⟨n, by omega, List.mem_singleton.mp h⟩
    · rw [Nat.toDigits_of_base_le hb (by omega)] at h
      have hmod := Nat.mod_lt n (by omega : 0 < b)
      rcases List.mem_append.mp h with h | h
      · exact ih (n / b) (Nat.div_lt_self (by omega) hb) h
      · exact ⟨n % b, by omega, List.mem_singleton.mp h⟩

theorem ofDigits_zfill (b w : Nat) (t : Text) : ofDigits b (zfill w t) = ofDigits b t := by
  have hzeros : ∀ k, (List.replicate k '0').foldl (fun n c => b * n + digitValue c) 0 = 0 := by
    intro k
    induction k with
    | zero => rfl
    | succ k ih =>
      rw [List.replicate_succ, List.foldl_cons]
      exact ih
  rw [ofDigits, zfill, List.foldl_append, hzeros]
  rfl

theorem dec_inj (h : dec m = dec n) : m = n := by
  have heq := congrArg (ofDigits 10) h
  rwa [dec, dec, ofDigits_toDigits (by decide) (by decide),
    ofDigits_toDigits (by decide) (by decide)] at heq

theorem hex_inj (h : hex m = hex n) : m = n := by
  have heq := congrArg (ofDigits 16) h
  rwa [hex, hex, ofDigits_toDigits (by decide) (by decide),
    ofDigits_toDigits (by decide) (by decide)] at heq

theorem zfill_hex_inj (h : zfill w (hex m) = zfill w (hex n)) : m = n := by
  have heq := congrArg (ofDigits 16) h
  rwa [ofDigits_zfill, ofDigits_zfill, hex, hex, ofDigits_toDigits (by decide) (by decide),
    ofDigits_toDigits (by decide) (by decide)] at heq

-- ---------------------------------------------------------------------------
-- Columns
-- ---------------------------------------------------------------------------

def ljust (w : Nat) (t : Text) : Text := t ++ List.replicate (w - t.length) ' '

def rjust (w : Nat) (t : Text) : Text := List.replicate (w - t.length) ' ' ++ t

/-- A text without blanks. -/
structure Word (t : Text) : Prop where
  ne_nil : t ≠ []
  blank : ' ' ∉ t

/-- What follows a word: nothing, or a blank. -/
def Follows (t : Text) : Prop := ∀ c ∈ t.head?, c = ' '

theorem follows_nil : Follows [] := by
  simp [Follows]

theorem follows_of_head? {t : Text} (h : t.head? = some ' ') : Follows t := fun _ hc =>
  Option.some.inj (hc.symm.trans h)

theorem follows_append {p : Text} (h : p.head? = some ' ') (x : Text) : Follows (p ++ x) :=
  follows_of_head? (by simp [List.head?_append, h])

theorem takeWhile_word (ha : ' ' ∉ a) (hx : Follows x) : (a ++ x).takeWhile (· ≠ ' ') = a := by
  induction a with
  | nil =>
    cases x with
    | nil => rfl
    | cons c x => simp [hx c rfl]
  | cons c a ih =>
    have hc := List.ne_of_not_mem_cons ha
    rw [List.cons_append, List.takeWhile_cons_of_pos (by simpa using Ne.symm hc),
      ih (List.not_mem_of_not_mem_cons ha)]

theorem dropWhile_rjust (w : Nat) (ha : Word a) (x : Text) :
    (rjust w a ++ x).dropWhile (· = ' ') = a ++ x := by
  obtain ⟨hne, hblank⟩ := ha
  unfold rjust
  generalize w - a.length = k
  induction k with
  | zero =>
    cases a with
    | nil => exact absurd rfl hne
    | cons c a =>
      have hc := List.ne_of_not_mem_cons hblank
      simp [Ne.symm hc]
  | succ k ih => simpa [List.replicate_succ] using ih

theorem rjust_append_inj (ha : Word a) (hb : Word b) (hx : Follows x) (hy : Follows y)
    (h : rjust w a ++ x = rjust w b ++ y) : a = b ∧ x = y := by
  have hdrop := congrArg (List.dropWhile (· = ' ')) h
  rw [dropWhile_rjust w ha, dropWhile_rjust w hb] at hdrop
  have htake := congrArg (List.takeWhile (· ≠ ' ')) hdrop
  rw [takeWhile_word ha.blank hx, takeWhile_word hb.blank hy] at htake
  subst htake
  exact ⟨rfl, List.append_cancel_left hdrop⟩

theorem length_ljust (h : t.length ≤ w) : (ljust w t).length = w := by
  simp only [ljust, List.length_append, List.length_replicate]
  omega

-- ---------------------------------------------------------------------------
-- Words of numbers
-- ---------------------------------------------------------------------------

theorem digitChar_ne_blank : ∀ d < 16, Nat.digitChar d ≠ ' ' := by
  decide

theorem word_toDigits (hb : 1 < b) (hb' : b ≤ 16) (n : Nat) : Word (Nat.toDigits b n) := by
  refine ⟨Nat.toDigits_ne_nil, fun h => ?_⟩
  obtain ⟨d, hd, heq⟩ := mem_toDigits hb hb' n h
  exact digitChar_ne_blank d hd heq.symm

theorem word_dec (n : Nat) : Word (dec n) := word_toDigits (by decide) (by decide) n

-- ---------------------------------------------------------------------------
-- Prefixes and blanks
-- ---------------------------------------------------------------------------

/-- What `strip` removes. -/
def isSpace (c : Char) : Bool :=
  let n := c.toNat
  n ∈ [0x09, 0x0a, 0x0b, 0x0c, 0x0d, 0x1c, 0x1d, 0x1e, 0x1f, 0x20, 0x85, 0xa0, 0x1680, 0x2028,
    0x2029, 0x202f, 0x205f, 0x3000] || (0x2000 ≤ n && n ≤ 0x200a)

def rstrip (t : Text) : Text := (t.reverse.dropWhile isSpace).reverse

def strip (t : Text) : Text := rstrip (t.dropWhile isSpace)

/-- `lower`, of ASCII letters. -/
def lower (t : Text) : Text := t.map Char.toLower

def startsWith (line : Text) (s : String) : Bool := s.toList.isPrefixOf line

theorem startsWith_eq_false {s : String} (h : s.toList.head? = some c') (hne : c' ≠ c) (t : Text) :
    startsWith (c :: t) s = false := by
  unfold startsWith
  cases hs : s.toList with
  | nil => simp [hs] at h
  | cons c'' t' =>
    rw [hs] at h
    obtain rfl : c'' = c' := Option.some.inj h
    simp [List.isPrefixOf_cons_cons, hne]

theorem startsWith_append (h : s.toList.length ≤ p.length) : startsWith (p ++ x) s = startsWith p s := by
  unfold startsWith
  generalize s.toList = t at h
  induction t generalizing p with
  | nil => simp
  | cons c t ih =>
    cases p with
    | nil => simp at h
    | cons c' p => rw [List.cons_append, List.isPrefixOf_cons_cons, List.isPrefixOf_cons_cons,
      ih (by simpa using h)]

theorem dropWhile_isSpace {t : Text} (h : ∀ c ∈ t, isSpace c = false) : t.dropWhile isSpace = t := by
  cases t with
  | nil => rfl
  | cons c t => rw [List.dropWhile_cons_of_neg (by simp [h c List.mem_cons_self])]

theorem mem_takeWhile {t : Text} {p : Char → Bool} (h : c ∈ t.takeWhile p) : p c = true :=
  List.all_eq_true.mp List.all_takeWhile c h

theorem exists_strip (t : Text) : ∃ a b, t = a ++ (strip t ++ b) ∧ (∀ c ∈ a, isSpace c) ∧ ∀ c ∈ b, isSpace c := by
  refine ⟨t.takeWhile isSpace, ((t.dropWhile isSpace).reverse.takeWhile isSpace).reverse, ?_,
    fun c hc => mem_takeWhile hc, fun c hc => mem_takeWhile (List.mem_reverse.mp hc)⟩
  rw [strip, rstrip, ← List.reverse_append, List.takeWhile_append_dropWhile, List.reverse_reverse,
    List.takeWhile_append_dropWhile]

theorem exists_first {t : Text} {p : Char → Bool} (hc : c ∈ t) (hp : p c = false) :
    ∃ a x b, t = a ++ x :: b ∧ (∀ c ∈ a, p c) ∧ p x = false := by
  induction t with
  | nil => cases hc
  | cons x t ih =>
    cases hx : p x with
    | false => exact ⟨[], x, t, rfl, by simp, hx⟩
    | true =>
      rcases List.mem_cons.mp hc with rfl | hc
      · rw [hx] at hp
        cases hp
      · obtain ⟨a, y, b, rfl, ha, hy⟩ := ih hc
        exact ⟨x :: a, y, b, rfl, List.forall_mem_cons.mpr ⟨hx, ha⟩, hy⟩

theorem span_unique {a a' : Text} {p : Char → Bool} (ha : ∀ c ∈ a, p c) (ha' : ∀ c ∈ a', p c)
    (hx : p x = false) (hx' : p x' = false) (h : a ++ x :: b = a' ++ x' :: b') :
    a = a' ∧ x = x' ∧ b = b' := by
  have htake := congrArg (List.takeWhile p) h
  rw [List.takeWhile_append_of_pos ha, List.takeWhile_append_of_pos ha',
    List.takeWhile_cons_of_neg (by simp [hx]),
    List.takeWhile_cons_of_neg (by simp [hx']), List.append_nil, List.append_nil] at htake
  subst htake
  exact ⟨rfl, List.cons.inj (List.append_cancel_left h)⟩

theorem strip_rjust (h : ∀ c ∈ t, isSpace c = false) (w : Nat) : strip (rjust w t) = t := by
  have hdrop : ∀ k, (List.replicate k ' ' ++ t).dropWhile isSpace = t := by
    intro k
    induction k with
    | zero => exact dropWhile_isSpace h
    | succ k ih =>
      have hspace : isSpace ' ' = true := by decide
      rw [List.replicate_succ, List.cons_append, List.dropWhile_cons_of_pos hspace, ih]
  unfold strip rjust rstrip
  rw [hdrop, dropWhile_isSpace (fun c hc => h c (List.mem_reverse.mp hc)), List.reverse_reverse]

theorem take_rjust (w : Nat) (t : Text) : (rjust w t).take w = rjust w (t.take w) := by
  unfold rjust
  rw [List.take_append, List.length_replicate, List.length_take, List.take_replicate]
  rcases Nat.le_total t.length w with hle | hle
  · rw [Nat.min_eq_right hle, Nat.min_eq_right (Nat.sub_le _ _), List.take_of_length_le hle,
      List.take_of_length_le (by omega)]
  · rw [Nat.sub_eq_zero_of_le hle, Nat.min_eq_left hle, Nat.sub_self, Nat.min_zero, Nat.sub_zero]

-- ---------------------------------------------------------------------------
-- Lines
-- ---------------------------------------------------------------------------

/-- The characters at which `splitlines` splits. -/
def isLineSep (c : Char) : Bool :=
  c.toNat ∈ [0x0a, 0x0b, 0x0c, 0x0d, 0x1c, 0x1d, 0x1e, 0x85, 0x2028, 0x2029]

/-- `splitlines` with the line read so far; CR LF is one end of line, and after the
last one no empty line follows. -/
def splitlinesFrom (line : Text) : Text → List Text
  | [] => if line = [] then [] else [line]
  | '\r' :: '\n' :: t => line :: splitlinesFrom [] t
  | c :: t => if isLineSep c then line :: splitlinesFrom [] t else splitlinesFrom (line ++ [c]) t

def splitlines (t : Text) : List Text := splitlinesFrom [] t

def lines (ls : List Text) : Text := ['\n'].intercalate ls

/-- A text without any end of line in it. -/
def Line (t : Text) : Prop := ∀ c ∈ t, isLineSep c = false

instance (t : Text) : Decidable (Line t) := List.decidableBAll (isLineSep · = false) t

theorem splitlinesFrom_cons (h : isLineSep c = false) (line t : Text) :
    splitlinesFrom line (c :: t) = splitlinesFrom (line ++ [c]) t := by
  have hcr : c ≠ '\r' := by
    rintro rfl
    cases h
  rw [splitlinesFrom]
  · rw [if_neg (by simp [h])]
  · rintro t' rfl -
    exact hcr rfl

theorem splitlinesFrom_line (hl : Line l) (line t : Text) :
    splitlinesFrom line (l ++ t) = splitlinesFrom (line ++ l) t := by
  induction l generalizing line with
  | nil => simp
  | cons c l ih =>
    obtain ⟨hc, hl⟩ := List.forall_mem_cons.mp hl
    rw [List.cons_append, splitlinesFrom_cons hc, ih hl]
    simp

theorem splitlinesFrom_newline (line t : Text) :
    splitlinesFrom line ('\n' :: t) = line :: splitlinesFrom [] t := by
  rw [splitlinesFrom]
  · rfl
  · rintro t' h
    cases h

theorem splitlines_lines (hls : ∀ l ∈ ls, Line l) (hlast : ∀ l ∈ ls.getLast?, l ≠ []) :
    splitlines (lines ls) = ls := by
  unfold splitlines lines
  induction ls with
  | nil => rfl
  | cons l ls ih =>
    obtain ⟨hl, hls⟩ := List.forall_mem_cons.mp hls
    cases ls with
    | nil =>
      have hne := hlast l rfl
      have hsplit := splitlinesFrom_line hl [] []
      rw [List.append_nil, List.nil_append] at hsplit
      rw [List.intercalate_singleton, hsplit, splitlinesFrom, if_neg hne]
    | cons l' ls =>
      rw [List.intercalate_cons_cons, List.append_assoc, splitlinesFrom_line hl, List.nil_append,
        List.singleton_append, splitlinesFrom_newline, ih hls (by simpa using hlast)]

theorem splitlines_lines_newline (hls : ∀ l ∈ ls, Line l) (hne : ls ≠ []) :
    splitlines (lines ls ++ ['\n']) = ls := by
  unfold splitlines lines
  induction ls with
  | nil => exact absurd rfl hne
  | cons l ls ih =>
    obtain ⟨hl, hls⟩ := List.forall_mem_cons.mp hls
    cases ls with
    | nil =>
      rw [List.intercalate_singleton, splitlinesFrom_line hl, List.nil_append,
        splitlinesFrom_newline]
      rfl
    | cons l' ls =>
      rw [List.intercalate_cons_cons, List.append_assoc, List.append_assoc, splitlinesFrom_line hl,
        List.nil_append, List.singleton_append, splitlinesFrom_newline, ih hls (by simp)]

theorem line_splitlinesFrom (hline : Line line) (h : l ∈ splitlinesFrom line t) : Line l := by
  have hnil : Line [] := by simp [Line]
  fun_induction splitlinesFrom line t with
  | case1 => cases h
  | case2 line hne =>
    obtain rfl := List.mem_singleton.mp h
    exact hline
  | case3 line t ih =>
    rcases List.mem_cons.mp h with rfl | h
    · exact hline
    · exact ih hnil h
  | case4 line c t _ hc ih =>
    rcases List.mem_cons.mp h with rfl | h
    · exact hline
    · exact ih hnil h
  | case5 line c t _ hc ih =>
    refine ih (fun c' hc' => ?_) h
    rcases List.mem_append.mp hc' with hc' | hc'
    · exact hline c' hc'
    · obtain rfl := List.mem_singleton.mp hc'
      exact Bool.eq_false_of_not_eq_true hc

theorem Line.not_mem (h : Line l) : '\n' ∉ l := fun hmem => by cases h _ hmem

theorem lines_inj (h₁ : ∀ l ∈ ls, Line l) (h₂ : ∀ l ∈ ls', Line l) (hne : ls ≠ []) (hne' : ls' ≠ [])
    (h : lines ls = lines ls') : ls = ls' := by
  have hsplit := congrArg (List.splitOn '\n') h
  unfold lines at hsplit
  rwa [List.splitOn_intercalate _ (fun l hl => (h₁ l hl).not_mem) hne,
    List.splitOn_intercalate _ (fun l hl => (h₂ l hl).not_mem) hne'] at hsplit

theorem splitlinesFrom_ne_nil (h : t ≠ []) (line : Text) : splitlinesFrom line t ≠ [] := by
  fun_induction splitlinesFrom line t with
  | case1 => exact absurd rfl h
  | case2 => simp
  | case3 => simp
  | case4 => simp
  | case5 line c t _ hc ih =>
    cases t with
    | nil => simp [splitlinesFrom]
    | cons c' t => exact ih (List.cons_ne_nil _ _)

theorem lines_concat (hne : ls ≠ []) (l : Text) : lines (ls ++ [l]) = lines ls ++ '\n' :: l := by
  unfold lines
  induction ls with
  | nil => exact absurd rfl hne
  | cons l' ls ih =>
    cases ls with
    | nil => simp [List.intercalate_cons_cons]
    | cons l'' ls =>
      have hih := ih (List.cons_ne_nil _ _)
      rw [List.cons_append] at hih
      rw [List.cons_append, List.cons_append, List.intercalate_cons_cons, hih,
        List.intercalate_cons_cons, List.append_assoc, List.append_assoc, List.append_assoc]

theorem getLast?_lines (hl : Line l) (hne : l ≠ []) (ls : List Text) :
    (lines (ls ++ [l])).getLast? ≠ some '\n' := by
  have hlast : l.getLast? ≠ some '\n' := fun h => hl.not_mem (List.mem_of_getLast? h)
  cases ls with
  | nil => simpa [lines] using hlast
  | cons l' ls =>
    rw [lines_concat (List.cons_ne_nil _ _), List.getLast?_append]
    cases l with
    | nil => exact absurd rfl hne
    | cons c l =>
      rw [List.getLast?_cons_cons]
      cases h : (c :: l).getLast? with
      | none => simp at h
      | some c' => simpa [h] using hlast

-- ---------------------------------------------------------------------------
-- Texts without an end of line
-- ---------------------------------------------------------------------------

@[simp] theorem line_nil : Line [] := by simp [Line]

@[simp] theorem line_cons : Line (c :: t) ↔ isLineSep c = false ∧ Line t := by simp [Line]

@[simp] theorem line_append : Line (a ++ b) ↔ Line a ∧ Line b := by
  simp [Line, or_imp, forall_and]

@[simp] theorem line_replicate (h : isLineSep c = false) (n : Nat) : Line (List.replicate n c) := by
  simp [Line, h]

theorem line_intercalate (hc : isLineSep c = false) (h : ∀ l ∈ ls, Line l) :
    Line ([c].intercalate ls) := by
  induction ls with
  | nil => simp
  | cons l ls ih =>
    obtain ⟨hl, hls⟩ := List.forall_mem_cons.mp h
    cases ls with
    | nil => simpa using hl
    | cons l' ls =>
      rw [List.intercalate_cons_cons]
      simp [hl, hc, ih hls]

theorem digitChar_not_lineSep : ∀ d < 16, isLineSep (Nat.digitChar d) = false := by
  decide

theorem line_toDigits (hb : 1 < b) (hb' : b ≤ 16) (n : Nat) : Line (Nat.toDigits b n) := by
  intro c hc
  obtain ⟨d, hd, rfl⟩ := mem_toDigits hb hb' n hc
  exact digitChar_not_lineSep d hd

@[simp] theorem line_dec (n : Nat) : Line (dec n) := line_toDigits (by decide) (by decide) n

@[simp] theorem line_hex (n : Nat) : Line (hex n) := line_toDigits (by decide) (by decide) n

@[simp] theorem line_zfill : Line (zfill w t) ↔ Line t := by
  simp [zfill, line_replicate (c := '0') rfl]

@[simp] theorem line_ljust : Line (ljust w t) ↔ Line t := by
  simp [ljust, line_replicate (c := ' ') rfl]

@[simp] theorem line_rjust : Line (rjust w t) ↔ Line t := by
  simp [rjust, line_replicate (c := ' ') rfl]

end Text

end Ipu4
