import Mathlib.Data.List.TakeDrop
import Mathlib.Data.List.TakeWhile
import Ipu4.Lib.Text

/-!
# Reading numbers

What `int(text, 16)` and `float(text)` accept, over any knowledge of which
characters are decimal digits. A number read by `float` is kept as its text.
-/

namespace Ipu4

open Text (isSpace lower)

/-- The decimal digits with their values, and the letters and digits. -/
structure Alphabet where
  decimal : Char → Option Nat
  alnum : Char → Bool
  decimal_lt : ∀ c d, decimal c = some d → d < 10
  decimal_ascii : ∀ c : Char, c.toNat < 128 → decimal c = if c.isDigit then some (c.toNat - 48) else none
  decimal_space : ∀ c : Char, isSpace c → decimal c = none

theorem isDigit_iff {c : Char} : c.isDigit = true ↔ 48 ≤ c.toNat ∧ c.toNat ≤ 57 :=
  Char.isDigit_iff_toNat

theorem isSpace_of_isDigit {c : Char} (h : c.isDigit = true) : isSpace c = false := by
  obtain ⟨hlo, hhi⟩ := isDigit_iff.mp h
  simp [isSpace]
  omega

namespace Alphabet

/-- Only the ASCII digits and letters. -/
def ascii : Alphabet where
  decimal c := if c.isDigit then some (c.toNat - 48) else none
  alnum := Char.isAlphanum
  decimal_lt c d h := by
    split at h
    · next hdigit =>
      obtain rfl := Option.some.inj h
      have := (isDigit_iff.mp hdigit).2
      omega
    · cases h
  decimal_ascii _ _ := rfl
  decimal_space c h := if_neg fun hdigit => by
    rw [isSpace_of_isDigit hdigit] at h
    cases h

variable (u : Alphabet)

/-- The characters of words. -/
def word (c : Char) : Bool := u.alnum c || c == '_'

def isDecimal (c : Char) : Bool := (u.decimal c).isSome

/-- `_PyUnicode_TransformDecimalAndSpaceToASCII`, of one character. -/
def toAscii (c : Char) : Char :=
  if c.toNat < 127 then c
  else if isSpace c then ' '
  else
    match u.decimal c with
    | some d => Nat.digitChar d
    | none => '?'

end Alphabet

namespace Numeral

-- ---------------------------------------------------------------------------
-- Blanks and signs
-- ---------------------------------------------------------------------------

def isBlank (c : Char) : Bool := c == ' ' || (9 ≤ c.toNat && c.toNat ≤ 13)

def trim (t : Text) : Text := ((t.dropWhile isBlank).reverse.dropWhile isBlank).reverse

/-- Whether there is a minus sign, and what follows the sign. -/
def sign : Text → Bool × Text
  | '-' :: t => (true, t)
  | '+' :: t => (false, t)
  | t => (false, t)

-- ---------------------------------------------------------------------------
-- int
-- ---------------------------------------------------------------------------

def hexValue (c : Char) : Option Nat :=
  if c.isDigit then some (c.toNat - 48)
  else if 'a' ≤ c ∧ c ≤ 'f' then some (c.toNat - 87)
  else if 'A' ≤ c ∧ c ≤ 'F' then some (c.toNat - 55)
  else none

/-- The digits behind a digit, with single underscores between digits. -/
def hexDigits (n : Nat) : Text → Option Nat
  | [] => some n
  | '_' :: c :: t => (hexValue c).bind fun d => hexDigits (16 * n + d) t
  | c :: t => (hexValue c).bind fun d => hexDigits (16 * n + d) t

def hexNumber : Text → Option Nat
  | [] => none
  | c :: t => (hexValue c).bind fun d => hexDigits d t

/-- An underscore may follow the prefix. -/
def dropHexPrefix : Text → Text
  | '0' :: x :: t =>
    if x = 'x' ∨ x = 'X' then if t.head? = some '_' then t.tail else t else '0' :: x :: t
  | t => t

def int16 (u : Alphabet) (t : Text) : Option Int :=
  match sign (trim (t.map u.toAscii)) with
  | (neg, t) => (hexNumber (dropHexPrefix t)).map fun n => if neg then -(n : Int) else n

def isHexDigit (c : Char) : Bool := c.isDigit || ('a' ≤ c && c ≤ 'f') || ('A' ≤ c && c ≤ 'F')

theorem hexValue_isSome (h : isHexDigit c = true) : (hexValue c).isSome := by
  simp only [isHexDigit, Bool.or_eq_true, Bool.and_eq_true, decide_eq_true_eq] at h
  unfold hexValue
  rcases h with (h | h) | h
  · simp [h]
  · split
    · rfl
    · rfl
  · split
    · rfl
    · split
      · rfl
      · rfl

theorem hexDigit_lt (h : isHexDigit c = true) : 48 ≤ c.toNat ∧ c.toNat ≤ 102 ∧ c ≠ '_' := by
  have hle : ∀ a b : Char, a ≤ b ↔ a.toNat ≤ b.toNat := fun _ _ => Iff.rfl
  have hbounds : (48 ≤ c.toNat ∧ c.toNat ≤ 57) ∨ (97 ≤ c.toNat ∧ c.toNat ≤ 102) ∨
      (65 ≤ c.toNat ∧ c.toNat ≤ 70) := by
    simp only [isHexDigit, Bool.or_eq_true, Bool.and_eq_true, decide_eq_true_eq, isDigit_iff, hle] at h
    exact or_assoc.mp h
  refine ⟨by omega, by omega, ?_⟩
  rintro rfl
  revert hbounds
  decide

theorem hexDigits_isSome (h : ∀ c ∈ t, isHexDigit c = true) (n : Nat) : (hexDigits n t).isSome := by
  induction t generalizing n with
  | nil => rfl
  | cons c t ih =>
    obtain ⟨hc, ht⟩ := List.forall_mem_cons.mp h
    obtain ⟨d, hd⟩ := Option.isSome_iff_exists.mp (hexValue_isSome hc)
    rw [hexDigits]
    · rw [hd]
      exact ih ht _
    · rintro _ _ rfl
      exact absurd rfl (hexDigit_lt hc).2.2

theorem trim_of_notBlank (h : ∀ c ∈ t, isBlank c = false) : trim t = t := by
  have hdrop : ∀ t : Text, (∀ c ∈ t, isBlank c = false) → t.dropWhile isBlank = t := by
    intro t h
    cases t with
    | nil => rfl
    | cons c t => exact List.dropWhile_cons_of_neg (by simp [h c List.mem_cons_self])
  rw [trim, hdrop t h, hdrop _ fun c hc => h c (List.mem_reverse.mp hc), List.reverse_reverse]

theorem int16_isSome (u : Alphabet) (hne : t ≠ []) (h : ∀ c ∈ t, isHexDigit c = true) :
    (int16 u ('0' :: 'x' :: t)).isSome := by
  have hascii : ('0' :: 'x' :: t).map u.toAscii = '0' :: 'x' :: t := by
    refine (List.map_congr_left fun c hc => ?_).trans (List.map_id _)
    have hlt : c.toNat < 127 := by
      rcases List.mem_cons.mp hc with rfl | hc
      · decide
      rcases List.mem_cons.mp hc with rfl | hc
      · decide
      · have := (hexDigit_lt (h c hc)).2.1
        omega
    exact if_pos hlt
  have htrim : trim ('0' :: 'x' :: t) = '0' :: 'x' :: t := by
    refine trim_of_notBlank (List.forall_mem_cons.mpr ⟨rfl, List.forall_mem_cons.mpr ⟨rfl, fun c hc => ?_⟩⟩)
    have hlo := (hexDigit_lt (h c hc)).1
    simp only [isBlank, Bool.or_eq_false_iff, beq_eq_false_iff_ne, Bool.and_eq_false_iff,
      decide_eq_false_iff_not]
    refine ⟨?_, .inr (by omega)⟩
    rintro rfl
    exact absurd hlo (by decide)
  cases t with
  | nil => exact absurd rfl hne
  | cons c t =>
    obtain ⟨hc, ht⟩ := List.forall_mem_cons.mp h
    have hprefix : dropHexPrefix ('0' :: 'x' :: c :: t) = c :: t := by
      simp [dropHexPrefix, (hexDigit_lt hc).2.2]
    obtain ⟨d, hd⟩ := Option.isSome_iff_exists.mp (hexValue_isSome hc)
    obtain ⟨n, hn⟩ := Option.isSome_iff_exists.mp (hexDigits_isSome ht d)
    unfold int16
    rw [hascii, htrim]
    simp [sign, hprefix, hexNumber, hd, hn]

-- ---------------------------------------------------------------------------
-- float
-- ---------------------------------------------------------------------------

/-- A text without its underscores, each of which stands between digits. -/
def unscore (prev : Char) : Text → Option Text
  | [] => if prev = '_' then none else some []
  | c :: t =>
    if c = '_' then if prev.isDigit then unscore '_' t else none
    else if prev = '_' ∧ ¬ c.isDigit then none
    else (unscore c t).map (c :: ·)

def isExponent : Text → Bool
  | [] => true
  | c :: t => (c == 'e' || c == 'E') && (sign t).2 ≠ [] && (sign t).2.all Char.isDigit

def isDecimalNumber (t : Text) : Bool :=
  match t.span Char.isDigit with
  | (whole, '.' :: t) =>
    match t.span Char.isDigit with
    | (frac, t) => (whole ++ frac ≠ []) && isExponent t
  | (whole, t) => whole ≠ [] && isExponent t

def isNumber (t : Text) : Bool :=
  isDecimalNumber t || lower t ∈ ["inf".toList, "infinity".toList, "nan".toList]

/-- The text of the number that `float` reads. -/
def float (u : Alphabet) (t : Text) : Option Text :=
  (unscore '\x00' (trim (t.map u.toAscii))).filter fun s => isNumber (sign s).2

-- ---------------------------------------------------------------------------
-- The characters of a number
-- ---------------------------------------------------------------------------

/-- The characters of the numbers that `float` reads. -/
def IsNumeral (c : Char) : Prop := c.isDigit = true ∨ c.toLower ∈ "+-.einftya".toList

theorem not_isNumeral_x : ¬ IsNumeral 'x' := by
  unfold IsNumeral
  decide

theorem IsNumeral.ne_underscore (h : IsNumeral c) : c ≠ '_' := by
  rintro rfl
  revert h
  unfold IsNumeral
  decide

theorem IsNumeral.isSpace (h : IsNumeral c) : isSpace c = false := by
  rcases h with h | h
  · exact isSpace_of_isDigit h
  · cases hs : Text.isSpace c with
    | false => rfl
    | true =>
      have hupper : ¬ (65 ≤ c.toNat ∧ c.toNat ≤ 90) := by
        simp [Text.isSpace] at hs
        omega
      have hlower : c.toLower = c := by
        unfold Char.toLower
        rw [dif_neg]
        simpa [UInt32.le_iff_toNat_le] using hupper
      rw [hlower] at h
      have hnone : "+-.einftya".toList.all (!Text.isSpace ·) = true := by
        decide
      simp only [List.all_eq_true, Bool.not_eq_true'] at hnone
      rw [hnone c h] at hs
      cases hs

theorem mem_sign (h : c ∈ t) : IsNumeral c ∨ c ∈ (sign t).2 := by
  unfold sign
  split
  · rcases List.mem_cons.mp h with rfl | h
    · exact .inl (.inr (by decide))
    · exact .inr h
  · rcases List.mem_cons.mp h with rfl | h
    · exact .inl (.inr (by decide))
    · exact .inr h
  · exact .inr h

theorem sign_sub (h : c ∈ (sign t).2) : c ∈ t := by
  unfold sign at h
  split at h
  · exact List.mem_cons_of_mem _ h
  · exact List.mem_cons_of_mem _ h
  · exact h

theorem isNumeral_exponent (h : isExponent t = true) (hc : c ∈ t) : IsNumeral c := by
  cases t with
  | nil => cases hc
  | cons e t =>
    simp only [isExponent, Bool.and_eq_true, Bool.or_eq_true, beq_iff_eq, List.all_eq_true] at h
    obtain ⟨⟨he, -⟩, hall⟩ := h
    rcases List.mem_cons.mp hc with rfl | hc
    · rcases he with rfl | rfl
      · exact .inr (by decide)
      · exact .inr (by decide)
    · rcases mem_sign hc with h | h
      · exact h
      · exact .inl (hall c h)

theorem isNumeral_takeWhile {t : Text} (h : c ∈ t.takeWhile Char.isDigit) : IsNumeral c :=
  .inl (List.mem_takeWhile_imp h)

theorem isNumeral_decimal (h : isDecimalNumber t = true) : t ≠ [] ∧ ∀ c ∈ t, IsNumeral c := by
  have hsplit := (t.takeWhile_append_dropWhile (p := Char.isDigit))
  unfold isDecimalNumber at h
  rw [List.span_eq_takeWhile_dropWhile] at h
  split at h
  · next whole rest heq =>
    obtain ⟨rfl, hrest⟩ := Prod.mk.inj heq
    rw [List.span_eq_takeWhile_dropWhile] at h
    simp only [Bool.and_eq_true] at h
    rw [hrest, ← rest.takeWhile_append_dropWhile (p := Char.isDigit)] at hsplit
    rw [← hsplit]
    refine ⟨by simp, fun c hc => ?_⟩
    rcases List.mem_append.mp hc with hc | hc
    · exact isNumeral_takeWhile hc
    rcases List.mem_cons.mp hc with rfl | hc
    · exact .inr (by decide)
    rcases List.mem_append.mp hc with hc | hc
    · exact isNumeral_takeWhile hc
    · exact isNumeral_exponent h.2 hc
  · next whole rest _ heq =>
    obtain ⟨rfl, rfl⟩ := Prod.mk.inj heq
    simp only [Bool.and_eq_true, decide_eq_true_eq] at h
    refine ⟨fun hnil => h.1 (by rw [hnil]; rfl), fun c hc => ?_⟩
    rw [← hsplit] at hc
    rcases List.mem_append.mp hc with hc | hc
    · exact isNumeral_takeWhile hc
    · exact isNumeral_exponent h.2 hc

theorem isNumeral_number (h : isNumber t = true) : t ≠ [] ∧ ∀ c ∈ t, IsNumeral c := by
  rcases Bool.or_eq_true _ _ ▸ h with h | h
  · exact isNumeral_decimal h
  · have hwords : ∀ w ∈ ["inf".toList, "infinity".toList, "nan".toList],
        w ≠ [] ∧ w ⊆ "+-.einftya".toList := by
      decide
    obtain ⟨hne, hall⟩ := hwords _ (of_decide_eq_true h)
    refine ⟨fun hnil => hne (by rw [hnil]; rfl), fun c hc => .inr (hall (List.mem_map_of_mem hc))⟩

theorem mem_dropWhile {t : Text} {p : Char → Bool} (h : c ∈ t) (hp : p c = false) : c ∈ t.dropWhile p := by
  rw [← t.takeWhile_append_dropWhile (p := p)] at h
  rcases List.mem_append.mp h with h | h
  · rw [List.mem_takeWhile_imp h] at hp
    cases hp
  · exact h

theorem mem_trim (h : c ∈ t) (hb : isBlank c = false) : c ∈ trim t :=
  List.mem_reverse.mpr (mem_dropWhile (List.mem_reverse.mpr (mem_dropWhile h hb)) hb)

theorem trim_sub (h : c ∈ trim t) : c ∈ t :=
  (List.dropWhile_sublist _).mem (List.mem_reverse.mp ((List.dropWhile_sublist _).mem (List.mem_reverse.mp h)))

theorem mem_unscore (h : unscore prev t = some s) (hc : c ≠ '_') : c ∈ s ↔ c ∈ t := by
  induction t generalizing prev s with
  | nil =>
    unfold unscore at h
    split at h
    · cases h
    · obtain rfl := Option.some.inj h
      rfl
  | cons c' t ih =>
    unfold unscore at h
    split at h
    · next heq =>
      split at h
      · rw [ih h, List.mem_cons, heq]
        simp [hc]
      · cases h
    · split at h
      · cases h
      · obtain ⟨s', hs', rfl⟩ := Option.map_eq_some_iff.mp h
        rw [List.mem_cons, List.mem_cons, ih hs']

theorem float_chars (h : float u t = some s) : (∃ c ∈ t, isSpace c = false) ∧ 'x' ∉ t := by
  obtain ⟨hscore, hnum⟩ := Option.filter_eq_some_iff.mp h
  obtain ⟨hne, hall⟩ := isNumeral_number hnum
  have hchars : ∀ c ∈ s, IsNumeral c := fun c hc => by
    rcases mem_sign hc with h | h
    · exact h
    · exact hall c h
  constructor
  · obtain ⟨c, hc⟩ := List.exists_mem_of_ne_nil _ hne
    have hchar := hall c hc
    have hin := (mem_unscore hscore hchar.ne_underscore).mp (sign_sub hc)
    obtain ⟨c', hc', rfl⟩ := List.mem_map.mp (trim_sub hin)
    refine ⟨c', hc', ?_⟩
    cases hs : isSpace c' with
    | false => rfl
    | true =>
      have hspace := hchar.isSpace
      unfold Alphabet.toAscii at hspace
      split at hspace
      · rw [hs] at hspace
        cases hspace
      · cases hspace
  · intro hx
    have hin : 'x' ∈ trim (t.map u.toAscii) := mem_trim (List.mem_map.mpr ⟨'x', hx, rfl⟩) rfl
    exact not_isNumeral_x (hchars _ ((mem_unscore hscore (by decide)).mpr hin))

end Numeral

end Ipu4
