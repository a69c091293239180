import Mathlib.Computability.Language
import Ipu4.Lib.Text

/-!
# Regular expressions

Expressions over classes of characters, with groups and word boundaries, as a
backtracking engine runs them: every way to match from the start of a text, in
the order in which the engine tries them. What a match consumes is in the
language of the expression.
-/

namespace Ipu4

inductive Regex
  | char (p : Char → Bool)
  | star (p : Char → Bool)
  | boundary
  | seq (a b : Regex)
  | group (a : Regex)

namespace Regex

def lit (c : Char) : Regex := char (· == c)

def plus (p : Char → Bool) : Regex := (char p).seq (star p)

-- ---------------------------------------------------------------------------
-- Running
-- ---------------------------------------------------------------------------

/-- One way to match: what it consumed, its groups, and what is left. -/
structure Match where
  text : Text
  groups : List Text
  rest : Text
  deriving DecidableEq, Repr

/-- The ways to take characters of `p`, the longest first. -/
def stars (p : Char → Bool) : Text → List Match
  | [] => [⟨[], [], []⟩]
  | c :: t =>
    (if p c then (stars p t).map fun m => { m with text := c :: m.text } else []) ++ [⟨[], [], c :: t⟩]

/-- The ways to match a text that follows `prev`. `word` are the characters of words. -/
def run (word : Char → Bool) : Regex → Option Char → Text → List Match
  | char p, _, t =>
    match t with
    | [] => []
    | c :: t => if p c then [⟨[c], [], t⟩] else []
  | star p, _, t => stars p t
  | boundary, prev, t => if prev.any word ≠ t.head?.any word then [⟨[], [], t⟩] else []
  | seq a b, prev, t =>
    (run word a prev t).flatMap fun m =>
      (run word b (m.text.getLast? <|> prev) m.rest).map fun m' =>
        ⟨m.text ++ m'.text, m.groups ++ m'.groups, m'.rest⟩
  | group a, prev, t => (run word a prev t).map fun m => { m with groups := m.text :: m.groups }

/-- The match at the start of a text. -/
def first (word : Char → Bool) (r : Regex) (t : Text) : Option Match := (r.run word none t).head?

-- ---------------------------------------------------------------------------
-- The language
-- ---------------------------------------------------------------------------

def lang : Regex → Language Char
  | char p => {t | ∃ c, p c ∧ t = [c]}
  | star p => {t | ∀ c ∈ t, p c}
  | boundary => 1
  | seq a b => lang a * lang b
  | group a => lang a

theorem mem_lang_lit : t ∈ (lit c).lang ↔ t = [c] := by
  constructor
  · rintro ⟨c', hc, rfl⟩
    rw [eq_of_beq hc]
  · rintro rfl
    exact ⟨c, beq_self_eq_true c, rfl⟩

theorem mem_lang_plus : t ∈ (plus p).lang ↔ t ≠ [] ∧ ∀ c ∈ t, p c := by
  constructor
  · rintro ⟨_, ⟨c, hc, rfl⟩, s, hs, rfl⟩
    exact ⟨List.cons_ne_nil _ _, List.forall_mem_cons.mpr ⟨hc, hs⟩⟩
  · rintro ⟨hne, hall⟩
    cases t with
    | nil => exact absurd rfl hne
    | cons c t =>
      obtain ⟨hc, ht⟩ := List.forall_mem_cons.mp hall
      exact ⟨[c], ⟨c, hc, rfl⟩, t, ht, rfl⟩

theorem stars_lang (h : m ∈ stars p t) : t = m.text ++ m.rest ∧ ∀ c ∈ m.text, p c := by
  induction t generalizing m with
  | nil =>
    obtain rfl := List.mem_singleton.mp h
    simp
  | cons c t ih =>
    rcases List.mem_append.mp h with h | h
    · split at h
      · next hc =>
        obtain ⟨m', hm', rfl⟩ := List.mem_map.mp h
        obtain ⟨rfl, hall⟩ := ih hm'
        exact ⟨rfl, List.forall_mem_cons.mpr ⟨hc, hall⟩⟩
      · cases h
    · obtain rfl := List.mem_singleton.mp h
      simp

theorem run_lang {word : Char → Bool} {r : Regex} (h : m ∈ r.run word prev t) :
    t = m.text ++ m.rest ∧ m.text ∈ r.lang := by
  induction r generalizing prev t m with
  | char p =>
    cases t with
    | nil => cases h
    | cons c t =>
      unfold run at h
      dsimp only at h
      split at h
      · next hc =>
        obtain rfl := List.mem_singleton.mp h
        exact ⟨rfl, c, hc, rfl⟩
      · cases h
  | star p => exact stars_lang h
  | boundary =>
    unfold run at h
    split at h
    · obtain rfl := List.mem_singleton.mp h
      exact ⟨rfl, rfl⟩
    · cases h
  | seq a b iha ihb =>
    obtain ⟨m₁, hm₁, hm⟩ := List.mem_flatMap.mp h
    obtain ⟨m₂, hm₂, rfl⟩ := List.mem_map.mp hm
    obtain ⟨rfl, ha⟩ := iha hm₁
    obtain ⟨hrest, hb⟩ := ihb hm₂
    exact ⟨by rw [List.append_assoc, ← hrest], Language.append_mem_mul ha hb⟩
  | group a ih =>
    obtain ⟨m', hm', rfl⟩ := List.mem_map.mp h
    obtain ⟨hsplit, hlang⟩ := ih hm'
    exact ⟨hsplit, hlang⟩

/-- The languages of the groups. -/
def groupLangs : Regex → List (Language Char)
  | seq a b => groupLangs a ++ groupLangs b
  | group a => lang a :: groupLangs a
  | _ => []

theorem stars_groups (h : m ∈ stars p t) : m.groups = [] := by
  induction t generalizing m with
  | nil =>
    obtain rfl := List.mem_singleton.mp h
    rfl
  | cons c t ih =>
    rcases List.mem_append.mp h with h | h
    · split at h
      · obtain ⟨m', hm', rfl⟩ := List.mem_map.mp h
        have hnil := ih hm'
        exact hnil
      · cases h
    · obtain rfl := List.mem_singleton.mp h
      rfl

theorem run_groups {word : Char → Bool} {r : Regex} (h : m ∈ r.run word prev t) :
    List.Forall₂ (· ∈ ·) m.groups r.groupLangs := by
  induction r generalizing prev t m with
  | char p =>
    cases t with
    | nil => cases h
    | cons c t =>
      unfold run at h
      dsimp only at h
      split at h
      · obtain rfl := List.mem_singleton.mp h
        exact .nil
      · cases h
  | star p =>
    rw [stars_groups h]
    exact .nil
  | boundary =>
    unfold run at h
    split at h
    · obtain rfl := List.mem_singleton.mp h
      exact .nil
    · cases h
  | seq a b iha ihb =>
    obtain ⟨m₁, hm₁, hm⟩ := List.mem_flatMap.mp h
    obtain ⟨m₂, hm₂, rfl⟩ := List.mem_map.mp hm
    exact List.rel_append (iha hm₁) (ihb hm₂)
  | group a ih =>
    obtain ⟨m', hm', rfl⟩ := List.mem_map.mp h
    exact .cons (run_lang hm').2 (ih hm')

theorem first_lang {word : Char → Bool} {r : Regex} (h : r.first word t = some m) :
    t = m.text ++ m.rest ∧ m.text ∈ r.lang :=
  run_lang (List.mem_of_mem_head? h)

theorem first_groups {word : Char → Bool} {r : Regex} (h : r.first word t = some m) :
    List.Forall₂ (· ∈ ·) m.groups r.groupLangs :=
  run_groups (List.mem_of_mem_head? h)

end Regex

end Ipu4
