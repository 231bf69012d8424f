import JavaLint.Style.Naming
import Mathlib.Computability.Language
import Mathlib.Tactic.Common

/-!
# How names are spelled

A name is `FOO_BAR` if it starts with a capital letter and is made of words of capital letters and
digits, joined by single underscores; it is `FooBar` or `fooBar` if it is made of letters and digits and
starts with a capital letter or a small one.  A name of capital letters and digits only would be both of
the first two, and counts as the first.  Letters are those of ASCII, digits those of any script.

The styles are usually given by patterns in which a class of characters is repeated inside a repetition,
such as `[A-Z][\da-z]*([\dA-Z][\da-z]*)*`, so that a digit can be read in several ways.  Here they are
languages: the repetitions are denested (`kstar_mul_kstar_denest`), after which a pattern only says which
characters may occur.  The patterns are tried one after the other if the first letter is an upper case or
lower case letter in any script.  That admits no further names, whatever the tests for the case of letters
say beyond ASCII (`CaseTests.styleOf_eq`).

The main result is `styles_are_detected`.
-/

open scoped Computability

namespace JavaLint.NamingStyle

/-! ## Words -/

/-- A word of capital letters and digits. -/
def IsWord (cs : List Char) : Prop :=
  cs ≠ [] ∧ ∀ c ∈ cs, isUpperOrDigit c = true

/-- Words that are joined by single underscores. -/
def IsUpperWords (cs : List Char) : Prop :=
  ∃ words : List (List Char), words ≠ [] ∧ (∀ word ∈ words, IsWord word) ∧
    cs = ['_'].intercalate words

/-- The rest of a word, and words after it, each with an underscore before it. -/
def ContinuesWords (cs : List Char) : Prop :=
  ∃ (part : List Char) (words : List (List Char)), (∀ c ∈ part, isUpperOrDigit c = true) ∧
    (∀ word ∈ words, IsWord word) ∧ cs = part ++ words.flatMap ('_' :: ·)

variable {c : Char} {cs : List Char}

/-- An underscore is no part of a word. -/
lemma isUpperOrDigit_underscore : isUpperOrDigit '_' = false := rfl

/-- Joined words are the first one and the other ones, each with an underscore before it. -/
lemma intercalate_cons (word : List Char) (words : List (List Char)) :
    ['_'].intercalate (word :: words) = word ++ words.flatMap ('_' :: ·) := by
  induction words generalizing word with
  | nil => simp
  | cons next words ih => rw [List.intercalate_cons_cons, ih, List.flatMap_cons]; simp

/-- Joined words have a first one. -/
lemma isUpperWords_iff : IsUpperWords cs ↔ ∃ (word : List Char) (words : List (List Char)),
    IsWord word ∧ (∀ w ∈ words, IsWord w) ∧ cs = word ++ words.flatMap ('_' :: ·) := by
  constructor
  · rintro ⟨words, hne, hwords, rfl⟩
    obtain ⟨word, words, rfl⟩ := List.exists_cons_of_ne_nil hne
    obtain ⟨hword, hwords⟩ := List.forall_mem_cons.1 hwords
    exact ⟨word, words, hword, hwords, intercalate_cons word words⟩
  · rintro ⟨word, words, hword, hwords, rfl⟩
    exact ⟨word :: words, by simp, List.forall_mem_cons.2 ⟨hword, hwords⟩,
      (intercalate_cons word words).symm⟩

/-- A word goes on with a capital letter or a digit. -/
lemma continuesWords_cons (hc : c ≠ '_') :
    ContinuesWords (c :: cs) ↔ isUpperOrDigit c = true ∧ ContinuesWords cs := by
  constructor
  · rintro ⟨part, words, hpart, hwords, heq⟩
    cases part with
    | nil =>
      cases words with
      | nil => simp at heq
      | cons word words => exact absurd (List.cons.inj heq).1 hc
    | cons d part =>
      obtain ⟨rfl, rfl⟩ := List.cons.inj heq
      obtain ⟨hd, hpart⟩ := List.forall_mem_cons.1 hpart
      exact ⟨hd, part, words, hpart, hwords, rfl⟩
  · rintro ⟨hc, part, words, hpart, hwords, rfl⟩
    exact ⟨c :: part, words, List.forall_mem_cons.2 ⟨hc, hpart⟩, hwords, rfl⟩

/-- A word starts with a capital letter or a digit. -/
lemma isUpperWords_cons :
    IsUpperWords (c :: cs) ↔ isUpperOrDigit c = true ∧ ContinuesWords cs := by
  rw [isUpperWords_iff]
  constructor
  · rintro ⟨word, words, ⟨hne, hword⟩, hwords, heq⟩
    obtain ⟨d, part, rfl⟩ := List.exists_cons_of_ne_nil hne
    obtain ⟨rfl, rfl⟩ := List.cons.inj heq
    obtain ⟨hd, hpart⟩ := List.forall_mem_cons.1 hword
    exact ⟨hd, part, words, hpart, hwords, rfl⟩
  · rintro ⟨hc, part, words, hpart, hwords, rfl⟩
    exact ⟨c :: part, words, ⟨by simp, List.forall_mem_cons.2 ⟨hc, hpart⟩⟩, hwords, rfl⟩

/-- After an underscore a new word starts. -/
lemma continuesWords_underscore : ContinuesWords ('_' :: cs) ↔ IsUpperWords cs := by
  rw [isUpperWords_iff]
  constructor
  · rintro ⟨part, words, hpart, hwords, heq⟩
    cases part with
    | nil =>
      cases words with
      | nil => simp at heq
      | cons word words =>
        obtain ⟨hword, hwords⟩ := List.forall_mem_cons.1 hwords
        exact ⟨word, words, hword, hwords, (List.cons.inj heq).2⟩
    | cons d part =>
      obtain ⟨rfl, -⟩ := List.cons.inj heq
      exact absurd (hpart '_' List.mem_cons_self) (by simp [isUpperOrDigit_underscore])
  · rintro ⟨word, words, hword, hwords, rfl⟩
    exact ⟨[], word :: words, by simp, List.forall_mem_cons.2 ⟨hword, hwords⟩, rfl⟩

/-- There are no words in the empty text. -/
lemma not_isUpperWords_nil : ¬ IsUpperWords [] := by
  rw [isUpperWords_iff]
  rintro ⟨word, words, ⟨hne, -⟩, -, heq⟩
  exact hne (List.append_eq_nil_iff.1 heq.symm).1

/-- The search for words finds them, after the start of a word and before it. -/
lemma upperWords_iff (cs : List Char) :
    (upperWords true cs = true ↔ ContinuesWords cs) ∧
      (upperWords false cs = true ↔ IsUpperWords cs) := by
  induction cs with
  | nil =>
    have hnil : ContinuesWords [] := ⟨[], [], by simp, by simp, rfl⟩
    simp [upperWords, hnil, not_isUpperWords_nil]
  | cons c cs ih =>
    obtain ⟨htrue, hfalse⟩ := ih
    by_cases hc : c = '_'
    · subst hc
      simp [upperWords, continuesWords_underscore, isUpperWords_cons, isUpperOrDigit_underscore,
        hfalse]
    · simp [upperWords, hc, continuesWords_cons hc, isUpperWords_cons, htrue]

/-! ## Spellings -/

/-- The name is spelled like `FOO_BAR`. -/
def IsUpperUnderscore (cs : List Char) : Prop :=
  cs.head?.any Char.isUpper = true ∧ IsUpperWords cs

/-- The name is spelled like `FooBar`. -/
def IsPascal (cs : List Char) : Prop :=
  cs.head?.any Char.isUpper = true ∧ (∀ c ∈ cs, isLetterOrDigit c = true) ∧
    ∃ c ∈ cs, c.isLower = true

/-- The name is spelled like `fooBar`. -/
def IsCamel (cs : List Char) : Prop :=
  cs.head?.any Char.isLower = true ∧ ∀ c ∈ cs, isLetterOrDigit c = true

/-- A letter is a capital or a small one. -/
lemma isAlpha_eq (c : Char) : c.isAlpha = (c.isUpper || c.isLower) := rfl

/-- A letter or digit is a capital letter, a small letter, or a digit. -/
lemma isLetterOrDigit_eq (c : Char) : isLetterOrDigit c = (isUpperOrDigit c || c.isLower) := by
  simp only [isLetterOrDigit, isUpperOrDigit, isAlpha_eq]
  cases c.isUpper <;> cases c.isLower <;> simp

/-- The capital letters by their numbers. -/
lemma isUpper_iff : c.isUpper = true ↔ 65 ≤ c.toNat ∧ c.toNat ≤ 90 := by
  have hrange : c.isUpper = decide (c.val ≥ 65 ∧ c.val ≤ 90) := rfl
  simp [hrange, UInt32.le_iff_toNat_le, ← Char.toNat_val]

/-- The small letters by their numbers. -/
lemma isLower_iff : c.isLower = true ↔ 97 ≤ c.toNat ∧ c.toNat ≤ 122 := by
  have hrange : c.isLower = (decide (c.val ≥ 97) && decide (c.val ≤ 122)) := rfl
  simp [hrange, UInt32.le_iff_toNat_le, ← Char.toNat_val]

/-- A letter is a character of ASCII. -/
lemma isAscii_of_isAlpha (hc : c.isAlpha = true) : Text.isAscii c = true := by
  rw [isAlpha_eq, Bool.or_eq_true, isUpper_iff, isLower_iff] at hc
  rw [Text.isAscii, decide_eq_true_eq]
  omega

/-- A character beyond ASCII is neither a capital letter nor a small one. -/
lemma isUpper_and_isLower_of_not_isAscii (hc : Text.isAscii c = false) :
    c.isUpper = false ∧ c.isLower = false := by
  have halpha : ¬ c.isAlpha = true := fun halpha => by simp [isAscii_of_isAlpha halpha] at hc
  simpa [isAlpha_eq] using halpha

/-- No letter is a digit. -/
lemma isDecimalDigit_of_isAlpha (hc : c.isAlpha = true) : Text.isDecimalDigit c = false := by
  rw [Text.isDecimalDigit, if_pos (isAscii_of_isAlpha hc), Bool.eq_false_iff]
  intro hdigit
  rw [Char.isDigit_iff_toNat] at hdigit
  rw [isAlpha_eq, Bool.or_eq_true, isUpper_iff, isLower_iff] at hc
  simp only [Char.reduceToNat] at hdigit
  omega

/-- No letter is both a capital and a small letter. -/
lemma isUpper_of_isLower (hc : c.isLower = true) : c.isUpper = false := by
  rw [Bool.eq_false_iff]
  intro hupper
  rw [isUpper_iff] at hupper
  rw [isLower_iff] at hc
  omega

/-- A small letter is neither a capital letter nor a digit. -/
lemma isUpperOrDigit_of_isLower (hc : c.isLower = true) : isUpperOrDigit c = false := by
  have halpha : c.isAlpha = true := by simp [isAlpha_eq, hc]
  rw [isUpperOrDigit, isUpper_of_isLower hc, isDecimalDigit_of_isAlpha halpha]
  rfl

/-- Of letters and digits, those that are not small letters can stand in words of capital letters. -/
lemma isUpperWords_iff_of_isLetterOrDigit (hne : cs ≠ [])
    (h : ∀ c ∈ cs, isLetterOrDigit c = true) :
    IsUpperWords cs ↔ ∀ c ∈ cs, c.isLower = false := by
  constructor
  · intro hwords
    have hno : '_' ∉ cs := fun hmem => absurd (h '_' hmem) (by decide)
    obtain ⟨word, words, ⟨-, hword⟩, -, rfl⟩ := isUpperWords_iff.1 hwords
    cases words with
    | nil =>
      intro c hc
      rw [List.flatMap_nil, List.append_nil] at hc
      rw [Bool.eq_false_iff]
      intro hlower
      simpa [isUpperOrDigit_of_isLower hlower] using hword c hc
    | cons next words => simp at hno
  · intro hlower
    refine isUpperWords_iff.2 ⟨cs, [], ⟨hne, fun c hc => ?_⟩, by simp, by simp⟩
    simpa [isLetterOrDigit_eq, hlower c hc] using h c hc

/-! ## The patterns -/

/-- One character of a class. -/
def one (test : Char → Bool) : Language Char :=
  {cs | ∃ c, test c = true ∧ cs = [c]}

/-- A small letter of ASCII, or a digit of any script. -/
def isLowerOrDigit (c : Char) : Bool :=
  c.isLower || Text.isDecimalDigit c

/-- The pattern `[A-Z\d]+(_[A-Z\d]+)*`. -/
def upperPattern : Language Char :=
  one isUpperOrDigit * (one isUpperOrDigit)∗ *
    (one (· == '_') * (one isUpperOrDigit * (one isUpperOrDigit)∗))∗

/-- The pattern `[\da-z]*([\dA-Z][\da-z]*)*` after a first letter: `[A-Z]` or `[a-z]`. -/
def letterPattern (first : Char → Bool) : Language Char :=
  one first * ((one isLowerOrDigit)∗ * (one isUpperOrDigit * (one isLowerOrDigit)∗)∗)

/-- A repetition inside a repetition reads the two in any order. -/
lemma kstar_mul_kstar_denest {α : Type} [KleeneAlgebra α] (a b : α) :
    a∗ * (b * a∗)∗ = (a + b)∗ := by
  apply le_antisymm
  · have ha : a∗ ≤ (a + b)∗ := kstar_mono le_self_add
    have hb : b * a∗ ≤ (a + b)∗ :=
      calc b * a∗ ≤ (a + b)∗ * (a + b)∗ := mul_le_mul' (le_add_self.trans le_kstar) ha
        _ = (a + b)∗ := kstar_mul_kstar (a + b)
    calc a∗ * (b * a∗)∗ ≤ (a + b)∗ * (a + b)∗∗ := mul_le_mul' ha (kstar_mono hb)
      _ = (a + b)∗ := by rw [kstar_idem, kstar_mul_kstar]
  · have hfirst : a * (a∗ * (b * a∗)∗) ≤ a∗ * (b * a∗)∗ := by
      rw [← mul_assoc]
      exact mul_le_mul_left mul_kstar_le_kstar _
    have hsecond : b * (a∗ * (b * a∗)∗) ≤ a∗ * (b * a∗)∗ :=
      calc b * (a∗ * (b * a∗)∗) = b * a∗ * (b * a∗)∗ := (mul_assoc ..).symm
        _ ≤ (b * a∗)∗ := mul_kstar_le_kstar
        _ ≤ a∗ * (b * a∗)∗ := le_mul_of_one_le_left' one_le_kstar
    refine kstar_le_of_mul_le_right (one_le_kstar.trans (le_mul_of_one_le_right' one_le_kstar)) ?_
    rw [add_mul]
    exact add_le hfirst hsecond

/-- A repetition of a class holds the texts all of whose characters are in the class. -/
lemma mem_kstar_one {test : Char → Bool} : cs ∈ (one test)∗ ↔ ∀ c ∈ cs, test c = true := by
  rw [Language.mem_kstar]
  constructor
  · rintro ⟨parts, rfl, hparts⟩ c hc
    obtain ⟨part, hpart, hc⟩ := List.mem_flatten.1 hc
    obtain ⟨d, hd, rfl⟩ := hparts part hpart
    rwa [List.mem_singleton.1 hc]
  · intro h
    refine ⟨cs.map fun c => [c], (List.flatMap_singleton' cs).symm.trans (List.flatMap_def ..), fun part hpart => ?_⟩
    obtain ⟨c, hc, rfl⟩ := List.mem_map.1 hpart
    exact ⟨c, h c hc, rfl⟩

/-- After a class comes the rest of the text. -/
lemma cons_mem_one_mul {test : Char → Bool} {rest : Language Char} :
    c :: cs ∈ one test * rest ↔ test c = true ∧ cs ∈ rest := by
  rw [Language.mem_mul]
  constructor
  · rintro ⟨_, ⟨d, hd, rfl⟩, tail, htail, heq⟩
    obtain ⟨rfl, rfl⟩ := List.cons.inj heq
    exact ⟨hd, htail⟩
  · rintro ⟨hc, hcs⟩
    exact ⟨[c], ⟨c, hc, rfl⟩, cs, hcs, rfl⟩

/-- Two classes are one class together. -/
lemma one_add_one (test test' : Char → Bool) :
    one test + one test' = one fun c => test c || test' c := by
  ext cs
  rw [Language.mem_add]
  constructor
  · rintro (⟨c, hc, rfl⟩ | ⟨c, hc, rfl⟩)
    · exact ⟨c, by simp [hc], rfl⟩
    · exact ⟨c, by simp [hc], rfl⟩
  · rintro ⟨c, hc, rfl⟩
    rcases Bool.or_eq_true_iff.1 hc with hc | hc
    · exact .inl ⟨c, hc, rfl⟩
    · exact .inr ⟨c, hc, rfl⟩

/-- The pattern of letters says which characters may follow the first letter. -/
lemma cons_mem_letterPattern {first : Char → Bool} :
    c :: cs ∈ letterPattern first ↔ first c = true ∧ ∀ d ∈ cs, isLetterOrDigit d = true := by
  have hclass (d : Char) : (isLowerOrDigit d || isUpperOrDigit d) = isLetterOrDigit d := by
    rw [isLetterOrDigit_eq]
    cases hlower : d.isLower <;> cases hdigit : Text.isDecimalDigit d <;>
      simp [isLowerOrDigit, isUpperOrDigit, hlower, hdigit]
  rw [letterPattern, cons_mem_one_mul, kstar_mul_kstar_denest, one_add_one, mem_kstar_one]
  simp only [hclass]

/-- A word is what the first part of the pattern of words reads. -/
lemma mem_one_mul_kstar : cs ∈ one isUpperOrDigit * (one isUpperOrDigit)∗ ↔ IsWord cs := by
  cases cs with
  | nil =>
    have hnot : [] ∉ one isUpperOrDigit * (one isUpperOrDigit)∗ := by
      rw [Language.mem_mul]
      rintro ⟨_, ⟨c, -, rfl⟩, tail, -, heq⟩
      cases heq
    simp [hnot, IsWord]
  | cons c cs => simp [cons_mem_one_mul, mem_kstar_one, IsWord]

/-- The pattern of words reads words that are joined by underscores. -/
lemma mem_upperPattern : cs ∈ upperPattern ↔ IsUpperWords cs := by
  have hunderscored {part : List Char} :
      part ∈ one (· == '_') * (one isUpperOrDigit * (one isUpperOrDigit)∗) ↔
        ∃ word, IsWord word ∧ part = '_' :: word := by
    rw [Language.mem_mul]
    constructor
    · rintro ⟨_, ⟨c, hc, rfl⟩, word, hword, rfl⟩
      exact ⟨word, mem_one_mul_kstar.1 hword, by rw [eq_of_beq hc]; rfl⟩
    · rintro ⟨word, hword, rfl⟩
      exact ⟨['_'], ⟨'_', rfl, rfl⟩, word, mem_one_mul_kstar.2 hword, rfl⟩
  rw [isUpperWords_iff, upperPattern, Language.mem_mul]
  constructor
  · rintro ⟨word, hword, tail, htail, rfl⟩
    obtain ⟨parts, rfl, hparts⟩ := Language.mem_kstar.1 htail
    refine ⟨word, parts.map List.tail, mem_one_mul_kstar.1 hword, ?_, ?_⟩
    · intro next hnext
      obtain ⟨part, hpart, rfl⟩ := List.mem_map.1 hnext
      obtain ⟨word', hword', rfl⟩ := hunderscored.1 (hparts part hpart)
      exact hword'
    · have hsame : (parts.map List.tail).flatMap ('_' :: ·) = parts.flatten := by
        rw [List.flatMap_map, List.flatMap_def, List.map_congr_left, List.map_id]
        intro part hpart
        obtain ⟨next, -, rfl⟩ := hunderscored.1 (hparts part hpart)
        rfl
      rw [hsame]
  · rintro ⟨word, words, hword, hwords, rfl⟩
    refine ⟨word, mem_one_mul_kstar.2 hword, words.flatMap ('_' :: ·), ?_, rfl⟩
    rw [Language.mem_kstar]
    refine ⟨words.map ('_' :: ·), List.flatMap_def .., fun part hpart => ?_⟩
    obtain ⟨next, hnext, rfl⟩ := List.mem_map.1 hpart
    exact hunderscored.2 ⟨next, hwords next hnext, rfl⟩

/-! ## The first letter -/

/-- Tests for upper case and lower case letters of any script.  In ASCII they are what one expects, and no
digit is an upper case letter. -/
structure CaseTests where
  isUpper : Char → Bool
  isLower : Char → Bool
  isUpper_of_ascii : ∀ c, Text.isAscii c = true → isUpper c = c.isUpper
  isLower_of_ascii : ∀ c, Text.isAscii c = true → isLower c = c.isLower
  isUpper_of_digit : ∀ c, Text.isDecimalDigit c = true → isUpper c = false

/-- The tests that know no letters beyond ASCII. -/
instance : Inhabited CaseTests where
  default :=
    { isUpper := Char.isUpper
      isLower := Char.isLower
      isUpper_of_ascii := fun _ _ => rfl
      isLower_of_ascii := fun _ _ => rfl
      isUpper_of_digit := by
        intro c hdigit
        rw [Bool.eq_false_iff]
        intro hupper
        simp [isDecimalDigit_of_isAlpha, isAlpha_eq, hupper] at hdigit }

namespace CaseTests

open Classical in
/-- The style of a name by the patterns, which are tried in their order. -/
noncomputable def styleOf (tests : CaseTests) : List Char → NamingStyle
  | [] => other
  | c :: cs =>
    if tests.isUpper c then
      if c :: cs ∈ upperPattern then upperUnderscore
      else if c :: cs ∈ letterPattern Char.isUpper then pascal
      else other
    else if tests.isLower c ∧ c :: cs ∈ letterPattern Char.isLower then camel
    else other

/-- A name gets the style that the patterns give it, whatever counts as a letter beyond ASCII. -/
theorem styleOf_eq (tests : CaseTests) (cs : List Char) : tests.styleOf cs = detect cs := by
  cases cs with
  | nil => rfl
  | cons c cs =>
    have hwords : c :: cs ∈ upperPattern ↔ upperWords false (c :: cs) = true :=
      mem_upperPattern.trans (upperWords_iff (c :: cs)).2.symm
    simp only [styleOf, hwords, cons_mem_letterPattern, detect]
    cases hascii : Text.isAscii c with
    | true =>
      rw [tests.isUpper_of_ascii c hascii, tests.isLower_of_ascii c hascii]
      cases hupper : c.isUpper <;> cases hlower : c.isLower <;> simp
    | false =>
      obtain ⟨hupper, hlower⟩ := isUpper_and_isLower_of_not_isAscii hascii
      have hno : tests.isUpper c = true → ¬ upperWords false (c :: cs) = true := by
        intro htest hwords
        have hfirst := (isUpperWords_cons.1 ((upperWords_iff (c :: cs)).2.1 hwords)).1
        have hdigit : Text.isDecimalDigit c = true := by simpa [isUpperOrDigit, hupper] using hfirst
        rw [tests.isUpper_of_digit c hdigit] at htest
        cases htest
      cases htest : tests.isUpper c <;> simp_all

end CaseTests

/-! ## The style of a name -/

/-- A name is found to be like `FOO_BAR` exactly if it is. -/
lemma detect_eq_upperUnderscore_iff : detect cs = upperUnderscore ↔ IsUpperUnderscore cs := by
  cases cs with
  | nil => simp [detect, IsUpperUnderscore]
  | cons c cs =>
    rw [IsUpperUnderscore, ← (upperWords_iff (c :: cs)).2, detect]
    cases hupper : c.isUpper with
    | true =>
      cases hwords : upperWords false (c :: cs) with
      | true => simp [hupper]
      | false => cases hall : cs.all isLetterOrDigit <;> simp
    | false => cases hcamel : c.isLower && cs.all isLetterOrDigit <;> simp [hupper]

/-- A name is found to be like `FooBar` exactly if it is. -/
lemma detect_eq_pascal_iff : detect cs = pascal ↔ IsPascal cs := by
  cases cs with
  | nil => simp [detect, IsPascal]
  | cons c cs =>
    rw [IsPascal, detect]
    cases hupper : c.isUpper with
    | true =>
      have hfirst : isLetterOrDigit c = true := by simp [isLetterOrDigit, isAlpha_eq, hupper]
      cases hall : cs.all isLetterOrDigit with
      | true =>
        have hletters : ∀ d ∈ c :: cs, isLetterOrDigit d = true :=
          List.forall_mem_cons.2 ⟨hfirst, List.all_eq_true.1 hall⟩
        -- Letters and digits make words of capital letters unless there is a small letter.
        have hlower : upperWords false (c :: cs) = true ↔ ∀ d ∈ c :: cs, d.isLower = false :=
          (upperWords_iff (c :: cs)).2.trans
            (isUpperWords_iff_of_isLetterOrDigit (List.cons_ne_nil c cs) hletters)
        have hsome : (∃ d ∈ c :: cs, d.isLower = true) ↔ ¬ upperWords false (c :: cs) = true := by
          rw [hlower]
          simp only [not_forall, Bool.not_eq_false, exists_prop]
        rw [hsome]
        cases hwords : upperWords false (c :: cs) with
        | true => simp
        | false => simpa [hupper] using hletters
      | false =>
        refine iff_of_false ?_ ?_
        · cases hwords : upperWords false (c :: cs) <;> simp
        · rintro ⟨-, hletters, -⟩
          rw [List.all_eq_true.2 (List.forall_mem_cons.1 hletters).2] at hall
          cases hall
    | false => cases hcamel : c.isLower && cs.all isLetterOrDigit <;> simp [hupper]

/-- A name is found to be like `fooBar` exactly if it is. -/
lemma detect_eq_camel_iff : detect cs = camel ↔ IsCamel cs := by
  cases cs with
  | nil => simp [detect, IsCamel]
  | cons c cs =>
    rw [IsCamel, detect]
    cases hlower : c.isLower with
    | true =>
      have hfirst : isLetterOrDigit c = true := by simp [isLetterOrDigit, isAlpha_eq, hlower]
      simp [hlower, isUpper_of_isLower hlower, hfirst]
    | false =>
      cases hupper : c.isUpper <;> cases hwords : upperWords false (c :: cs) <;>
        cases hall : cs.all isLetterOrDigit <;> simp [hlower]

/-- The style of a name is read off its characters, and it is the one that the patterns give: like
`FOO_BAR`, like `FooBar` or like `fooBar` exactly if the name is spelled so, and no style in all other
cases.  So the empty name has no style, and neither has one whose first letter is not in ASCII. -/
theorem styles_are_detected (cs : List Char) :
    (detect cs = upperUnderscore ↔ IsUpperUnderscore cs) ∧
    (detect cs = pascal ↔ IsPascal cs) ∧
    (detect cs = camel ↔ IsCamel cs) ∧
    (detect cs = other ↔ ¬ IsUpperUnderscore cs ∧ ¬ IsPascal cs ∧ ¬ IsCamel cs) ∧
    detect [] = other ∧
    (∀ c rest, Text.isAscii c = false → detect (c :: rest) = other) ∧
    ∀ tests : CaseTests, tests.styleOf cs = detect cs := by
  refine ⟨detect_eq_upperUnderscore_iff, detect_eq_pascal_iff, detect_eq_camel_iff, ?_, rfl, ?_,
    fun tests => tests.styleOf_eq cs⟩
  · rw [← detect_eq_upperUnderscore_iff, ← detect_eq_pascal_iff, ← detect_eq_camel_iff]
    cases detect cs <;> simp
  · intro c rest hascii
    obtain ⟨hupper, hlower⟩ := isUpper_and_isLower_of_not_isAscii hascii
    simp [detect, hupper, hlower]

end JavaLint.NamingStyle
