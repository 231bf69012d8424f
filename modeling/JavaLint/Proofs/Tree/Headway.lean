import JavaLint.Proofs.Grammar.Supply
import JavaLint.Proofs.Tree.Weave
import Mathlib.Tactic.Common

/-!
# Reading makes headway and ends

Whatever part of a file is read, and before whatever words: the words that are left are the last ones of
those that were there, and reading comes to an end, which does not depend on how long chains of rules may
be, as soon as they may be as long as `fuelFor` allows.  The rules that stand for whole constructs use up
a word (`Rule.Advances`).  No word is ever taken where none is left.

The main result is `reading_makes_headway`.
-/

namespace JavaLint

/-- The result of reading before the words `ks` stays inside of them: either nothing is lost of them and
nothing comes in, or reading stops at one of them or at their end, for a reason of the grammar. -/
def StaysInside (ks : List Kind) : Except Stop (Shape × List Kind) → Prop
  | .ok (f, ks') => f.leaves ++ ks' = ks
  | .error stop => stop.left ≤ ks.length ∧ stop.cause ≠ .unfinished

namespace Rule

open Form

/-- The rules for whole constructs: declarations and what they consist of, types, statements, and
expressions. -/
def Advances : Rule → Prop
  | typeDecl | member | annotationUse | type | typeParams | typeArgs | param | declarators
  | block | blockStatement | statement | forStatement | switchBlock | expr _ | creator
  | arrayInit => True
  | _ => False

/-- A rule for a whole construct moves before any words. -/
lemma Advances.moves {rule : Rule} (h : rule.Advances) (ks : List Kind) : rule.Moves ks := by
  cases rule <;> trivial

/-- The outcome of reading a part stays inside of the words. -/
lemma outcome_staysInside (part : Part) (room : Nat) (ks : List Kind) :
    StaysInside ks (outcome part room ks) := by
  have hlossless := readRule_lossless form (fuelFor ks.length)
  cases hread : outcome part room ks with
  | ok result => exact read_lossless hlossless part room ks _ _ hread
  | error stop =>
    refine ⟨?_, fun hcut => ?_⟩
    · exact read_stopsInside hlossless (readRule_stopsInside form _) part room ks stop hread
    · obtain ⟨cause, left⟩ := stop
      obtain rfl : cause = .unfinished := hcut
      exact outcome_finishes part room ks left hread

/-- A rule for a whole construct uses up a word, if it can be followed to its end. -/
lemma Advances.length_lt {rule : Rule} (h : rule.Advances) {fuel room : Nat} {ks ks' : List Kind}
    {f : Shape} (hread : readRule form fuel rule room ks = .ok (f, ks')) : ks'.length < ks.length :=
  (readRule_isMoving form_movesAt fuel).length_lt rule room ks f ks' hread (h.moves ks)

/-- No rule starves where it may be called. -/
lemma not_isStarved {rule : Rule} {ks : List Kind} (hneeds : rule.Needs ks) {fuel room : Nat}
    {stop : Stop} (hread : readRule form fuel rule room ks = .error stop) : ¬ stop.IsStarved := by
  have hsated := readRule_sated form_supplied fuel rule room ks hneeds
  rwa [hread] at hsated

end Rule

/-- Reading the shape of a file never starves. -/
lemma readShape_not_isStarved {ks : List Kind} {stop : Stop} (h : readShape ks = .error stop) :
    ¬ stop.IsStarved := by
  unfold readShape at h
  cases hread : readRule Rule.form (fuelFor ks.length) .items maxNesting ks with
  | ok result => simp [hread, Except.map] at h
  | error stop' =>
    obtain rfl : stop' = stop := by simpa [hread, Except.map] using h
    exact Rule.not_isStarved (show Rule.items.Needs ks from trivial) hread

/-- No file is refused because a word was to be taken after its end. -/
lemma parse_eq_error_not_word {lexemes : List Lexeme} {line : Nat} {what : String}
    {found : Option String} (h : parse lexemes = .error (.grammatical line (.expected what found))) :
    what ≠ "word" := by
  unfold parse at h
  cases hshape : readShape ((codeLexemes lexemes).map Lexeme.kind) with
  | ok shape => simp [hshape] at h
  | error stop =>
    have herror : stop.toError lexemes = .grammatical line (.expected what found) := by
      simpa [hshape] using h
    have hstarved := readShape_not_isStarved hshape
    obtain ⟨cause, left⟩ := stop
    rintro rfl
    cases cause with
    | expected what =>
      obtain ⟨-, rfl, -⟩ : _ ∧ what = "word" ∧ _ := by simpa [Stop.toError] using herror
      exact hstarved rfl
    | tooDeep => simp [Stop.toError] at herror
    | unfinished => simp [Stop.toError] at herror

/-- Reading any part of a file before any words, with any number of levels left, comes to one result, which
stays inside of the words; unless chains of rules are cut off that are longer than the bound for so many
words, which happens inside of the words as well.  A rule for a whole construct that is followed to its end
uses up a word, and no rule takes a word where none is left, if it is called where the grammar calls it.  So
every sequence of lexemes makes a file, or is refused by the grammar and for something that is expected in
the place of a word or of the end. -/
theorem reading_makes_headway :
    (∀ (part : Rule.Part) (room : Nat) (ks : List Kind),
      ∃ result, StaysInside ks result ∧ ∀ fuel,
        part.read (readRule Rule.form fuel) room ks = result ∨
          fuel < fuelFor ks.length ∧ ∃ left ≤ ks.length,
            part.read (readRule Rule.form fuel) room ks = .error ⟨.unfinished, left⟩) ∧
    (∀ (rule : Rule) (fuel room : Nat) (ks : List Kind),
      (rule.Advances → ∀ f ks', readRule Rule.form fuel rule room ks = .ok (f, ks') →
        ks'.length < ks.length) ∧
      (rule.Needs ks → ∀ stop, readRule Rule.form fuel rule room ks = .error stop →
        ¬ stop.IsStarved)) ∧
    ∀ lexemes, (∃ trees, parse lexemes = .ok trees) ∨
      ∃ line cause, parse lexemes = .error (.grammatical line cause) ∧
        ∀ found, cause ≠ .expected "word" found := by
  refine ⟨fun part room ks => ?_, fun rule fuel room ks => ?_, fun lexemes => ?_⟩
  · refine ⟨Rule.outcome part room ks, Rule.outcome_staysInside part room ks, fun fuel => ?_⟩
    refine (Rule.read_eq_outcome_or_cut part room ks fuel).imp_right ?_
    rintro ⟨hfuel, left, hcut⟩
    have hinside := Form.read_stopsInside (readRule_lossless Rule.form fuel)
      (readRule_stopsInside Rule.form fuel) part room ks _ hcut
    exact ⟨hfuel, left, hinside, hcut⟩
  · exact ⟨fun h f ks' => h.length_lt, fun hneeds stop => Rule.not_isStarved hneeds⟩
  · cases hparse : parse lexemes with
    | ok trees => exact .inl ⟨trees, rfl⟩
    | error e =>
      obtain ⟨line, cause, rfl⟩ := parse_eq_error hparse
      refine .inr ⟨line, cause, rfl, ?_⟩
      rintro found rfl
      exact parse_eq_error_not_word hparse rfl

/-- A class that is cut off after its opening brace is refused at its end. -/
example : parse [⟨.keyword .classKw, "class", 0, 1⟩, ⟨.identifier, "A", 6, 1⟩, ⟨.lBrace, "\x7b", 8, 1⟩] =
    .error (.grammatical 1 (.expected "'\x7d'" none)) := by
  decide +kernel

end JavaLint
