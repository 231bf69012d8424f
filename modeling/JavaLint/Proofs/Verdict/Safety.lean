import JavaLint.Proofs.Grammar.Counters
import JavaLint.Proofs.Lexeme.Position
import JavaLint.Proofs.Model.Walk
import JavaLint.Proofs.Verdict.Outcomes
import JavaLint.Verdict.Finding
import Mathlib.Tactic.Common

/-!
# An analysis fails only because of the text

A source text may be refused, because it cannot be cut into lexemes or because the grammar does not
accept these.  Nothing else can go wrong.  The parts of the program are made for each other: the
leaves of a tree are numbered like the lexemes of the table, every node of a tree has code in it,
and every role of a declared name has a naming rule.

`Safe` lists what the parts rely on where they look something up by its number or lower a count.
The main result is `analysis_fails_only_on_text`.
-/

namespace JavaLint

/-- Whatever is looked up by its number while a file of these lexemes is read is there, and no count
falls below zero. -/
structure Safe (ls : List Lexeme) : Prop where
  /-- The depth of nesting is lowered only where it was raised. -/
  nesting : readShapeCounting ((codeLexemes ls).map Lexeme.kind) =
    match readShape ((codeLexemes ls).map Lexeme.kind) with
    | .ok shape => .ok (shape, [], 0)
    | .error stop => .error (some stop)
  /-- The count of open angle brackets is lowered only where it was raised. -/
  angles : ∀ ks, ∃ rest, Lookahead.countAngles 0 (.lt :: ks) = some rest ∧
    Lookahead.afterName? (.lt :: ks) = rest.bind Lookahead.afterTypeArgs?
  /-- The count of open parentheses is lowered only where it was raised. -/
  parentheses : ∀ ks, Lookahead.countParens 0 (.lParen :: ks) =
    some (Lookahead.atLambdaParams (.lParen :: ks))
  /-- The word at which the grammar stops is one of the words, or their end. -/
  stop : ∀ stop, readShape ((codeLexemes ls).map Lexeme.kind) = .error stop →
    stop.left ≤ (codeLexemes ls).length
  /-- There is a word for each leaf of the shape. -/
  words : ∀ shape, readShape ((codeLexemes ls).map Lexeme.kind) = .ok shape →
    shape.leaves.length = (words ls).1.length
  /-- Lexemes are led to tokens that exist. -/
  entries : ∀ n number, (LineTable.ofLexemes ls).ofLexeme? n = some number →
    number < (LineTable.ofLexemes ls).count
  /-- Tokens stand at their places in the rows of the table. -/
  places : ∀ (n : Nat) (t : Token), (LineTable.ofLexemes ls).tokens[n]? = some t →
    ∃ (slot : Nat) (row : Array Token), (LineTable.ofLexemes ls).rows[slot]? = some row ∧
      row[t.place]? = some t
  /-- All the way through the tree, the builder keeps only numbers of tokens and scopes that exist,
  and its open declarations and scopes are those of the nodes around the place. -/
  walk : ∀ trees, parse ls = .ok trees →
    Builder.Throughout (fun path b => b.Sound ls ∧ b.Fits path) [⟨.sourceFile, trees⟩] trees
      { Builder.ofTable (LineTable.ofLexemes ls) with walked := true }
  /-- The first and the last token of a line that is not empty exist, and the end of its range is
  not zero. -/
  lines : ∀ line ∈ (LineTable.ofLexemes ls).lines, line.start < line.stop →
    0 < line.stop ∧ line.start < (LineTable.ofLexemes ls).count ∧
      line.stop - 1 < (LineTable.ofLexemes ls).count

/-! ## The stages -/

/-- A text that cannot be cut into lexemes is to blame itself. -/
lemma scanFrom_eq_error {offset line : Nat} {cs : List Char} {e : Error}
    (h : Lexeme.scanFrom offset line cs = .error e) : ∃ line cause, e = .lexical line cause := by
  fun_induction Lexeme.scanFrom offset line cs generalizing e with
  | case1 => simp at h
  | case2 offset line c cs cause hnext =>
    obtain rfl : Error.lexical line cause = e := by simpa using h
    exact ⟨_, _, rfl⟩
  | case3 offset line c cs kind n hnext text =>
    rename_i ih
    apply ih
    cases hrest : Lexeme.scanFrom (offset + Text.byteSize text) (line + Text.breaks text)
        (cs.drop n) with
    | error e' => simpa [hrest, Except.map] using h
    | ok rest => simp [hrest, Except.map] at h

/-- A model is built from the tree of a file, and it covers the table of the file. -/
lemma build_covers {ls : List Lexeme} {trees : Forest Lexeme} (hparse : parse ls = .ok trees)
    (hcode : CodeHasText ls) :
    ∃ model, Model.build (LineTable.ofLexemes ls) trees = .ok model ∧
      SourceFile.Covers ⟨LineTable.ofLexemes ls, model⟩ := by
  obtain ⟨b, model, hbuild, -, hsound, hfinish⟩ := Model.build_succeeds hparse hcode
  obtain ⟨hscopes, htokenScopes, hclasses, -⟩ := Builder.finish_eq_ok hfinish
  refine ⟨model, hbuild, ?_, ?_, ?_, ?_⟩
  · simpa [htokenScopes, hsound.table] using hsound.size_tokenScopes
  · simpa [hclasses, hsound.table] using hsound.size_classes
  · simpa [htokenScopes, hscopes] using hsound.tokenScopes_lt
  · intro n t ht
    exact LineTable.number_ofLexemes ht

/-- Reading a source text fails only because of the text, and what is read covers its table. -/
lemma SourceFile.parse_cases (source : String) :
    (∃ file, SourceFile.parse source = .ok file ∧ file.Covers) ∨
      (∃ line cause, SourceFile.parse source = .error (.lexical line cause)) ∨
      ∃ line cause, SourceFile.parse source = .error (.grammatical line cause) := by
  unfold SourceFile.parse
  cases hscan : Lexeme.scan source with
  | error e =>
    obtain ⟨line, cause, rfl⟩ := scanFrom_eq_error hscan
    exact .inr (.inl ⟨line, cause, rfl⟩)
  | ok ls =>
    cases hparse : JavaLint.parse ls with
    | error e =>
      obtain ⟨line, cause, rfl⟩ := parse_eq_error hparse
      exact .inr (.inr ⟨line, cause, by simp [hparse, bind, Except.bind]⟩)
    | ok trees =>
      obtain ⟨model, hbuild, hcovers⟩ := build_covers hparse (codeHasText_of_scan hscan)
      exact .inl ⟨_, by simp [hparse, hbuild, bind, Except.bind, pure, Except.pure], hcovers⟩

/-- The model of a source file covers its table. -/
lemma SourceFile.covers_of_parse {source : String} {file : SourceFile}
    (h : SourceFile.parse source = .ok file) : file.Covers := by
  rcases SourceFile.parse_cases source with ⟨file', hfile', hcovers⟩ | ⟨_, _, herror⟩ | ⟨_, _, herror⟩
  · obtain rfl : file' = file := by simpa [hfile'] using h
    exact hcovers
  · simp [herror] at h
  · simp [herror] at h

/-- The analysis of a text that is read goes through, and is made of the file and the verdict on it. -/
lemma analyzeSource_of_parse {source : String} {file : SourceFile}
    (h : SourceFile.parse source = .ok file) (settings : Settings) :
    ∃ verdict, file.analyze settings = .ok verdict ∧
      analyzeSource source settings = .ok ⟨file, verdict⟩ := by
  obtain ⟨verdict, hverdict⟩ := SourceFile.analyze_succeeds (SourceFile.covers_of_parse h) settings
  refine ⟨verdict, hverdict, ?_⟩
  simp [analyzeSource, h, hverdict, bind, Except.bind, pure, Except.pure]

/-- A text that is not read is not analyzed. -/
lemma analyzeSource_ne_ok {source : String} {e : Error} (h : SourceFile.parse source = .error e)
    (settings : Settings) (a : Analysis) : analyzeSource source settings ≠ .ok a := by
  simp [analyzeSource, h, bind, Except.bind]

/-- Every sequence of lexemes is worked on safely, if none that is code is empty. -/
lemma safe_of_code {ls : List Lexeme} (hcode : CodeHasText ls) : Safe ls where
  nesting := readShapeCounting_eq _
  angles := Lookahead.countAngles_lt
  parentheses := Lookahead.countParens_lParen
  stop := by
    intro stop hstop
    simpa using readShape_stopsInside hstop
  words := by
    intro shape hshape
    rw [readShape_leaves hshape, words_length, List.length_map]
  entries := fun _ _ => LineTable.ofLexeme?_lt
  places := fun _ _ => LineTable.place_ofLexemes
  walk := by
    intro trees hparse
    obtain ⟨-, -, -, -, hthrough⟩ := Builder.walk_succeeds hparse hcode
    exact hthrough
  lines := by
    intro line hline hne
    have hstop := LineTable.stop_le_count hline
    omega

/-! ## The analysis -/

/-- The analysis of a source text succeeds, or the text is refused by the scanner or by the
grammar, whatever the settings are.  It never fails because an item is missing or has been judged
before, or because the parts of the program do not agree.  On the way no lexeme reaches beyond the
text, everything that is looked up by its number is there, and no count falls below zero. -/
theorem analysis_fails_only_on_text (source : String) (settings : Settings) :
    ((∃ analysis, analyzeSource source settings = .ok analysis) ∨
      (∃ line cause, analyzeSource source settings = .error (.lexical line cause)) ∨
      ∃ line cause, analyzeSource source settings = .error (.grammatical line cause)) ∧
    (∀ c cs kind n, Lexeme.next c cs = .ok (kind, n) → n ≤ cs.length) ∧
    (∀ lexemes, Lexeme.scan source = .ok lexemes → Safe lexemes) ∧
    ∀ file, SourceFile.parse source = .ok file → file.Covers := by
  refine ⟨?_, fun _ _ _ _ hnext => (Lexeme.next_extent hnext).1, ?_, ?_⟩
  · rcases SourceFile.parse_cases source with
      ⟨file, hfile, hcovers⟩ | ⟨line, cause, herror⟩ | ⟨line, cause, herror⟩
    · obtain ⟨verdict, hverdict⟩ := SourceFile.analyze_succeeds hcovers settings
      left
      refine ⟨⟨file, verdict⟩, ?_⟩
      simp [analyzeSource, hfile, hverdict, bind, Except.bind, pure, Except.pure]
    · exact .inr (.inl ⟨line, cause, by simp [analyzeSource, herror, bind, Except.bind]⟩)
    · exact .inr (.inr ⟨line, cause, by simp [analyzeSource, herror, bind, Except.bind]⟩)
  · intro lexemes hscan
    exact safe_of_code (codeHasText_of_scan hscan)
  · exact fun file hfile => SourceFile.covers_of_parse hfile

end JavaLint
