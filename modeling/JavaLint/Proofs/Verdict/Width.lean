import JavaLint.Proofs.Token.Widths
import JavaLint.Proofs.Verdict.Outcomes
import JavaLint.Proofs.Verdict.Safety
import Mathlib.Tactic.Common

/-!
# Findings about long lines

A line is found to be too long if and only if its width exceeds the bound and it is not overlooked: a
line inside a comment or a text block counts as empty, and one after the start of the last token is not
judged, not even if the token ends on it.

The main result is `line_length_found_iff`.
-/

namespace JavaLint

/-! ## Findings and outcomes -/

/-- Only one rule is about the width of lines. -/
lemma Breach.name_eq_iff {breach : Breach} :
    breach.name = "line-length" ↔ ∃ width, breach = .lineTooLong width := by
  cases breach <;> simp [name]

/-- No token is too wide for a line. -/
lemma TokenOutcome.lineTooLong_notMem (o : TokenOutcome) (style : Option BracePlacement)
    (width : Nat) : .lineTooLong width ∉ o.breaches style := by
  obtain ⟨token, ruling, fine⟩ := o
  cases ruling with
  | whitespace mixed => cases mixed <;> simp [breaches]
  | comment spaced => cases spaced <;> simp [breaches]
  | docComment check =>
    simp only [breaches, Option.mem_toList, DocCheck.breach?]
    split_ifs <;> simp
  | code outcome =>
    cases outcome with
    | name n =>
      have hlength : .lineTooLong width ∉ n.length.breaches := by
        cases n.length <;> simp [LengthCheck.breaches]
      simp only [breaches, CodeOutcome.breaches, NameOutcome.breaches, List.mem_append, hlength]
      split <;> simp
    | openingBrace placement =>
      have hplaced (found expected : BracePlacement) :
          .lineTooLong width ∉ found.breaches expected := by
        unfold BracePlacement.breaches
        split <;> simp
      cases hfound : placement.determined? <;> cases style <;>
        simp [breaches, CodeOutcome.breaches, hfound, hplaced]
    | unchecked => simp [breaches, CodeOutcome.breaches]
    | _ => cases fine <;> simp [breaches, CodeOutcome.breaches]

/-- The rule of a finding is that of the breach. -/
lemma Finding.rule_ofViolation (table : LineTable) (category : Category) (v : Violation) :
    (ofViolation table category v).rule = v.breach.name := by
  unfold ofViolation
  split
  · rfl
  · split <;> rfl

/-- A line is found to be too long if its outcome says so. -/
lemma Verdict.exists_lineLength_iff (tokens : List TokenOutcome) (lines : List LineOutcome)
    (table : LineTable) (n : Nat) :
    (∃ f ∈ (ofOutcomes tokens lines).findings table, f.rule = "line-length" ∧ f.line = n) ↔
      ∃ o ∈ lines, o.line = n ∧ o.tooLong = true := by
  constructor
  · rintro ⟨f, hf, hrule, rfl⟩
    obtain ⟨⟨category, v⟩, hv, rfl⟩ := List.mem_map.1 hf
    obtain ⟨width, hbreach⟩ := Breach.name_eq_iff.1 ((Finding.rule_ofViolation ..).symm.trans hrule)
    have hmem := mem_violations_iff.1 hv
    rw [ofCategory_ofOutcomes] at hmem
    rcases List.mem_append.1 hmem with htokens | hlines
    · obtain ⟨o, -, -, -, style, hmem⟩ := TokenOutcome.mem_violationsIn htokens
      rw [hbreach] at hmem
      exact absurd hmem (o.lineTooLong_notMem style width)
    · split at hlines
      · obtain ⟨o, ho, hline⟩ := List.mem_flatMap.1 hlines
        obtain ⟨breach, hshown, rfl⟩ := List.mem_map.1 hline
        obtain rfl : breach = .lineTooLong width := hbreach
        refine ⟨o, ho, rfl, ?_⟩
        unfold LineOutcome.breaches at hshown
        cases htooLong : o.tooLong with
        | true => rfl
        | false => cases htrailing : o.trailingSpace <;> simp [htooLong, htrailing] at hshown
      · simp at hlines
  · rintro ⟨o, ho, rfl, htooLong⟩
    have hbreach : .lineTooLong o.width ∈ o.breaches := by simp [LineOutcome.breaches, htooLong]
    have hmem : ⟨.line o.line, .lineTooLong o.width⟩ ∈ (ofOutcomes tokens lines).ofCategory .line := by
      rw [ofCategory_ofOutcomes, if_pos rfl]
      exact List.mem_append_right _ (List.mem_flatMap.2 ⟨o, ho, List.mem_map.2 ⟨_, hbreach, rfl⟩⟩)
    exact ⟨_, List.mem_map.2 ⟨_, mem_violations_iff.2 hmem, rfl⟩, rfl, rfl⟩

namespace SourceFile

/-- The outcome for a line says that it is too long if it is judged and its width exceeds the bound. -/
lemma exists_tooLong_iff (file : SourceFile) (settings : Settings) {n : Nat} (hpos : 0 < n) :
    (∃ o ∈ file.lineOutcomes settings, o.line = n ∧ o.tooLong = true) ↔
      n ≤ file.table.rows.size ∧ settings.maxLineWidth < file.table.lineWidth n := by
  have hmem (m : Nat) : m ∈ file.table.lines.map Line.number ↔ 0 < m ∧ m ≤ file.table.rows.size := by
    rw [LineTable.map_number_lines, List.mem_range'_1]
    omega
  constructor
  · rintro ⟨o, ho, rfl, htooLong⟩
    obtain ⟨m, hm, rfl⟩ := List.mem_map.1 ho
    exact ⟨((hmem m).1 hm).2, by simpa [judgeLine] using htooLong⟩
  · rintro ⟨hle, hlt⟩
    exact ⟨file.judgeLine settings n, List.mem_map.2 ⟨n, (hmem n).2 ⟨hpos, hle⟩, rfl⟩, rfl, by
      simpa [judgeLine] using hlt⟩

end SourceFile

/-! ## The lines of a text -/

/-- A line of a source text is found to be too long if and only if it is wider than the bound and is not
overlooked. -/
theorem line_length_found_iff {source : String} {file : SourceFile}
    (hfile : SourceFile.parse source = .ok file) {ls : List Lexeme}
    (hscan : Lexeme.scan source = .ok ls) (settings : Settings) :
    ∃ a, analyzeSource source settings = .ok a ∧ ∀ n, 0 < n →
      ((∃ f ∈ a.findings, f.rule = "line-length" ∧ f.line = n) ↔
        ¬ Lexeme.IsOverlooked ls n ∧
          ∃ line, (Text.physicalLines source.toList)[n - 1]? = some line ∧
            settings.maxLineWidth < Text.width 1 0 line) := by
  obtain ⟨verdict, hverdict, hanalysis⟩ := analyzeSource_of_parse hfile settings
  refine ⟨⟨file, verdict⟩, hanalysis, fun n hpos => ?_⟩
  obtain ⟨tokens, -, rfl⟩ := exists_of_map_eq_ok ((file.analyze_eq settings).symm.trans hverdict)
  have htable : file.table = LineTable.ofLexemes ls := by
    obtain ⟨ls', -, -, hscan', -, htable, -⟩ := SourceFile.parse_parts hfile
    rw [htable, Except.ok.inj (hscan'.symm.trans hscan)]
  rw [Analysis.findings, Verdict.exists_lineLength_iff, file.exists_tooLong_iff settings hpos, htable,
    LineTable.lt_lineWidth_iff hscan hpos, Text.lt_widthOfLine_iff]

/-- The second line of a text is found to be too long, on which a comment ends. -/
theorem line_length_of_comment_end :
    ∃ a, analyzeSource "/*\n a wide line */\nclass A\x7b\x7d" { maxLineWidth := 12 } = .ok a ∧
      ∃ f ∈ a.findings, f.rule = "line-length" ∧ f.line = 2 := by
  have hread : ((Lexeme.scan "/*\n a wide line */\nclass A\x7b\x7d").toOption.map fun ls =>
      decide (Lexeme.IsOverlooked ls 2)) = some false ∧
      (SourceFile.parse "/*\n a wide line */\nclass A\x7b\x7d").toOption.isSome = true := by
    decide +kernel
  cases hscan : Lexeme.scan "/*\n a wide line */\nclass A\x7b\x7d" with
  | error e => simp [hscan, Except.toOption] at hread
  | ok ls =>
    cases hfile : SourceFile.parse "/*\n a wide line */\nclass A\x7b\x7d" with
    | error e => simp [hfile, Except.toOption] at hread
    | ok file =>
      have hseen : ¬ Lexeme.IsOverlooked ls 2 := by simpa [hscan, Except.toOption] using hread.1
      obtain ⟨a, ha, hfound⟩ := line_length_found_iff hfile hscan { maxLineWidth := 12 }
      exact ⟨a, ha, (hfound 2 (by decide)).2 ⟨hseen, " a wide line */".toList, by decide, by decide⟩⟩

/-- A comment at the end of a text, of which neither the line inside it nor the line on which it ends is
found to be too long. -/
theorem line_length_in_comment_missed :
    ∃ a, analyzeSource "/*\n a wide line\n a wide line */" { maxLineWidth := 10 } = .ok a ∧
      ¬ ∀ n, 0 < n → ((∃ f ∈ a.findings, f.rule = "line-length" ∧ f.line = n) ↔
        ∃ line, (Text.physicalLines "/*\n a wide line\n a wide line */".toList)[n - 1]? = some line ∧
          10 < Text.width 1 0 line) := by
  have hrules : ((analyzeSource "/*\n a wide line\n a wide line */" { maxLineWidth := 10 }).toOption.map
      fun a => a.findings.map Finding.rule) = some [] := by
    decide +kernel
  cases ha : analyzeSource "/*\n a wide line\n a wide line */" { maxLineWidth := 10 } with
  | error e => simp [ha, Except.toOption] at hrules
  | ok a =>
    refine ⟨a, rfl, fun hlaw => ?_⟩
    have hnone : a.findings = [] := by simpa [ha, Except.toOption] using hrules
    have hfound := (hlaw 2 (by decide)).2 ⟨" a wide line".toList, by decide, by decide⟩
    simp [hnone] at hfound

end JavaLint
