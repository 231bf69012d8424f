import JavaLint.Proofs.Verdict.Operators
import Mathlib.Tactic.Common

/-!
# The colons of labels

A statement can have a label, which is a name and a colon.  The grammar takes any name, also a keyword
that is one in some places only, such as `record` or `to`.  The walk looks at the first word of the
statement again, and takes identifiers only.  So the colon after an identifier is no operator, and the
colon after such a keyword stays one: `label_colon_is_read`.
-/

namespace JavaLint

/-- The node is a statement with a label: its first two words stand directly in it, and they are a name
and a colon. -/
structure Ancestor.HasLabel (a : Ancestor) (label colon : Lexeme) : Prop where
  statement : a.kind = .statement
  words : [label, colon] <+: codeLexemes a.inside.leaves
  own : [label, colon] <+: codeLexemes a.inside.ownLeaves
  isName : label.kind.isName = true
  isColon : colon.kind = .colon

instance (a : Ancestor) (label colon : Lexeme) : Decidable (a.HasLabel label colon) :=
  decidable_of_iff (a.kind = .statement ∧ [label, colon] <+: codeLexemes a.inside.leaves ∧
      [label, colon] <+: codeLexemes a.inside.ownLeaves ∧ label.kind.isName = true ∧
      colon.kind = .colon)
    ⟨fun ⟨h₁, h₂, h₃, h₄, h₅⟩ => ⟨h₁, h₂, h₃, h₄, h₅⟩, fun ⟨h₁, h₂, h₃, h₄, h₅⟩ => ⟨h₁, h₂, h₃, h₄, h₅⟩⟩

/-- The node of a label denies that the colon is an operator if the label is an identifier. -/
lemma Ancestor.HasLabel.deniesOperator_iff {a : Ancestor} {label colon : Lexeme}
    (h : a.HasLabel label colon) : a.DeniesOperator colon.kind ↔ label.kind = .identifier := by
  obtain ⟨rest, hrest⟩ := h.own
  simp [DeniesOperator, h.statement, h.isColon, ← hrest]

/-- The colon of a label is read as an operator if and only if the label is no identifier. -/
lemma Ancestor.HasLabel.role_reading {a : Ancestor} {label colon : Lexeme}
    (h : a.HasLabel label colon) (above : Ancestry) :
    (reading (a :: above) colon.kind).role =
      if label.kind = .identifier then .other else .lowOperator := by
  have hname : Ancestry.kind (a :: above) ≠ .name := by simp [Ancestry.kind, h.statement]
  have hloses := (losesRole_iff above).trans h.deniesOperator_iff
  rw [reading, owner?_eq_none hname, plainReading]
  by_cases hlabel : label.kind = .identifier
  · simp [hloses.2 hlabel, hlabel]
  · have hkeeps : Builder.losesRole (a :: above) colon.kind = false := by simpa [hlabel] using hloses
    rw [hkeeps, h.isColon]
    simp [hlabel, Role.ofKind]

/-- The colon of a label is no operator if the label is an identifier, and then the rule about operators
is never broken at it.  After a keyword that is used as a label the colon is an operator. -/
theorem label_colon_is_read {source : String} {file : SourceFile}
    (h : SourceFile.parse source = .ok file) :
    ∃ lexemes trees, Lexeme.scan source = .ok lexemes ∧ parse lexemes = .ok trees ∧
      ∀ n a above label colon,
        (trees.places [⟨.sourceFile, trees⟩])[n]? = some (a :: above, colon) →
        a.HasLabel label colon →
        ∃ token c, file.table.ofLexeme? n = some token ∧ file.model.classification token = .ok c ∧
          c.role = (if label.kind = .identifier then .other else .lowOperator) ∧
          (label.kind = .identifier → ∀ settings verdict, file.analyze settings = .ok verdict →
            ∀ category, (category, ⟨.token token, .operatorSpacing⟩) ∉ verdict.violations) := by
  obtain ⟨ls, trees, b, hscan, hparse, htable, hwalk, hsound, hfinish⟩ := SourceFile.parse_parts h
  obtain ⟨-, -, hclasses, -⟩ := Builder.finish_eq_ok hfinish
  refine ⟨ls, trees, hscan, hparse, fun n a above label colon hplace hlabel => ?_⟩
  have hcode : colon.isTrivia = false := by rw [Lexeme.isTrivia, hlabel.isColon]; rfl
  obtain ⟨token, htoken, hclass⟩ :=
    Builder.class_of_walk hparse (codeHasText_of_scan hscan) hwalk hsound hplace hcode
  have hc : file.model.classification token = .ok (reading (a :: above) colon.kind) := by
    rw [Model.classification, hclasses, hclass]
  have hrole := hlabel.role_reading above
  refine ⟨token, _, by rw [htable, htoken], hc, hrole, ?_⟩
  intro hidentifier settings verdict hverdict category hviolation
  obtain ⟨t, ht, hoperator⟩ := SourceFile.isLowOperator_of_violation hverdict hviolation
  obtain rfl := SourceFile.covers_of_parse h |>.numbers token t (LineTable.token_eq_ok_iff.1 ht)
  rw [SourceFile.isLowOperator, hc] at hoperator
  simp [hrole, hidentifier] at hoperator

/-- The colon of a label that is an identifier. -/
theorem label_colon_of_identifier :
    ∃ file lexemes trees a above label colon token c,
      SourceFile.parse "class A\x7bvoid f()\x7ba:;\x7d\x7d" = .ok file ∧
      Lexeme.scan "class A\x7bvoid f()\x7ba:;\x7d\x7d" = .ok lexemes ∧ parse lexemes = .ok trees ∧
      (trees.places [⟨.sourceFile, trees⟩])[11]? = some (a :: above, colon) ∧
      Ancestor.HasLabel a label colon ∧ file.table.ofLexeme? 11 = some token ∧
      file.model.classification token = .ok c ∧ c.role = .other := by
  have hread : (SourceFile.parse "class A\x7bvoid f()\x7ba:;\x7d\x7d").toOption.isSome := by
    decide +kernel
  have hplace : ((parseSource "class A\x7bvoid f()\x7ba:;\x7d\x7d").toOption.bind fun trees =>
      ((trees.places [⟨.sourceFile, trees⟩])[11]?).bind fun place => place.1.head?.map fun a =>
        (decide (a.HasLabel ⟨.identifier, "a", 17, 1⟩ ⟨.colon, ":", 18, 1⟩), place.2)) =
      some (true, ⟨.colon, ":", 18, 1⟩) := by
    decide +kernel
  obtain ⟨file, hfile⟩ := Option.isSome_iff_exists.1 hread
  rw [toOption_eq_some_iff] at hfile
  obtain ⟨lexemes, trees, hscan, hparse, hlabels⟩ := label_colon_is_read hfile
  have htrees : parseSource "class A\x7bvoid f()\x7ba:;\x7d\x7d" = .ok trees := by
    simp [parseSource, hscan, hparse, bind, Except.bind]
  rw [htrees, Except.toOption, Option.bind_some] at hplace
  obtain ⟨⟨path, colon⟩, hplace, hhead⟩ := Option.bind_eq_some_iff.1 hplace
  obtain ⟨a, ha, hfacts⟩ := Option.map_eq_some_iff.1 hhead
  simp only [Prod.mk.injEq, decide_eq_true_eq] at hfacts
  obtain ⟨hlabel, rfl⟩ := hfacts
  obtain ⟨above, rfl⟩ := List.head?_eq_some_iff.1 ha
  obtain ⟨token, c, htoken, hc, hrole, -⟩ := hlabels 11 a above _ _ hplace hlabel
  exact ⟨file, lexemes, trees, a, above, _, _, token, c, hfile, hscan, hparse, hplace, hlabel, htoken,
    hc, hrole⟩

/-- The colon of a label that is a keyword is an operator, and the rule about operators is broken at
it. -/
theorem label_colon_of_keyword :
    ∃ file lexemes trees a above label colon token c verdict,
      SourceFile.parse "class A\x7bvoid f()\x7bto:;\x7d\x7d" = .ok file ∧
      Lexeme.scan "class A\x7bvoid f()\x7bto:;\x7d\x7d" = .ok lexemes ∧ parse lexemes = .ok trees ∧
      (trees.places [⟨.sourceFile, trees⟩])[11]? = some (a :: above, colon) ∧
      Ancestor.HasLabel a label colon ∧ file.table.ofLexeme? 11 = some token ∧
      file.model.classification token = .ok c ∧ c.role ≠ .other ∧ file.analyze {} = .ok verdict ∧
      (.code, ⟨.token token, .operatorSpacing⟩) ∈ verdict.violations := by
  have hread : ((SourceFile.parse "class A\x7bvoid f()\x7bto:;\x7d\x7d").toOption.bind fun file =>
      (file.model.classification 11).toOption.bind fun c =>
        (file.analyze {}).toOption.map fun verdict => (file.table.ofLexeme? 11, c.role,
          decide ((.code, ⟨.token 11, .operatorSpacing⟩) ∈ verdict.violations))) =
      some (some 11, .lowOperator, true) := by
    decide +kernel
  have hplace : ((Lexeme.scan "class A\x7bvoid f()\x7bto:;\x7d\x7d").toOption.bind fun lexemes =>
      (parse lexemes).toOption.bind fun trees =>
        ((trees.places [⟨.sourceFile, trees⟩])[11]?).bind fun place => place.1.head?.map fun a =>
          (decide (a.HasLabel ⟨.keyword .toKw, "to", 17, 1⟩ ⟨.colon, ":", 19, 1⟩), place.2)) =
      some (true, ⟨.colon, ":", 19, 1⟩) := by
    decide +kernel
  obtain ⟨file, hfile, hread⟩ := Option.bind_eq_some_iff.1 hread
  obtain ⟨c, hc, hread⟩ := Option.bind_eq_some_iff.1 hread
  obtain ⟨verdict, hverdict, hread⟩ := Option.map_eq_some_iff.1 hread
  obtain ⟨lexemes, hscan, hplace⟩ := Option.bind_eq_some_iff.1 hplace
  obtain ⟨trees, hparse, hplace⟩ := Option.bind_eq_some_iff.1 hplace
  obtain ⟨⟨path, colon⟩, hplace, hhead⟩ := Option.bind_eq_some_iff.1 hplace
  obtain ⟨a, ha, hlabel⟩ := Option.map_eq_some_iff.1 hhead
  obtain ⟨above, rfl⟩ := List.head?_eq_some_iff.1 ha
  rw [toOption_eq_some_iff] at hfile hc hverdict hscan hparse
  simp only [Prod.mk.injEq, decide_eq_true_eq] at hread hlabel
  obtain ⟨htoken, hrole, hviolation⟩ := hread
  obtain ⟨hlabel, rfl⟩ := hlabel
  exact ⟨file, lexemes, trees, a, above, _, _, 11, c, verdict, hfile, hscan, hparse, hplace, hlabel,
    htoken, hc, by simp [hrole], hverdict, hviolation⟩

end JavaLint
