import JavaLint.Proofs.Verdict.Outcomes
import JavaLint.Proofs.Verdict.Safety
import Mathlib.Tactic.Common

/-!
# When a file passes

Every outcome says by itself whether its token or line is as it should be.  The summaries do not ask
it, but look at the single findings again.  The two agree: an outcome adds nothing to a verdict if and
only if it is fine, its name has a good length, and its brace is placed as the first one was
(`breaches_eq_nil_iff`).  So a file passes if and only if all its outcomes are fine, no name is too
short or too long, and all braces are placed alike: `verdict_passes_iff`.
-/

namespace JavaLint

/-! ## One outcome -/

/-- The first thing that is wrong with a doc comment exists if something is wrong with it. -/
lemma DocCheck.breach?_eq_none_iff (check : DocCheck) : check.breach? = none ↔ check.isBad = false := by
  unfold breach? isBad
  cases check.subjectMatched <;> cases check.unmatchedTags <;> cases check.unmatchedParams <;>
    cases check.returnMissing <;> simp

/-- A name breaks nothing if its spelling and its length are good. -/
lemma NameOutcome.breaches_eq_nil_iff (n : NameOutcome) :
    n.breaches = [] ↔ n.isWellSpelled = true ∧ n.length = .withinBounds := by
  unfold breaches
  cases n.isWellSpelled <;> cases n.length <;> simp [LengthCheck.breaches]

/-- A placement breaks nothing if it is like the first one. -/
lemma BracePlacement.breaches_eq_nil_iff (found expected : BracePlacement) :
    found.breaches expected = [] ↔ expected = found := by
  simp [breaches]

namespace TokenOutcome

/-- The name for which the outcome is, if it is for one, is neither too short nor too long. -/
def LengthFits (o : TokenOutcome) : Prop :=
  ∀ n, o.ruling = .code (.name n) → n.length = .withinBounds

/-- An outcome breaks nothing if it is fine, its name has a good length, and its brace is placed as the
first one was. -/
lemma breaches_eq_nil_iff {o : TokenOutcome} (hfine : o.fine = o.ruling.isFine)
    (style : Option BracePlacement) :
    o.breaches style = [] ↔ o.fine = true ∧ o.LengthFits ∧
      ∀ found ∈ o.placement?, ∀ expected ∈ style, expected = found := by
  obtain ⟨token, ruling, fine⟩ := o
  dsimp only at hfine
  cases ruling with
  | whitespace mixed =>
    cases mixed <;> simp [hfine, breaches, TokenRuling.isFine, LengthFits, placement?]
  | comment spaced =>
    cases spaced <;> simp [hfine, breaches, TokenRuling.isFine, LengthFits, placement?]
  | docComment check =>
    simp [hfine, breaches, TokenRuling.isFine, LengthFits, placement?, check.breach?_eq_none_iff]
  | code outcome =>
    cases outcome with
    | name n =>
      simpa [hfine, breaches, CodeOutcome.breaches, TokenRuling.isFine, CodeOutcome.isFine, LengthFits,
        placement?, CodeOutcome.placement?] using n.breaches_eq_nil_iff
    | openingBrace placement =>
      simp only [hfine, breaches, CodeOutcome.breaches, TokenRuling.isFine, CodeOutcome.isFine,
        LengthFits, placement?, CodeOutcome.placement?]
      cases placement.determined? <;> cases style <;> simp [BracePlacement.breaches_eq_nil_iff]
    | unchecked =>
      simp [hfine, breaches, CodeOutcome.breaches, TokenRuling.isFine, CodeOutcome.isFine, LengthFits,
        placement?, CodeOutcome.placement?]
    | _ =>
      -- The summary asks the rules about spaces no more than whether the outcome is fine.
      simp [breaches, CodeOutcome.breaches, LengthFits, placement?, CodeOutcome.placement?]

/-- An outcome that is not fine breaks something, whatever came before it. -/
lemma breaches_ne_nil {o : TokenOutcome} (hfine : o.fine = o.ruling.isFine) (hbad : o.fine = false)
    (style : Option BracePlacement) : o.breaches style ≠ [] := by
  intro hnil
  rw [breaches_eq_nil_iff hfine] at hnil
  simp [hbad] at hnil

end TokenOutcome

/-- A line breaks nothing if it is neither too long nor ends with blanks. -/
lemma LineOutcome.breaches_eq_nil_iff (o : LineOutcome) :
    o.breaches = [] ↔ (!o.tooLong && !o.trailingSpace) = true := by
  unfold breaches
  cases o.tooLong <;> cases o.trailingSpace <;> simp

/-! ## A run -/

/-- All placements are the same. -/
def BracePlacement.Uniform (placements : List BracePlacement) : Prop :=
  ∀ p ∈ placements, ∀ q ∈ placements, p = q

namespace TokenOutcome

/-- The outcomes break nothing if each is fine, no name is too short or too long, and all braces are
placed as the first one, also if that came before them. -/
lemma violationsIn_eq_nil_iff {os : List TokenOutcome} (hfine : ∀ o ∈ os, o.fine = o.ruling.isFine)
    (style : Option BracePlacement) :
    (∀ category, violationsIn category style os = []) ↔
      (∀ o ∈ os, o.fine = true) ∧ (∀ o ∈ os, o.LengthFits) ∧
        BracePlacement.Uniform (style.toList ++ os.filterMap placement?) := by
  induction os generalizing style with
  | nil => cases style <;> simp [violationsIn, BracePlacement.Uniform]
  | cons o os ih =>
    obtain ⟨ho, hos⟩ := List.forall_mem_cons.1 hfine
    have hsplit : (∀ category, violationsIn category style (o :: os) = []) ↔
        o.breaches style = [] ∧ ∀ category, violationsIn category (style.or o.placement?) os = [] := by
      simp only [violationsIn, List.append_eq_nil_iff, forall_and]
      refine and_congr_left fun _ => ⟨fun h => ?_, fun h category => ?_⟩
      · simpa using h o.ruling.category
      · simp [h]
    -- A brace is held against the first one, which is the same for all that follow.
    have huniform : ((∀ found ∈ o.placement?, ∀ expected ∈ style, expected = found) ∧
        BracePlacement.Uniform ((style.or o.placement?).toList ++ os.filterMap placement?)) ↔
        BracePlacement.Uniform (style.toList ++ (o :: os).filterMap placement?) := by
      cases hplacement : o.placement? with
      | none => simp [hplacement]
      | some found =>
        cases style with
        | none => simp [hplacement]
        | some expected =>
          simp only [List.filterMap_cons, hplacement, BracePlacement.Uniform]
          constructor
          · rintro ⟨hfound, hall⟩
            obtain rfl : expected = found := hfound found rfl expected rfl
            simpa using hall
          · intro hall
            obtain rfl : expected = found := hall expected (by simp) found (by simp)
            exact ⟨by simp, by simpa using hall⟩
    rw [hsplit, breaches_eq_nil_iff ho, ih hos, ← huniform, List.forall_mem_cons,
      List.forall_mem_cons]
    tauto

/-- An outcome that is not fine adds a violation at its token. -/
lemma exists_mem_violationsIn {os : List TokenOutcome} {o : TokenOutcome} (ho : o ∈ os)
    (hfine : o.fine = o.ruling.isFine) (hbad : o.fine = false) (style : Option BracePlacement) :
    ∃ violation ∈ violationsIn o.ruling.category style os, violation.item = .token o.token := by
  induction os generalizing style with
  | nil => simp at ho
  | cons o' os ih =>
    rcases List.mem_cons.1 ho with rfl | hrest
    · obtain ⟨breach, hbreach⟩ := List.exists_mem_of_ne_nil _ (breaches_ne_nil hfine hbad style)
      exact ⟨⟨.token o.token, breach⟩, by simp [violationsIn, hbreach], rfl⟩
    · obtain ⟨violation, hmem, hitem⟩ := ih hrest (style.or o'.placement?)
      exact ⟨violation, List.mem_append_right _ hmem, hitem⟩

end TokenOutcome

/-! ## Order -/

/-- The number of a token or of a line. -/
def Item.number : Item → Nat
  | token n => n
  | line n => n

/-- The outcomes add violations in the order of their tokens. -/
lemma TokenOutcome.sorted_violationsIn {os : List TokenOutcome}
    (h : os.Pairwise fun o o' => o.token ≤ o'.token) (category : Category)
    (style : Option BracePlacement) :
    (violationsIn category style os).Pairwise fun a b => a.item.number ≤ b.item.number := by
  induction os generalizing style with
  | nil => exact .nil
  | cons o os ih =>
    obtain ⟨hfirst, hrest⟩ := List.pairwise_cons.1 h
    refine List.pairwise_append.2 ⟨?_, ih hrest _, ?_⟩
    · split
      · exact List.pairwise_map.2 (List.pairwise_of_forall fun _ _ => le_refl _)
      · exact .nil
    · intro a ha b hb
      obtain ⟨o', ho', -, hitem, -⟩ := mem_violationsIn hb
      have ha' : a.item = .token o.token := by
        split at ha
        · obtain ⟨breach, -, rfl⟩ := List.mem_map.1 ha
          rfl
        · simp at ha
      rw [ha', hitem]
      exact hfirst o' ho'

/-- The outcomes add violations in the order of their lines. -/
lemma LineOutcome.sorted_violationsOf {os : List LineOutcome}
    (h : os.Pairwise fun o o' => o.line ≤ o'.line) :
    (violationsOf os).Pairwise fun a b => a.item.number ≤ b.item.number := by
  refine List.pairwise_flatMap.2 ⟨fun o _ => ?_, h.imp fun hle a ha b hb => ?_⟩
  · exact List.pairwise_map.2 (List.pairwise_of_forall fun _ _ => le_refl _)
  · obtain ⟨_, -, rfl⟩ := List.mem_map.1 ha
    obtain ⟨_, -, rfl⟩ := List.mem_map.1 hb
    exact hle

/-- The outcomes for lines break nothing if no line is too long or ends with blanks. -/
lemma LineOutcome.violationsOf_eq_nil_iff (os : List LineOutcome) :
    violationsOf os = [] ↔ ∀ o ∈ os, (!o.tooLong && !o.trailingSpace) = true := by
  simp only [violationsOf, List.flatMap_eq_nil_iff, List.map_eq_nil_iff, breaches_eq_nil_iff]

/-- The outcomes for tokens add nothing to the category of lines. -/
lemma TokenOutcome.violationsIn_line (style : Option BracePlacement) (os : List TokenOutcome) :
    violationsIn .line style os = [] := by
  rw [List.eq_nil_iff_forall_not_mem]
  intro violation hmem
  obtain ⟨o, -, hcategory, -⟩ := mem_violationsIn hmem
  cases hruling : o.ruling <;> simp [hruling, TokenRuling.category] at hcategory

namespace Verdict

/-- A verdict passes if and only if neither the outcomes for tokens nor those for lines break
anything. -/
lemma passed_ofOutcomes_iff (tokens : List TokenOutcome) (lines : List LineOutcome) :
    (ofOutcomes tokens lines).passed = true ↔
      (∀ category, TokenOutcome.violationsIn category none tokens = []) ∧
        LineOutcome.violationsOf lines = [] := by
  simp only [passed_iff, ofCategory_ofOutcomes, List.append_eq_nil_iff, forall_and]
  refine and_congr_right fun _ => ⟨fun h => h .line, fun h category => ?_⟩
  split
  · exact h
  · rfl

/-- Violations of lines are about lines and all others about tokens. -/
lemma item_of_mem_ofOutcomes {tokens : List TokenOutcome} {lines : List LineOutcome}
    {category : Category} {violation : Violation}
    (h : (category, violation) ∈ (ofOutcomes tokens lines).violations) :
    violation.item = if category = .line then .line violation.item.number
      else .token violation.item.number := by
  rw [mem_violations_iff, ofCategory_ofOutcomes] at h
  split at h
  · rename_i hcategory
    rw [hcategory, TokenOutcome.violationsIn_line, List.nil_append] at h
    obtain ⟨o, -, hmem⟩ := List.mem_flatMap.1 h
    obtain ⟨breach, -, rfl⟩ := List.mem_map.1 hmem
    rw [if_pos hcategory]
    rfl
  · rename_i hcategory
    rw [List.append_nil] at h
    obtain ⟨o, -, -, hitem, -⟩ := TokenOutcome.mem_violationsIn h
    rw [if_neg hcategory, hitem]
    rfl

/-- In each category violations come in the order of their tokens or lines, if the outcomes do. -/
lemma sorted_ofOutcomes {tokens : List TokenOutcome} {lines : List LineOutcome}
    (htokens : tokens.Pairwise fun o o' => o.token ≤ o'.token)
    (hlines : lines.Pairwise fun o o' => o.line ≤ o'.line) (category : Category) :
    ((ofOutcomes tokens lines).ofCategory category).Pairwise fun a b =>
      a.item.number ≤ b.item.number := by
  rw [ofCategory_ofOutcomes]
  split
  · rename_i hcategory
    rw [hcategory, TokenOutcome.violationsIn_line, List.nil_append]
    exact LineOutcome.sorted_violationsOf hlines
  · rw [List.append_nil]
    exact TokenOutcome.sorted_violationsIn htokens category none

end Verdict

/-! ## The verdict on a file -/

namespace SourceFile

variable {file : SourceFile} {settings : Settings}

/-- The outcomes for the tokens of a file come in the order of the tokens. -/
lemma map_token_tokenOutcomes {outcomes : List TokenOutcome}
    (h : file.tokenOutcomes settings = .ok outcomes) :
    outcomes.map TokenOutcome.token = List.range file.table.count := by
  have hall : List.Forall₂ (fun n m => m = n) (List.range file.table.count)
      (outcomes.map TokenOutcome.token) :=
    List.forall₂_map_right_iff.2 ((forall₂_tokenOutcomes h).imp fun _ _ hn => (judgeToken_eq_ok hn).1)
  exact List.forall₂_eq_eq_eq ▸ hall.flip

/-- The outcomes for the tokens of a file say whether the tokens are as they should be. -/
lemma fine_tokenOutcomes {outcomes : List TokenOutcome}
    (h : file.tokenOutcomes settings = .ok outcomes) :
    ∀ o ∈ outcomes, o.fine = o.ruling.isFine := by
  intro o ho
  obtain ⟨n, -, hn⟩ := exists_of_mem_of_mapM_eq_ok h ho
  exact (judgeToken_eq_ok hn).2

/-- In a new session each token is judged as in the verdict on the file. -/
lemma forall₂_start_judgeToken {outcomes : List TokenOutcome}
    (h : file.tokenOutcomes settings = .ok outcomes) :
    List.Forall₂ (fun n o => ((Session.start file settings).judgeToken n).1 = .ok o ∧ o.token = n)
      (List.range file.table.count) outcomes := by
  have hlt : ∀ n ∈ List.range file.table.count, n < file.table.count := fun n => List.mem_range.1
  refine ((List.forall₂_and_left _ _).2 ⟨hlt, forall₂_tokenOutcomes h⟩).imp ?_
  rintro n o ⟨hn, ho⟩
  exact ⟨(Session.start_judgeToken file settings hn).trans ho, (judgeToken_eq_ok ho).1⟩

/-- In a new session each line is judged as in the verdict on the file. -/
lemma forall₂_start_judgeLine (file : SourceFile) (settings : Settings) :
    List.Forall₂ (fun n o => ((Session.start file settings).judgeLine n).1 = .ok o ∧ o.line = n)
      (file.table.lines.map Line.number) (file.lineOutcomes settings) := by
  refine List.forall₂_map_right_iff.2 (List.forall₂_same.2 fun n hn => ⟨?_, rfl⟩)
  rw [LineTable.map_number_lines, List.mem_range'_1] at hn
  exact Session.start_judgeLine file settings (by omega) (by omega)

/-- The outcomes for the lines of a file come in the order of the lines. -/
lemma map_line_lineOutcomes (file : SourceFile) (settings : Settings) :
    (file.lineOutcomes settings).map LineOutcome.line = List.range' 1 file.table.rows.size := by
  rw [lineOutcomes, LineTable.map_number_lines, List.map_map]
  exact List.map_id _

/-- A file passes if and only if the outcome for each token is fine, no name is too short or too long,
all braces whose placement is determined are placed alike, and the outcome for each line is fine.  Every
token whose outcome is not fine has a violation in its own category.  In each category violations come
in the order of their tokens or lines. -/
theorem verdict_passes_iff {source : String} (h : SourceFile.parse source = .ok file)
    (settings : Settings) :
    ∃ tokens lines verdict,
      List.Forall₂ (fun n o => ((Session.start file settings).judgeToken n).1 = .ok o ∧ o.token = n)
        (List.range file.table.count) tokens ∧
      List.Forall₂ (fun n o => ((Session.start file settings).judgeLine n).1 = .ok o ∧ o.line = n)
        (file.table.lines.map Line.number) lines ∧
      file.analyze settings = .ok verdict ∧
      (verdict.passed = true ↔
        (∀ o ∈ tokens, o.fine = true) ∧
        (∀ o ∈ tokens, ∀ n, o.ruling = .code (.name n) → n.length = .withinBounds) ∧
        (∀ p ∈ tokens.filterMap TokenOutcome.placement?,
          ∀ q ∈ tokens.filterMap TokenOutcome.placement?, p = q) ∧
        ∀ o ∈ lines, o.fine = true) ∧
      (∀ o ∈ tokens, o.fine = false → ∃ violation,
        (o.ruling.category, violation) ∈ verdict.violations ∧ violation.item = .token o.token) ∧
      ∀ category, (∀ violation, (category, violation) ∈ verdict.violations →
          violation.item = if category = .line then .line violation.item.number
            else .token violation.item.number) ∧
        (verdict.violations.filter fun p => p.1 = category).Pairwise fun p q =>
          p.2.item.number ≤ q.2.item.number := by
  obtain ⟨verdict, hverdict⟩ := analyze_succeeds (covers_of_parse h) settings
  obtain ⟨tokens, htokens, rfl⟩ := exists_of_map_eq_ok ((file.analyze_eq settings).symm.trans hverdict)
  have hfine := fine_tokenOutcomes htokens
  refine ⟨tokens, file.lineOutcomes settings, _, forall₂_start_judgeToken htokens,
    forall₂_start_judgeLine file settings, hverdict, ?_, ?_, fun category => ⟨?_, ?_⟩⟩
  · rw [Verdict.passed_ofOutcomes_iff, TokenOutcome.violationsIn_eq_nil_iff hfine,
      LineOutcome.violationsOf_eq_nil_iff, and_assoc, and_assoc]
    have hlines : ∀ o ∈ file.lineOutcomes settings, (!o.tooLong && !o.trailingSpace) = o.fine := by
      intro o ho
      obtain ⟨n, -, rfl⟩ := List.mem_map.1 ho
      rfl
    have hcongr : (∀ o ∈ file.lineOutcomes settings, (!o.tooLong && !o.trailingSpace) = true) ↔
        ∀ o ∈ file.lineOutcomes settings, o.fine = true :=
      forall₂_congr fun o ho => by rw [hlines o ho]
    rw [hcongr]
    exact Iff.rfl
  · intro o ho hbad
    obtain ⟨violation, hmem, hitem⟩ :=
      TokenOutcome.exists_mem_violationsIn ho (hfine o ho) hbad none
    refine ⟨violation, Verdict.mem_violations_iff.2 ?_, hitem⟩
    rw [Verdict.ofCategory_ofOutcomes]
    exact List.mem_append_left _ hmem
  · intro violation hmem
    exact Verdict.item_of_mem_ofOutcomes hmem
  · have htokenOrder : (tokens.map TokenOutcome.token).Pairwise (· ≤ ·) := by
      rw [map_token_tokenOutcomes htokens]
      exact List.pairwise_le_range
    have hlineOrder : ((file.lineOutcomes settings).map LineOutcome.line).Pairwise (· ≤ ·) := by
      rw [map_line_lineOutcomes]
      exact List.pairwise_le_range'
    rw [Verdict.filter_violations, List.pairwise_map]
    exact Verdict.sorted_ofOutcomes (List.pairwise_map.1 htokenOrder) (List.pairwise_map.1 hlineOrder)
      category

/-- The verdict on a class in which an assignment has no spaces: the token `=` has number nine. -/
theorem verdict_on_unspaced_assignment :
    ∃ file verdict, SourceFile.parse "class Abcd \x7b int val=1; \x7d" = .ok file ∧
      file.analyze {} = .ok verdict ∧ verdict.passed = false ∧
      ∃ violation, (.code, violation) ∈ verdict.violations ∧ violation.item = .token 9 := by
  have hjudged : ((SourceFile.parse "class Abcd \x7b int val=1; \x7d").toOption.map fun file =>
      (file.table.count, ((Session.start file {}).judgeToken 9).1.toOption.map fun o =>
        (o.fine, o.ruling.category))) = some (14, some (false, .code)) := by
    decide +kernel
  cases hfile : SourceFile.parse "class Abcd \x7b int val=1; \x7d" with
  | error e => simp [hfile, Except.toOption] at hjudged
  | ok file =>
    obtain ⟨tokens, lines, verdict, htokens, -, hverdict, hpassed, hbad, -⟩ :=
      verdict_passes_iff hfile {}
    simp only [hfile, Except.toOption, Option.map_some, Option.some.injEq, Prod.mk.injEq] at hjudged
    obtain ⟨hcount, hjudged⟩ := hjudged
    have hlength : tokens.length = 14 := by
      rw [← htokens.length_eq, List.length_range, hcount]
    have hnine := htokens.get (i := 9) (by simp [hcount]) (by omega)
    simp only [List.get_eq_getElem, List.getElem_range] at hnine
    simp only [hnine.1, Option.map_some, Option.some.injEq, Prod.mk.injEq] at hjudged
    obtain ⟨hfine, hcategory⟩ := hjudged
    obtain ⟨violation, hmem, hitem⟩ := hbad _ (List.getElem_mem (by omega)) hfine
    rw [hcategory] at hmem
    refine ⟨file, verdict, rfl, hverdict, ?_, violation, hmem, hitem.trans (by rw [hnine.2])⟩
    rw [Bool.eq_false_iff]
    intro hpass
    simpa [hfine] using (hpassed.1 hpass).1 _ (List.getElem_mem (by omega : 9 < tokens.length))

end SourceFile

end JavaLint
