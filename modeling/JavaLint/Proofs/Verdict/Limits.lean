import JavaLint.Proofs.Verdict.Width
import Mathlib.Data.List.Forall2
import Mathlib.Tactic.Common

/-!
# Looser limits

Settings that let names be shorter or longer and lines be wider find less: everything that is found
under them was found under the stricter settings, in the same order and in the same words, and what is
not found any more is about a limit (`looser_limits_find_less`).

The length of a name is too short, too long, or within the bounds, and the first of these is asked first.
So the stricter settings have to make sense: a name that is too short for them cannot be too long for the
looser ones, since it is shorter than the least length and therefore than the greatest
(`Settings.checkLength_eq_or`).  Nothing else that is judged depends on the limits.
-/

namespace JavaLint

/-! ## Lists from which members are missing -/

section Lists

variable {α β : Type} {test : α → Bool} {as bs as' bs' : List α}

/-- The second list is what is left of the first one; all members that are missing pass the test. -/
structure LosesOnly (test : α → Bool) (as bs : List α) : Prop where
  sublist : bs.Sublist as
  filter_eq : bs.filter (fun a => !test a) = as.filter fun a => !test a

namespace LosesOnly

/-- Nothing has to be missing. -/
lemma refl (test : α → Bool) (as : List α) : LosesOnly test as as :=
  ⟨.refl as, rfl⟩

/-- All members may be missing that pass the test. -/
lemma nil (h : ∀ a ∈ as, test a = true) : LosesOnly test as [] := by
  refine ⟨as.nil_sublist, ?_⟩
  rw [List.filter_nil, eq_comm, List.filter_eq_nil_iff]
  intro a ha
  simp [h a ha]

/-- Members may be missing from both parts of a list. -/
lemma append (h : LosesOnly test as bs) (h' : LosesOnly test as' bs') :
    LosesOnly test (as ++ as') (bs ++ bs') :=
  ⟨h.sublist.append h'.sublist, by rw [List.filter_append, List.filter_append, h.filter_eq, h'.filter_eq]⟩

/-- Members may be missing from each of the lists that are put together. -/
lemma flatMap {f g : β → List α} (h : ∀ b, LosesOnly test (f b) (g b)) (items : List β) :
    LosesOnly test (items.flatMap f) (items.flatMap g) := by
  induction items with
  | nil => exact refl test []
  | cons b items ih => exact (h b).append ih

/-- What is made of the members is missing with them. -/
lemma map (h : LosesOnly test as bs) {f : α → β} {test' : β → Bool} (hf : ∀ a, test' (f a) = test a) :
    LosesOnly test' (as.map f) (bs.map f) := by
  have hsame : (fun b => !test' b) ∘ f = fun a => !test a := by
    funext a
    simp [hf]
  refine ⟨h.sublist.map f, ?_⟩
  rw [List.filter_map, List.filter_map, hsame, h.filter_eq]

end LosesOnly

end Lists

/-! ## Looser settings -/

/-- The rules that are about a limit. -/
def limitRules : List String :=
  ["too-short", "too-long", "line-length"]

namespace Settings

/-- The first settings ask for the same styles as the second ones, and their limits are not
tighter. -/
structure Loosens (loose strict : Settings) : Prop where
  classNaming : loose.classNaming = strict.classNaming
  methodNaming : loose.methodNaming = strict.methodNaming
  variableNaming : loose.variableNaming = strict.variableNaming
  constantNaming : loose.constantNaming = strict.constantNaming
  minNameLength : loose.minNameLength ≤ strict.minNameLength
  maxNameLength : strict.maxNameLength ≤ loose.maxNameLength
  maxLineWidth : strict.maxLineWidth ≤ loose.maxLineWidth

variable {loose strict : Settings}

/-- Settings that make sense have lengths that fit. -/
lemma minNameLength_le_of_validate (h : strict.validate = .ok strict) :
    strict.minNameLength ≤ strict.maxNameLength := by
  unfold validate at h
  split at h
  · cases h
  · exact Nat.le_of_not_lt ‹_›

/-- The length of a name is judged as before, or it is within the bounds now. -/
lemma checkLength_eq_or (hloose : loose.Loosens strict)
    (hfit : strict.minNameLength ≤ strict.maxNameLength) (name : String) :
    loose.checkLength name = strict.checkLength name ∨ loose.checkLength name = .withinBounds := by
  have hmin := hloose.minNameLength
  have hmax := hloose.maxNameLength
  unfold checkLength
  by_cases hshort : name.length < loose.minNameLength
  · left
    rw [if_pos hshort, if_pos (hshort.trans_le hmin)]
  · by_cases hlong : loose.maxNameLength < name.length
    · -- A name beyond the looser bound is not below the stricter one, so it was too long before.
      have hlong' : strict.maxNameLength < name.length := hmax.trans_lt hlong
      have hnotShort : ¬ name.length < strict.minNameLength := by omega
      left
      rw [if_neg hshort, if_pos hlong, if_neg hnotShort, if_pos hlong']
    · right
      rw [if_neg hshort, if_neg hlong]

/-- The same style is asked for. -/
lemma Loosens.expectedStyle?_eq (hloose : loose.Loosens strict) (c : Classification) :
    loose.expectedStyle? c = strict.expectedStyle? c := by
  unfold expectedStyle?
  rw [hloose.classNaming, hloose.methodNaming, hloose.variableNaming, hloose.constantNaming]

end Settings

/-! ## Outcomes under looser settings -/

/-- The outcome for a token stays as it is, but a name may now have a length within the bounds. -/
inductive TokenOutcome.Loosened : TokenOutcome → TokenOutcome → Prop
  | same (o : TokenOutcome) : Loosened o o
  | name (token : Nat) (n : NameOutcome) (fine : Bool) :
    Loosened ⟨token, .code (.name n), fine⟩
      ⟨token, .code (.name { n with length := .withinBounds }), fine⟩

namespace SourceFile

variable {file : SourceFile} {loose strict : Settings}

/-- A name gets the same outcome, but for its length. -/
lemma judgeName_loosened (hloose : loose.Loosens strict)
    (hfit : strict.minNameLength ≤ strict.maxNameLength) {token : Token} {c : Classification}
    {outcome outcome' : CodeOutcome} (h : judgeName strict token c = .ok outcome)
    (h' : judgeName loose token c = .ok outcome') :
    outcome' = outcome ∨
      ∃ n, outcome = .name n ∧ outcome' = .name { n with length := .withinBounds } := by
  unfold judgeName at h h'
  rw [hloose.expectedStyle?_eq] at h'
  split at h
  · cases h
  · rename_i expected hexpected
    rw [hexpected] at h'
    obtain rfl := Except.ok.inj h
    obtain rfl := Except.ok.inj h'
    rcases Settings.checkLength_eq_or hloose hfit token.text with hsame | hwithin
    · exact .inl (by rw [hsame])
    · exact .inr ⟨_, rfl, by rw [hwithin]⟩

/-- A code token gets the same outcome, but for the length of a name. -/
lemma judgeCode_loosened (hloose : loose.Loosens strict)
    (hfit : strict.minNameLength ≤ strict.maxNameLength) {token : Token}
    {outcome outcome' : CodeOutcome} (h : file.judgeCode strict token = .ok outcome)
    (h' : file.judgeCode loose token = .ok outcome') :
    outcome' = outcome ∨
      ∃ n, outcome = .name n ∧ outcome' = .name { n with length := .withinBounds } := by
  obtain ⟨c, hc, hjudge⟩ := exists_of_bind_eq_ok h
  obtain ⟨c', hc', hjudge'⟩ := exists_of_bind_eq_ok h'
  obtain rfl : c = c' := Except.ok.inj (hc.symm.trans hc')
  cases hrole : c.role.isDeclaredName with
  | true =>
    rw [hrole, if_pos rfl] at hjudge hjudge'
    exact judgeName_loosened hloose hfit hjudge hjudge'
  | false =>
    -- The other rules do not read the settings.
    rw [hrole, if_neg Bool.false_ne_true] at hjudge hjudge'
    exact .inl (Except.ok.inj (hjudge'.symm.trans hjudge))

/-- A token gets the same outcome, but for the length of a name. -/
lemma judgeToken_loosened (hloose : loose.Loosens strict)
    (hfit : strict.minNameLength ≤ strict.maxNameLength) {n : Nat} {o o' : TokenOutcome}
    (h : file.judgeToken strict n = .ok o) (h' : file.judgeToken loose n = .ok o') :
    o.Loosened o' := by
  obtain ⟨token, htoken, hjudge⟩ := exists_of_bind_eq_ok h
  obtain ⟨token', htoken', hjudge'⟩ := exists_of_bind_eq_ok h'
  obtain rfl : token = token' := Except.ok.inj (htoken.symm.trans htoken')
  obtain ⟨ruling, hruling, hjudge⟩ := exists_of_bind_eq_ok hjudge
  obtain ⟨ruling', hruling', hjudge'⟩ := exists_of_bind_eq_ok hjudge'
  obtain rfl := Except.ok.inj hjudge
  obtain rfl := Except.ok.inj hjudge'
  unfold SourceFile.ruling at hruling hruling'
  cases hchannel : token.channel with
  | code =>
    rw [hchannel] at hruling hruling'
    obtain ⟨outcome, houtcome, rfl⟩ := exists_of_map_eq_ok hruling
    obtain ⟨outcome', houtcome', rfl⟩ := exists_of_map_eq_ok hruling'
    rcases judgeCode_loosened hloose hfit houtcome houtcome' with rfl | ⟨n, rfl, rfl⟩
    · exact .same _
    · exact .name _ n _
  | _ =>
    rw [hchannel] at hruling hruling'
    obtain rfl := Except.ok.inj (hruling.symm.trans hruling')
    exact .same _

/-- All tokens get the same outcomes, but for the lengths of names. -/
lemma tokenOutcomes_loosened (hloose : loose.Loosens strict)
    (hfit : strict.minNameLength ≤ strict.maxNameLength) {os os' : List TokenOutcome}
    (h : file.tokenOutcomes strict = .ok os) (h' : file.tokenOutcomes loose = .ok os') :
    List.Forall₂ TokenOutcome.Loosened os os' := by
  have hall := forall₂_tokenOutcomes h
  have hall' := forall₂_tokenOutcomes h'
  rw [List.forall₂_iff_get] at hall hall' ⊢
  obtain ⟨hlength, hget⟩ := hall
  obtain ⟨hlength', hget'⟩ := hall'
  refine ⟨hlength.symm.trans hlength', fun i hi hi' => ?_⟩
  have hrange : i < (List.range file.table.count).length := hlength ▸ hi
  exact judgeToken_loosened hloose hfit (hget i hrange hi) (hget' i hrange hi')

end SourceFile

/-! ## Violations under looser settings -/

/-- The rule of a violation is about a limit. -/
def Violation.isOfLimit (v : Violation) : Bool :=
  limitRules.contains v.breach.name

namespace TokenOutcome

/-- The length of a name breaks a rule about a limit, if any. -/
lemma name_mem_limitRules {length : LengthCheck} {breach : Breach} (h : breach ∈ length.breaches) :
    breach.name ∈ limitRules := by
  cases length <;> simp_all [LengthCheck.breaches, Breach.name, limitRules]

variable {o o' : TokenOutcome}

/-- A token breaks the same rules, but for those about the length of names. -/
lemma Loosened.losesOnly_breaches (h : o.Loosened o') (style : Option BracePlacement) :
    LosesOnly (fun breach => limitRules.contains breach.name) (o.breaches style)
      (o'.breaches style) := by
  cases h with
  | same => exact .refl _ _
  | name token n fine =>
    have hlength : LosesOnly (fun breach => limitRules.contains breach.name) n.length.breaches [] :=
      .nil fun breach hbreach => List.contains_iff_mem.2 (name_mem_limitRules hbreach)
    exact hlength.append (.refl _ _)

/-- The violations that tokens add one after the other are the same, but for those of rules about the
length of names. -/
lemma losesOnly_violationsIn {os os' : List TokenOutcome} (h : List.Forall₂ Loosened os os')
    (category : Category) (style : Option BracePlacement) :
    LosesOnly Violation.isOfLimit (violationsIn category style os)
      (violationsIn category style os') := by
  induction h generalizing style with
  | nil => exact .refl _ _
  | @cons o o' os os' hfirst _ ih =>
    have hcategory : o'.ruling.category = o.ruling.category := by cases hfirst <;> rfl
    have hplacement : o'.placement? = o.placement? := by cases hfirst <;> rfl
    have htoken : o'.token = o.token := by cases hfirst <;> rfl
    rw [violationsIn, violationsIn, hcategory, hplacement, htoken]
    refine .append ?_ (ih _)
    split
    · exact (hfirst.losesOnly_breaches style).map fun breach => rfl
    · exact .refl _ _

end TokenOutcome

namespace SourceFile

variable {loose strict : Settings}

/-- A line breaks the same rules, but it may be wide enough now. -/
lemma losesOnly_judgeLine (hloose : loose.Loosens strict) (file : SourceFile) (n : Nat) :
    LosesOnly (fun breach => limitRules.contains breach.name) (file.judgeLine strict n).breaches
      (file.judgeLine loose n).breaches := by
  have hwidth := hloose.maxLineWidth
  refine .append ?_ (.refl _ _)
  by_cases hlong : loose.maxLineWidth < file.table.lineWidth n
  · have hlong' : strict.maxLineWidth < file.table.lineWidth n := hwidth.trans_lt hlong
    simpa [judgeLine, hlong, hlong'] using LosesOnly.refl _ _
  · have hempty : (if (file.judgeLine loose n).tooLong = true then
        [Breach.lineTooLong (file.judgeLine loose n).width] else []) = [] := by
      simp [judgeLine, hlong]
    rw [hempty]
    refine .nil fun breach hbreach => ?_
    obtain rfl : breach = .lineTooLong (file.judgeLine strict n).width := by
      split at hbreach
      · exact List.mem_singleton.1 hbreach
      · cases hbreach
    rfl

/-- The violations that lines add are the same, but for those about their width. -/
lemma losesOnly_violationsOf (hloose : loose.Loosens strict) (file : SourceFile) :
    LosesOnly Violation.isOfLimit (LineOutcome.violationsOf (file.lineOutcomes strict))
      (LineOutcome.violationsOf (file.lineOutcomes loose)) := by
  have hline (n : Nat) : LosesOnly Violation.isOfLimit
      ((file.judgeLine strict n).breaches.map (⟨.line n, ·⟩))
      ((file.judgeLine loose n).breaches.map (⟨.line n, ·⟩)) :=
    (losesOnly_judgeLine hloose file n).map fun breach => rfl
  unfold LineOutcome.violationsOf lineOutcomes
  simp only [List.flatMap_map]
  exact .flatMap (fun line : Line => hline line.number) _

end SourceFile

namespace Verdict

/-- The violations of a verdict, category by category. -/
lemma violations_eq_flatMap (v : Verdict) :
    v.violations = [Category.code, .whitespace, .comment, .docComment, .line].flatMap fun category =>
      (v.ofCategory category).map (category, ·) := by
  simp [violations, ofCategory]

/-- If only violations about limits are missing from each category, then only findings about limits are
missing. -/
lemma losesOnly_findings {v v' : Verdict}
    (h : ∀ category, LosesOnly Violation.isOfLimit (v.ofCategory category) (v'.ofCategory category))
    (table : LineTable) :
    LosesOnly (fun f => limitRules.contains f.rule) (v.findings table) (v'.findings table) := by
  have hcategory (category : Category) :
      LosesOnly (fun p : Category × Violation => p.2.isOfLimit)
        ((v.ofCategory category).map (category, ·)) ((v'.ofCategory category).map (category, ·)) :=
    (h category).map fun violation => rfl
  have hall := LosesOnly.flatMap hcategory [.code, .whitespace, .comment, .docComment, .line]
  rw [← violations_eq_flatMap, ← violations_eq_flatMap] at hall
  refine hall.map fun p => ?_
  rw [Finding.rule_ofViolation]
  rfl

end Verdict

/-! ## Findings under looser settings -/

/-- Under settings with the same styles and looser limits a source text has the same findings in the same
order, except that some about the length of a name or the width of a line are missing; the stricter
settings have to make sense. -/
theorem looser_limits_find_less {source : String} {file : SourceFile}
    (hfile : SourceFile.parse source = .ok file) {strict loose : Settings}
    (hvalid : strict.validate = .ok strict) (hloose : loose.Loosens strict) :
    ∃ a a', analyzeSource source strict = .ok a ∧ analyzeSource source loose = .ok a' ∧
      a'.findings.Sublist a.findings ∧
      a'.findings.filter (fun f => f.rule ∉ ["too-short", "too-long", "line-length"]) =
        a.findings.filter fun f => f.rule ∉ ["too-short", "too-long", "line-length"] := by
  obtain ⟨verdict, hverdict, hanalysis⟩ := analyzeSource_of_parse hfile strict
  obtain ⟨verdict', hverdict', hanalysis'⟩ := analyzeSource_of_parse hfile loose
  obtain ⟨os, hos, rfl⟩ := exists_of_map_eq_ok ((file.analyze_eq strict).symm.trans hverdict)
  obtain ⟨os', hos', rfl⟩ := exists_of_map_eq_ok ((file.analyze_eq loose).symm.trans hverdict')
  have htokens := SourceFile.tokenOutcomes_loosened hloose
    (Settings.minNameLength_le_of_validate hvalid) hos hos'
  have hcategory (category : Category) : LosesOnly Violation.isOfLimit
      ((Verdict.ofOutcomes os (file.lineOutcomes strict)).ofCategory category)
      ((Verdict.ofOutcomes os' (file.lineOutcomes loose)).ofCategory category) := by
    rw [Verdict.ofCategory_ofOutcomes, Verdict.ofCategory_ofOutcomes]
    refine (TokenOutcome.losesOnly_violationsIn htokens category none).append ?_
    split
    · exact SourceFile.losesOnly_violationsOf hloose file
    · exact .refl _ _
  obtain ⟨hsublist, hfilter⟩ := Verdict.losesOnly_findings hcategory file.table
  refine ⟨_, _, hanalysis, hanalysis', hsublist, ?_⟩
  simpa [limitRules, Analysis.findings] using hfilter

/-- A name that is too short and one that is too long for the stricter settings, of which only the second
is found under the looser ones. -/
theorem looser_limits_find_less_of_two_names :
    let source := "class Point\x7bint x;int aVeryLongNameOfAField;\x7d"
    let strict : Settings := {}
    let loose : Settings := { minNameLength := 1, maxNameLength := 18, maxLineWidth := 120 }
    ∃ a a', analyzeSource source strict = .ok a ∧ analyzeSource source loose = .ok a' ∧
      a'.findings.Sublist a.findings ∧
      a'.findings.filter (fun f => f.rule ∉ ["too-short", "too-long", "line-length"]) =
        a.findings.filter fun f => f.rule ∉ ["too-short", "too-long", "line-length"] := by
  have hread : (SourceFile.parse
      "class Point\x7bint x;int aVeryLongNameOfAField;\x7d").toOption.isSome = true := by
    decide +kernel
  cases hfile : SourceFile.parse "class Point\x7bint x;int aVeryLongNameOfAField;\x7d" with
  | error e => simp [hfile, Except.toOption] at hread
  | ok file =>
    exact looser_limits_find_less hfile rfl
      ⟨rfl, rfl, rfl, rfl, by decide, by decide, by decide⟩

end JavaLint
