import JavaLint.Proofs.Grammar.Brackets
import JavaLint.Proofs.Grammar.Counters
import Mathlib.Tactic.Common

/-!
# Parentheses that close before an arrow

Looking ahead for the parameters of a lambda, `closesBeforeArrow` counts parentheses and no other brackets.
It finds the one that makes a well-bracketed word with the first (`Lookahead.closesBeforeArrow_split`), and
there is only one such (`rParen_unique`).

The grammar pairs brackets of all kinds, except in the body of a module, where parentheses do not count.  But
no rule beside the one for whole files ever reads such a body (`Rule.form_lacks_moduleBody`), so what is read
between the parentheses of the parameters is well-bracketed as well (`Rule.lambdaParams_closes`).
-/

namespace JavaLint

/-! ## Words with their parentheses -/

/-- The parentheses among the words. -/
def parenMarks (ks : List Kind) : List Mark :=
  (ks.filterMap Kind.mark?).filter fun m => m.bracket = .round

@[simp] lemma parenMarks_append (ks ks' : List Kind) :
    parenMarks (ks ++ ks') = parenMarks ks ++ parenMarks ks' := by
  simp [parenMarks]

@[simp] lemma parenMarks_lParen (ks : List Kind) :
    parenMarks (.lParen :: ks) = .opens .round :: parenMarks ks := rfl

@[simp] lemma parenMarks_rParen (ks : List Kind) :
    parenMarks (.rParen :: ks) = .closes .round :: parenMarks ks := rfl

/-- Any other word is no parenthesis. -/
lemma parenMarks_cons {k : Kind} (hopen : k ≠ .lParen) (hclose : k ≠ .rParen) (ks : List Kind) :
    parenMarks (k :: ks) = parenMarks ks := by
  cases k <;> first | contradiction | rfl

/-- A closing parenthesis after a word without open ones is not part of a longer word of the kind. -/
lemma not_wellBracketed_rParen {inner ks : List Kind} (h : WellBracketed (parenMarks inner)) :
    ¬ WellBracketed (parenMarks (inner ++ .rParen :: ks)) := by
  rw [parenMarks_append, parenMarks_rParen]
  exact h.not_append_closes

/-- There is only one closing parenthesis before which no other is open. -/
lemma rParen_unique {inner inner' ks ks' : List Kind} (h : WellBracketed (parenMarks inner))
    (h' : WellBracketed (parenMarks inner')) (hks : inner ++ .rParen :: ks = inner' ++ .rParen :: ks') :
    inner = inner' ∧ ks = ks' := by
  -- One of the two inner words is the start of the other.
  rcases List.append_eq_append_iff.1 hks with ⟨_ | ⟨k, between⟩, hlong, hrest⟩ |
    ⟨_ | ⟨k, between⟩, hlong, hrest⟩
  · exact ⟨by simpa using hlong.symm, by simpa using hrest⟩
  · obtain ⟨rfl, -⟩ := List.cons.inj hrest
    exact absurd (hlong ▸ h') (not_wellBracketed_rParen h)
  · exact ⟨by simpa using hlong, by simpa using hrest.symm⟩
  · obtain ⟨rfl, -⟩ := List.cons.inj hrest
    exact absurd (hlong ▸ h) (not_wellBracketed_rParen h')

namespace Lookahead

/-- Looking for the parenthesis that closes the outermost of `depth + 1` open ones, one comes first to the
one that closes the innermost. -/
lemma closesBeforeArrow_split {depth : Nat} {ks : List Kind} (h : closesBeforeArrow depth ks = true) :
    ∃ inner rest, ks = inner ++ .rParen :: rest ∧ WellBracketed (parenMarks inner) ∧
      match depth with
      | 0 => atKind .arrow rest = true
      | depth + 1 => closesBeforeArrow depth rest = true := by
  -- The words after an inner pair are fewer, but not the tail of all words.
  induction hlength : ks.length using Nat.strong_induction_on generalizing depth ks with
  | _ n ih =>
    subst hlength
    cases ks with
    | nil => simp [closesBeforeArrow] at h
    | cons k ks =>
      by_cases hopen : k = .lParen
      · -- A further parenthesis is opened: it is closed first.
        subst hopen
        rw [closesBeforeArrow] at h
        obtain ⟨inner, ks₁, rfl, hinner, hrest⟩ := ih ks.length (by simp) h rfl
        obtain ⟨inner', rest, rfl, hinner', hend⟩ := ih ks₁.length (by simp; omega) hrest rfl
        refine ⟨.lParen :: (inner ++ .rParen :: inner'), rest, by simp, ?_, hend⟩
        simpa using WellBracketed.pair .round hinner hinner'
      by_cases hclose : k = .rParen
      · subst hclose
        refine ⟨[], ks, rfl, .nil, ?_⟩
        cases depth <;> simpa [closesBeforeArrow] using h
      · rw [closesBeforeArrow_cons hopen hclose] at h
        obtain ⟨inner, rest, rfl, hinner, hend⟩ := ih ks.length (by simp) h rfl
        exact ⟨k :: inner, rest, rfl, by rwa [parenMarks_cons hopen hclose], hend⟩

end Lookahead

/-! ## Forests without nodes of a kind -/

namespace Forest

variable {α : Type} {kind : NodeKind}

/-- No node of the forest is of the given kind. -/
def Lacks (kind : NodeKind) : Forest α → Prop
  | nil => True
  | leaf _ rest => rest.Lacks kind
  | node k inside rest => k ≠ kind ∧ inside.Lacks kind ∧ rest.Lacks kind

lemma Lacks.append {f g : Forest α} (hf : f.Lacks kind) (hg : g.Lacks kind) : (f ++ g).Lacks kind := by
  induction f with
  | nil => exact hg
  | leaf a rest ih => exact ih hf
  | node k inside rest _ ih => exact ⟨hf.1, hf.2.1, ih hf.2.2⟩

lemma Lacks.adopt {f g : Forest α} (hf : f.Lacks kind) (hg : g.Lacks kind) :
    (f.adopt g).Lacks kind := by
  cases g with
  | nil => exact hf.append hg
  | leaf a rest => exact hf.append hg
  | node k inside rest => exact ⟨hg.1, hf.append hg.2.1, hg.2.2⟩

/-- All brackets count in a forest without the body of a module. -/
lemma marks_eq_of_lacks {kindOf : α → Kind} {f : Forest α} (h : f.Lacks .moduleBody) :
    f.marks kindOf false = f.leaves.map fun a => (kindOf a).mark? := by
  induction f with
  | nil => rfl
  | leaf a rest ih => simp [marks, leaves, ih h]
  | node k inside rest ihInside ihRest =>
    have hk : k.isLoose = false := by simpa [NodeKind.isLoose] using h.1
    simp [marks, leaves, hk, ihInside h.2.1, ihRest h.2.2]

/-- The parentheses of a bracketed forest without the body of a module make a well-bracketed word. -/
lemma Bracketed.wellBracketed_parenMarks {f : Shape} {depth : Nat} (h : f.Bracketed id false depth)
    (hlacks : f.Lacks .moduleBody) : WellBracketed (parenMarks f.leaves) := by
  have hmarks : (f.marks id false).reduceOption = f.leaves.filterMap Kind.mark? := by
    rw [marks_eq_of_lacks hlacks]
    simp [List.reduceOption, List.filterMap_map]
  have hall := h.wellBracketed
  rw [hmarks] at hall
  exact hall.filter fun b => b = .round

end Forest

namespace Form

variable {ρ : Type} {follow : ρ → Reader} {kind : NodeKind} {may : ρ → Prop}

/-- The form makes no node of the given kind, and calls no rules but those that `may` be called. -/
def Lacks (kind : NodeKind) (may : ρ → Prop) : Form ρ → Prop
  | empty => True
  | fail _ => True
  | take => True
  | call rule => may rule
  | seq a b => a.Lacks kind may ∧ b.Lacks kind may
  | node k a => k ≠ kind ∧ a.Lacks kind may
  | adopt a b => a.Lacks kind may ∧ b.Lacks kind may
  | nest a => a.Lacks kind may
  | look choose => ∀ ks, (choose ks).Lacks kind may

/-- A form that makes no node of a kind reads a forest without such nodes. -/
lemma read_lacks
    (hfollow : ∀ rule room ks f ks', follow rule room ks = .ok (f, ks') → may rule → f.Lacks kind)
    {form : Form ρ} (hform : form.Lacks kind may) {room : Nat} {ks ks' : List Kind} {f : Shape}
    (hread : form.read follow room ks = .ok (f, ks')) : f.Lacks kind := by
  induction form generalizing room ks ks' f with
  | empty =>
    obtain ⟨rfl, -⟩ : Forest.nil = f ∧ ks = ks' := by simpa [read] using hread
    trivial
  | fail what => simp [read] at hread
  | take =>
    obtain ⟨k, -, rfl⟩ := read_take_eq_ok.1 hread
    trivial
  | call rule => exact hfollow rule room ks f ks' hread hform
  | seq a b iha ihb =>
    obtain ⟨g, ks₁, h, ha, hb, rfl⟩ := read_seq_eq_ok.1 hread
    exact (iha hform.1 ha).append (ihb hform.2 hb)
  | node k a ih =>
    obtain ⟨g, ha, rfl⟩ := read_node_eq_ok.1 hread
    exact ⟨hform.1, ih hform.2 ha, trivial⟩
  | adopt a b iha ihb =>
    obtain ⟨g, ks₁, h, ha, hb, rfl⟩ := read_adopt_eq_ok.1 hread
    exact (iha hform.1 ha).adopt (ihb hform.2 hb)
  | nest a ih =>
    obtain ⟨room', -, ha⟩ := read_nest_eq_ok.1 hread
    exact ih hform ha
  | look choose ih => exact ih ks (hform ks) hread

@[simp] lemma lacks_append {a b : Form ρ} :
    (a ++ b).Lacks kind may ↔ a.Lacks kind may ∧ b.Lacks kind may := Iff.rfl

@[simp] lemma lacks_if {p : Prop} [Decidable p] {a b : Form ρ} :
    (if p then a else b).Lacks kind may ↔ if p then a.Lacks kind may else b.Lacks kind may := by
  split <;> rfl

@[simp] lemma lacks_ite {test : List Kind → Bool} {a b : Form ρ} :
    (ite test a b).Lacks kind may ↔
      ∀ ks, if test ks then a.Lacks kind may else b.Lacks kind may := by
  simp [ite, Lacks]

end Form

/-- If the forms of some rules make no node of a kind and call each other only, then no such node is in what
is read with them. -/
theorem readRule_lacks {ρ : Type} {grammar : ρ → Form ρ} {kind : NodeKind} {may : ρ → Prop}
    (hlacks : ∀ rule, may rule → (grammar rule).Lacks kind may) (fuel : Nat) (rule : ρ) (room : Nat)
    (ks : List Kind) (f : Shape) (ks' : List Kind)
    (hread : readRule grammar fuel rule room ks = .ok (f, ks')) (hrule : may rule) : f.Lacks kind := by
  induction fuel generalizing rule room ks f ks' with
  | zero => simp [readRule] at hread
  | succ fuel ih => exact Form.read_lacks ih (hlacks rule hrule) hread

namespace Rule

open Form Lookahead

/-- The rule reads a part of a declaration, and not a whole file. -/
def IsInner (rule : Rule) : Prop :=
  rule ≠ items

attribute [local simp] IsInner Form.Lacks opt expect eat expectWord expectName semicolon braces parens
  unlessAt more qualifiedName declaredName modifiers arguments parenExpr brackets formalParams
  throwsClause typeCore enumConstant constructorDecl methodDecl fieldDecl declaredMember paramName
  localVar resource catchClause tryStatement forHeader ruleBody switchLabel lambdaParams cast
  creatorBody

/-- There is no body of a module in a type declaration. -/
lemma typeDeclOf_lacks_moduleBody {kind : NodeKind} (h : kind.isTypeDecl = true) :
    (typeDeclOf kind).Lacks .moduleBody IsInner := by
  cases kind <;> simp_all [typeDeclOf, NodeKind.isTypeDecl]

/-- There is no body of a module in a statement. -/
lemma statementBody_lacks_moduleBody (ks : List Kind) :
    (statementBody ks).Lacks .moduleBody IsInner := by
  unfold statementBody
  split <;> simp

/-- There is no body of a module in a step of an expression. -/
lemma exprStep_lacks_moduleBody (stops : Stops) (previous : Option Kind) (ks : List Kind) :
    (exprStep stops previous ks).Lacks .moduleBody IsInner := by
  unfold exprStep
  split <;> simp

/-- There is no body of a module in a choice if there is none in all that may be chosen. -/
lemma closedUnderChoice_lacks_moduleBody :
    ClosedUnderChoice fun part : Part => part.Lacks .moduleBody IsInner :=
  ⟨fun _ => trivial, fun _ h => h⟩

/-- There is no body of a module inside of a declaration. -/
theorem form_lacks_moduleBody (rule : Rule) (h : rule.IsInner) :
    rule.form.Lacks .moduleBody IsInner := by
  have hclosed := closedUnderChoice_lacks_moduleBody
  cases rule with
  | items => exact absurd rfl h
  | directive => exact form_directive_of_closed hclosed trivial (by simp)
  | typeDecl => exact form_typeDecl_of_closed hclosed fun kind => typeDeclOf_lacks_moduleBody
  | members | blockStatements | switchItems | elements =>
    exact untilBrace_of_closed hclosed trivial (by simp)
  | statement => simp [form, statementBody_lacks_moduleBody]
  | exprTail stops ternaries previous =>
    refine form_exprTail_of_closed hclosed trivial fun k ks => ?_
    simp [exprStep_lacks_moduleBody]
  | _ => simp [form]

/-- What a rule reads inside of a declaration has its parentheses in order. -/
lemma wellBracketed_parenMarks {rule : Rule} (hinner : rule.IsInner) (hloose : contract.loose rule = false)
    {fuel room : Nat} {ks ks' : List Kind} {f : Shape} (hneeds : rule.Needs ks)
    (hread : readRule form fuel rule room ks = .ok (f, ks')) : WellBracketed (parenMarks f.leaves) := by
  obtain ⟨hrun, hlevelled, -⟩ :=
    (readRule_obeys form_leads form_heads fuel).levelled rule room ks f ks' hread hneeds
  rw [hloose] at hrun
  exact (Forest.bracketed_of_run hlevelled hrun).wellBracketed_parenMarks
    (readRule_lacks form_lacks_moduleBody fuel rule room ks f ks' hread hinner)

/-- The parameters of a lambda end with the parenthesis that closes the first. -/
lemma lambdaParams_closes {fuel room : Nat} {ks ks' : List Kind} {f : Shape}
    (hread : lambdaParams.read (readRule form fuel) room (.lParen :: ks) = .ok (f, ks')) :
    ∃ inner, ks = inner ++ .rParen :: ks' ∧ WellBracketed (parenMarks inner) := by
  obtain ⟨g, hseq, -⟩ := read_node_eq_ok.1 hread
  obtain ⟨g₁, ks₁, g₂, hinside, hclose, -⟩ := read_seq_eq_ok.1 hseq
  obtain ⟨g₃, ks₂, g₄, htake, hlist, -⟩ := read_seq_eq_ok.1 hinside
  obtain ⟨k, hk, -⟩ := read_take_eq_ok.1 htake
  obtain ⟨-, rfl⟩ := List.cons.inj hk
  obtain ⟨rfl, -⟩ := read_expect_eq_ok.1 hclose
  have hleaves := read_lossless (readRule_lossless form fuel) _ _ _ _ _ hlist
  refine ⟨g₄.leaves, hleaves.symm, ?_⟩
  cases hempty : atKind .rParen ks with
  | true =>
    rw [unlessAt, read_ite_pos hempty] at hlist
    obtain rfl : Forest.nil = g₄ := (Prod.mk.inj (Except.ok.inj hlist)).1
    exact .nil
  | false =>
    rw [unlessAt, read_ite_neg hempty] at hlist
    have hneeds : lambdaParamList.Needs ks := trivial
    exact wellBracketed_parenMarks (by simp) rfl hneeds hlist

end Rule

end JavaLint
