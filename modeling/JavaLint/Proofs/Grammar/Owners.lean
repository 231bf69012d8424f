import JavaLint.Model.Builder
import JavaLint.Proofs.Grammar.Brackets
import Mathlib.Tactic.Common

/-!
# Where names and modifier lists stand

A declared name stands in a node that makes something of it, or in a type parameter, or in a
declarator; and a declarator stands in a node that makes something of its name.  A node has at most
one modifier list.  Trees with these properties are called orderly.

As a modifier list is adopted by what follows it, one has to know that a part which adopts another
one starts with a node that has no modifier list yet: `Form.StartsUnlisted`.
-/

namespace JavaLint

/-- A node of the one kind may stand directly in a node of the other kind. -/
def NodeKind.MayStandIn : (kind parent : NodeKind) → Prop
  | .name, parent =>
    parent.nameRole?.isSome ∨ parent = .typeParam ∨ parent = .variableDeclarator
  | .variableDeclarator, parent => parent.variableRole?.isSome
  | _, _ => True

namespace Forest

variable {α : Type} {f g : Forest α} {parent : NodeKind}

/-- The number of modifier lists at the top of the forest. -/
def lists (f : Forest α) : Nat :=
  (f.children .modifiers).length

/-- The nodes of a forest inside a node of the kind `parent` stand where they may, and none of them
has more than one modifier list. -/
def Orderly (parent : NodeKind) : Forest α → Prop
  | nil => True
  | leaf _ rest => Orderly parent rest
  | node kind inside rest =>
    kind.MayStandIn parent ∧ inside.lists ≤ 1 ∧ Orderly kind inside ∧ Orderly parent rest

/-- The forest starts with a node that has no modifier list. -/
def StartsUnlisted : Forest α → Prop
  | node _ inside _ => inside.lists = 0
  | _ => False

/-- A node is a modifier list or not, whatever stands in it. -/
lemma lists_node (kind : NodeKind) (inside rest : Forest α) :
    (node kind inside rest).lists = rest.lists + if kind = .modifiers then 1 else 0 := by
  by_cases hkind : kind = .modifiers <;> simp [lists, children, hkind]

/-- The modifier lists of two sequences are those of both. -/
lemma lists_append (f g : Forest α) : (f ++ g).lists = f.lists + g.lists := by
  induction f with
  | nil => simp [lists, children]
  | leaf a rest ih => exact ih
  | node k inside rest _ ih =>
    rw [node_append, lists_node, lists_node, ih]
    omega

/-- Two orderly sequences are an orderly sequence. -/
lemma Orderly.append (hf : f.Orderly parent) (hg : g.Orderly parent) : (f ++ g).Orderly parent := by
  induction f with
  | nil => exact hg
  | leaf a rest ih => exact ih hf
  | node k inside rest _ ih => exact ⟨hf.1, hf.2.1, hf.2.2.1, ih hf.2.2.2⟩

end Forest

namespace Form

variable {ρ : Type} {stands : ρ → NodeKind → Prop} {headed : ρ → Prop} {follow : ρ → Reader}

/-- What the form describes has no modifier list at its top or, if `listed`, at most one, which
comes first. -/
def Lists (listed : Bool) : Form ρ → Prop
  | empty => True
  | fail _ => True
  | take => True
  | call _ => True
  | seq a b => a.Lists listed ∧ b.Lists false
  | node kind _ => kind = .modifiers → listed = true
  | adopt _ b => b.Lists listed
  | nest a => a.Lists listed
  | look choose => ∀ ks, (choose ks).Lists listed

/-- What the form describes starts with a node that has no modifier list, if it does so for the
`headed` rules. -/
def StartsUnlisted (headed : ρ → Prop) : Form ρ → Prop
  | empty => False
  | fail _ => True
  | take => False
  | call rule => headed rule
  | seq a _ => a.StartsUnlisted headed
  | node _ a => a.Lists false
  | adopt a b => a.Lists false ∧ b.StartsUnlisted headed
  | nest a => a.StartsUnlisted headed
  | look choose => ∀ ks, (choose ks).StartsUnlisted headed

/-- What the form describes is orderly inside a node of the kind `parent`, if rules are called only
where they stand. -/
def Orderly (stands : ρ → NodeKind → Prop) (headed : ρ → Prop) :
    (parent : NodeKind) → Form ρ → Prop
  | _, empty => True
  | _, fail _ => True
  | _, take => True
  | parent, call rule => stands rule parent
  | parent, seq a b => a.Orderly stands headed parent ∧ b.Orderly stands headed parent
  | parent, node kind a =>
    kind.MayStandIn parent ∧ a.Lists true ∧ a.Orderly stands headed kind
  | parent, adopt a b =>
    (∀ kind, a.Orderly stands headed kind) ∧ a.Lists true ∧ b.StartsUnlisted headed ∧
      b.Orderly stands headed parent
  | parent, nest a => a.Orderly stands headed parent
  | parent, look choose => ∀ ks, (choose ks).Orderly stands headed parent

/-- What is known of the forests that rules read. -/
structure Keeps (stands : ρ → NodeKind → Prop) (headed : ρ → Prop) (follow : ρ → Reader) : Prop where
  orderly : ∀ rule room ks f ks' parent, follow rule room ks = .ok (f, ks') → stands rule parent →
    f.Orderly parent
  lists : ∀ rule room ks f ks', follow rule room ks = .ok (f, ks') → f.lists = 0
  unlisted : ∀ rule room ks f ks', follow rule room ks = .ok (f, ks') → headed rule →
    f.StartsUnlisted

/-- A form that is said to be orderly reads an orderly forest, with as many modifier lists at its top
as the form has. -/
lemma read_orderly (hfollow : Keeps stands headed follow) {form : Form ρ} {parent : NodeKind}
    (hform : form.Orderly stands headed parent) {room : Nat} {ks ks' : List Kind} {f : Shape}
    (hread : form.read follow room ks = .ok (f, ks')) :
    f.Orderly parent ∧ (∀ listed, form.Lists listed → f.lists ≤ listed.toNat) ∧
      (form.StartsUnlisted headed → f.StartsUnlisted) := by
  induction form generalizing parent room ks ks' f with
  | empty =>
    obtain ⟨rfl, -⟩ : Forest.nil = f ∧ ks = ks' := by simpa [read] using hread
    exact ⟨trivial, fun listed _ => Nat.zero_le _, False.elim⟩
  | fail what => simp [read] at hread
  | take =>
    obtain ⟨k, -, rfl⟩ := read_take_eq_ok.1 hread
    exact ⟨trivial, fun listed _ => Nat.zero_le _, False.elim⟩
  | call rule =>
    rw [read] at hread
    have hlists := hfollow.lists rule room ks f ks' hread
    exact ⟨hfollow.orderly rule room ks f ks' parent hread hform,
      fun listed _ => hlists ▸ Nat.zero_le _, hfollow.unlisted rule room ks f ks' hread⟩
  | seq a b iha ihb =>
    obtain ⟨g, ks₁, h, ha, hb, rfl⟩ := read_seq_eq_ok.1 hread
    obtain ⟨hg, hglists, hgstart⟩ := iha hform.1 ha
    obtain ⟨hh, hhlists, -⟩ := ihb hform.2 hb
    refine ⟨hg.append hh, fun listed hlists => ?_, fun hstart => ?_⟩
    · have hfirst := hglists listed hlists.1
      have hsecond := hhlists false hlists.2
      rw [Forest.lists_append]
      simpa using Nat.add_le_add hfirst hsecond
    · have hstart' := hgstart hstart
      cases g with
      | node k inside rest => exact hstart'
      | nil => exact hstart'.elim
      | leaf k rest => exact hstart'.elim
  | node k a ih =>
    obtain ⟨g, ha, rfl⟩ := read_node_eq_ok.1 hread
    obtain ⟨hstands, hlists, hinside⟩ := hform
    obtain ⟨hg, hglists, -⟩ := ih hinside ha
    refine ⟨⟨hstands, hglists true hlists, hg, trivial⟩, fun listed hlisted => ?_, fun hstart => ?_⟩
    · by_cases hk : k = .modifiers
      · simp [Forest.lists, Forest.children, hk, hlisted hk]
      · simp [Forest.lists, Forest.children, hk]
    · exact Nat.le_zero.1 (hglists false hstart)
  | adopt a b iha ihb =>
    obtain ⟨g, ks₁, h, ha, hb, rfl⟩ := read_adopt_eq_ok.1 hread
    obtain ⟨horderly, hlists, hstart, htail⟩ := hform
    obtain ⟨hh, hhlists, hhstart⟩ := ihb htail hb
    have hunlisted := hhstart hstart
    cases h with
    | nil => exact hunlisted.elim
    | leaf k rest => exact hunlisted.elim
    | node k inside rest =>
      have hnone : inside.lists = 0 := hunlisted
      obtain ⟨hstands, -, hinside, hrest⟩ := hh
      obtain ⟨hg, hglists, -⟩ := iha (horderly k) ha
      have hone : g.lists ≤ 1 := hglists true hlists
      refine ⟨⟨hstands, ?_, hg.append hinside, hrest⟩, fun listed hlisted => ?_, fun hstart' => ?_⟩
      · rwa [Forest.lists_append, hnone]
      · have hle := hhlists listed hlisted
        rw [Forest.lists_node] at hle
        rwa [Forest.adopt, Forest.lists_node]
      · have hzero : g.lists = 0 := Nat.le_zero.1 (hglists false hstart'.1)
        show (g ++ inside).lists = 0
        rw [Forest.lists_append, hzero, hnone]
  | nest a ih =>
    obtain ⟨room', -, ha⟩ := read_nest_eq_ok.1 hread
    exact ih hform ha
  | look choose ih =>
    rw [read] at hread
    obtain ⟨hf, hlists, hstart⟩ := ih ks (hform ks) hread
    exact ⟨hf, fun listed hlisted => hlists listed (hlisted ks), fun hstarts => hstart (hstarts ks)⟩

/-! ## Simplification -/

@[simp] lemma lists_append {listed : Bool} {a b : Form ρ} :
    (a ++ b).Lists listed ↔ a.Lists listed ∧ b.Lists false := Iff.rfl

@[simp] lemma startsUnlisted_append {a b : Form ρ} :
    (a ++ b).StartsUnlisted headed ↔ a.StartsUnlisted headed := Iff.rfl

@[simp] lemma orderly_append {parent : NodeKind} {a b : Form ρ} :
    (a ++ b).Orderly stands headed parent ↔
      a.Orderly stands headed parent ∧ b.Orderly stands headed parent := Iff.rfl

@[simp] lemma lists_if {listed : Bool} {p : Prop} [Decidable p] {a b : Form ρ} :
    (if p then a else b).Lists listed ↔ if p then a.Lists listed else b.Lists listed := by
  split <;> rfl

@[simp] lemma startsUnlisted_if {p : Prop} [Decidable p] {a b : Form ρ} :
    (if p then a else b).StartsUnlisted headed ↔
      if p then a.StartsUnlisted headed else b.StartsUnlisted headed := by
  split <;> rfl

@[simp] lemma orderly_if {parent : NodeKind} {p : Prop} [Decidable p] {a b : Form ρ} :
    (if p then a else b).Orderly stands headed parent ↔
      if p then a.Orderly stands headed parent else b.Orderly stands headed parent := by
  split <;> rfl

@[simp] lemma lists_ite {listed : Bool} {test : List Kind → Bool} {a b : Form ρ} :
    (ite test a b).Lists listed ↔ ∀ ks, if test ks then a.Lists listed else b.Lists listed := by
  simp [ite, Lists]

@[simp] lemma startsUnlisted_ite {test : List Kind → Bool} {a b : Form ρ} :
    (ite test a b).StartsUnlisted headed ↔
      ∀ ks, if test ks then a.StartsUnlisted headed else b.StartsUnlisted headed := by
  simp [ite, StartsUnlisted]

@[simp] lemma orderly_ite {parent : NodeKind} {test : List Kind → Bool} {a b : Form ρ} :
    (ite test a b).Orderly stands headed parent ↔
      ∀ ks, if test ks then a.Orderly stands headed parent else b.Orderly stands headed parent := by
  simp [ite, Orderly]

end Form

/-- If the forms of all rules are orderly where the rules stand, then so is all that is read. -/
theorem readRule_keeps {ρ : Type} {grammar : ρ → Form ρ} {stands : ρ → NodeKind → Prop}
    {headed : ρ → Prop} (hstands : ∀ rule, ∃ parent, stands rule parent)
    (horderly : ∀ rule parent, stands rule parent → (grammar rule).Orderly stands headed parent)
    (hlists : ∀ rule, (grammar rule).Lists false)
    (hheaded : ∀ rule, headed rule → (grammar rule).StartsUnlisted headed) (fuel : Nat) :
    Form.Keeps stands headed (readRule grammar fuel) := by
  induction fuel with
  | zero =>
    refine ⟨fun _ _ _ _ _ _ h => ?_, fun _ _ _ _ _ h => ?_, fun _ _ _ _ _ h => ?_⟩ <;>
      simp [readRule] at h
  | succ fuel ih =>
    refine ⟨fun rule room ks f ks' parent hread hparent => ?_, fun rule room ks f ks' hread => ?_,
      fun rule room ks f ks' hread hrule => ?_⟩
    · exact (Form.read_orderly ih (horderly rule parent hparent) hread).1
    · obtain ⟨parent, hparent⟩ := hstands rule
      exact Nat.le_zero.1 ((Form.read_orderly ih (horderly rule parent hparent) hread).2.1 false
        (hlists rule))
    · obtain ⟨parent, hparent⟩ := hstands rule
      exact (Form.read_orderly ih (horderly rule parent hparent) hread).2.2 (hheaded rule hrule)

namespace Rule

open Form Lookahead

/-- Where the rules are called: that of declarators only in nodes that make something of their
names. -/
def StandsIn : Rule → NodeKind → Prop
  | declarators, parent => parent.variableRole?.isSome
  | _, _ => True

/-- The rules that start with a node without a modifier list. -/
def Unlisted : Rule → Prop
  | typeDecl => True
  | _ => False

attribute [local simp] StandsIn Unlisted Form.Lists Form.StartsUnlisted Form.Orderly
  NodeKind.MayStandIn NodeKind.nameRole? NodeKind.variableRole? opt expect eat expectWord expectName
  semicolon braces parens unlessAt more qualifiedName declaredName modifiers arguments parenExpr
  brackets formalParams throwsClause typeCore packageDecl importDecl moduleDecl enumConstant
  constructorDecl methodDecl fieldDecl declaredMember paramName localVar resource catchClause
  tryStatement forHeader ruleBody switchLabel lambdaParams cast creatorBody

/-- A type declaration makes something of its name. -/
lemma nameRole?_of_isTypeDecl {kind : NodeKind} (h : kind.isTypeDecl = true) :
    kind.nameRole?.isSome := by
  cases kind <;> simp_all [NodeKind.isTypeDecl]

/-- A node that makes something of a name may stand anywhere. -/
lemma mayStandIn_of_nameRole? {kind : NodeKind} (h : kind.nameRole?.isSome) (parent : NodeKind) :
    kind.MayStandIn parent := by
  cases kind <;> simp_all

/-- A type declaration is orderly. -/
lemma typeDeclOf_orderly {kind : NodeKind} (h : kind.isTypeDecl = true) (parent : NodeKind) :
    (typeDeclOf kind).Orderly StandsIn Unlisted parent := by
  have hrole := nameRole?_of_isTypeDecl h
  refine ⟨mayStandIn_of_nameRole? hrole parent, ?_, ?_⟩
  · cases kind <;> simp
  · cases kind <;> simp_all

/-- A type declaration makes no modifier list that is not in a node. -/
lemma typeDeclOf_lists {kind : NodeKind} (h : kind.isTypeDecl = true) :
    (typeDeclOf kind).Lists false := by
  rintro rfl
  cases h

/-- A statement is orderly. -/
lemma statementBody_orderly (ks : List Kind) (parent : NodeKind) :
    (statementBody ks).Orderly StandsIn Unlisted parent := by
  unfold statementBody
  split <;> simp

/-- A statement has no modifier list. -/
lemma statementBody_lists (ks : List Kind) : (statementBody ks).Lists true := by
  unfold statementBody
  split <;> simp

/-- A step of an expression is orderly. -/
lemma exprStep_orderly (stops : Stops) (previous : Option Kind) (ks : List Kind)
    (parent : NodeKind) : (exprStep stops previous ks).Orderly StandsIn Unlisted parent := by
  unfold exprStep
  split <;> simp

/-- A step of an expression makes no modifier list that is not in a node. -/
lemma exprStep_lists (stops : Stops) (previous : Option Kind) (ks : List Kind) :
    (exprStep stops previous ks).Lists false := by
  unfold exprStep
  split <;> simp

/-- A choice is orderly if all that may be chosen is. -/
lemma closedUnderChoice_orderly (parent : NodeKind) :
    ClosedUnderChoice fun part : Part => part.Orderly StandsIn Unlisted parent :=
  ⟨fun _ => trivial, fun _ h => h⟩

/-- A choice makes the modifier lists of what may be chosen. -/
lemma closedUnderChoice_lists : ClosedUnderChoice fun part : Part => part.Lists false :=
  ⟨fun _ => trivial, fun _ h => h⟩

/-- A choice starts without a modifier list if all that may be chosen does. -/
lemma closedUnderChoice_startsUnlisted :
    ClosedUnderChoice fun part : Part => part.StartsUnlisted Unlisted :=
  ⟨fun _ => trivial, fun _ h => h⟩

/-- Every rule is orderly where it stands. -/
theorem form_orderly (rule : Rule) (parent : NodeKind) (h : rule.StandsIn parent) :
    rule.form.Orderly StandsIn Unlisted parent := by
  have hclosed := closedUnderChoice_orderly parent
  cases rule with
  | typeDecl =>
    exact form_typeDecl_of_closed hclosed fun kind hkind => typeDeclOf_orderly hkind parent
  | directive => exact form_directive_of_closed hclosed trivial (by simp)
  | members | blockStatements | switchItems | elements =>
    exact untilBrace_of_closed hclosed trivial (by simp)
  | statement => simp [form, statementBody_orderly, statementBody_lists]
  | exprTail stops ternaries previous =>
    refine form_exprTail_of_closed hclosed trivial fun k ks => ?_
    simp [exprStep_orderly]
  | _ => simp_all [form]

/-- No rule makes a modifier list that is not in a node. -/
theorem form_lists (rule : Rule) : rule.form.Lists false := by
  have hclosed := closedUnderChoice_lists
  cases rule with
  | typeDecl => exact form_typeDecl_of_closed hclosed fun kind => typeDeclOf_lists
  | directive => exact form_directive_of_closed hclosed trivial (by simp)
  | members | blockStatements | switchItems | elements =>
    exact untilBrace_of_closed hclosed trivial (by simp)
  | exprTail stops ternaries previous =>
    refine form_exprTail_of_closed hclosed trivial fun k ks => ?_
    simp [exprStep_lists]
  | _ => simp [form]

/-- A type declaration starts with a node without a modifier list. -/
theorem form_startsUnlisted (rule : Rule) (h : rule.Unlisted) :
    rule.form.StartsUnlisted Unlisted := by
  cases rule with
  | typeDecl =>
    refine form_typeDecl_of_closed closedUnderChoice_startsUnlisted fun kind _ => ?_
    cases kind <;> simp [typeDeclOf]
  | _ => exact absurd h (by simp)

end Rule

/-- The shape of a file is orderly. -/
theorem readShape_orderly {ks : List Kind} {shape : Shape} (h : readShape ks = .ok shape) :
    shape.Orderly .sourceFile := by
  obtain ⟨ks', hread⟩ := readShape_eq_ok.1 h
  have hstands (rule : Rule) : rule.StandsIn .fieldDecl := by
    cases rule <;> simp [Rule.StandsIn, NodeKind.variableRole?]
  have hkeeps := readRule_keeps (fun rule => ⟨.fieldDecl, hstands rule⟩) Rule.form_orderly
    Rule.form_lists Rule.form_startsUnlisted (fuelFor ks.length)
  exact hkeeps.orderly _ _ _ _ _ _ hread trivial

end JavaLint
