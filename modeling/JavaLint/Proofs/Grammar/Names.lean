import JavaLint.Proofs.Grammar.Java
import Mathlib.Tactic.Common

/-!
# Names are single words

The node of a declared name has exactly one word in it, and nothing else.  The only way in which a
word could be added to a node is adoption, so one also has to know that no part which adopts
another one starts with the node of a name: `StartsPlain`.
-/

namespace JavaLint

namespace Forest

variable {α : Type} {f g : Forest α}

/-- Every node of a name has a single leaf in it. -/
def NamesSingle : Forest α → Prop
  | nil => True
  | leaf _ rest => rest.NamesSingle
  | node kind inside rest =>
    (kind = .name → ∃ a, inside = .leaf a .nil) ∧ inside.NamesSingle ∧ rest.NamesSingle

/-- The forest does not start with the node of a name. -/
def StartsPlain : Forest α → Prop
  | node kind _ _ => kind ≠ .name
  | _ => True

/-- The names of two sequences are single words if those of both are. -/
lemma NamesSingle.append (hf : f.NamesSingle) (hg : g.NamesSingle) : (f ++ g).NamesSingle := by
  induction f with
  | nil => exact hg
  | leaf a rest ih => exact ih hf
  | node k inside rest _ ih => exact ⟨hf.1, hf.2.1, ih hf.2.2⟩

/-- What is adopted does not come into the node of a name. -/
lemma NamesSingle.adopt (hf : f.NamesSingle) (hg : g.NamesSingle) (hplain : g.StartsPlain) :
    (f.adopt g).NamesSingle := by
  cases g with
  | nil => exact hf.append hg
  | leaf a rest => exact hf.append hg
  | node k inside rest => exact ⟨fun hk => absurd hk hplain, hf.append hg.2.1, hg.2.2⟩

/-- If neither of two sequences starts with a name, then both together do not. -/
lemma StartsPlain.append (hf : f.StartsPlain) (hg : g.StartsPlain) : (f ++ g).StartsPlain := by
  cases f with
  | nil => exact hg
  | leaf a rest => trivial
  | node k inside rest => exact hf

/-- If neither of two sequences starts with a name, then neither does the one that adopts the
other. -/
lemma StartsPlain.adopt (hf : f.StartsPlain) (hg : g.StartsPlain) : (f.adopt g).StartsPlain := by
  cases g with
  | nil => exact hf.append hg
  | leaf a rest => exact hf.append hg
  | node k inside rest => exact hg

end Forest

namespace Form

variable {ρ : Type} {plain : ρ → Prop} {follow : ρ → Reader}

/-- What the form describes does not start with the node of a name, if `plain` rules do not. -/
def StartsPlain (plain : ρ → Prop) : Form ρ → Prop
  | empty => True
  | fail _ => True
  | take => True
  | call rule => plain rule
  | seq a b => a.StartsPlain plain ∧ b.StartsPlain plain
  | node kind _ => kind ≠ .name
  | adopt a b => a.StartsPlain plain ∧ b.StartsPlain plain
  | nest a => a.StartsPlain plain
  | look choose => ∀ ks, (choose ks).StartsPlain plain

/-- The nodes of names that the form describes are single words. -/
def NamesSingle (plain : ρ → Prop) : Form ρ → Prop
  | empty => True
  | fail _ => True
  | take => True
  | call _ => True
  | seq a b => a.NamesSingle plain ∧ b.NamesSingle plain
  | node kind a => (kind = .name → a = take) ∧ a.NamesSingle plain
  | adopt a b => a.NamesSingle plain ∧ b.NamesSingle plain ∧ b.StartsPlain plain
  | nest a => a.NamesSingle plain
  | look choose => ∀ ks, (choose ks).NamesSingle plain

/-- A form that starts plain reads a forest that does. -/
lemma read_startsPlain
    (hfollow : ∀ rule room ks f ks', follow rule room ks = .ok (f, ks') → plain rule →
      f.StartsPlain)
    {form : Form ρ} (hform : form.StartsPlain plain) {room : Nat} {ks ks' : List Kind} {f : Shape}
    (hread : form.read follow room ks = .ok (f, ks')) : f.StartsPlain := by
  induction form generalizing room ks ks' f with
  | empty =>
    obtain ⟨rfl, -⟩ : Forest.nil = f ∧ ks = ks' := by simpa [read] using hread
    trivial
  | fail what => simp [read] at hread
  | take =>
    obtain ⟨k, -, rfl⟩ := read_take_eq_ok.1 hread
    trivial
  | call rule =>
    rw [read] at hread
    exact hfollow rule room ks f ks' hread hform
  | seq a b iha ihb =>
    obtain ⟨g, ks₁, h, ha, hb, rfl⟩ := read_seq_eq_ok.1 hread
    exact (iha hform.1 ha).append (ihb hform.2 hb)
  | node k a ih =>
    obtain ⟨g, -, rfl⟩ := read_node_eq_ok.1 hread
    exact hform
  | adopt a b iha ihb =>
    obtain ⟨g, ks₁, h, ha, hb, rfl⟩ := read_adopt_eq_ok.1 hread
    exact (iha hform.1 ha).adopt (ihb hform.2 hb)
  | nest a ih =>
    obtain ⟨room', -, ha⟩ := read_nest_eq_ok.1 hread
    exact ih hform ha
  | look choose ih =>
    rw [read] at hread
    exact ih ks (hform ks) hread

/-- A form whose names are single words reads a forest whose names are. -/
lemma read_namesSingle
    (hfollow : ∀ rule room ks f ks', follow rule room ks = .ok (f, ks') →
      f.NamesSingle ∧ (plain rule → f.StartsPlain))
    {form : Form ρ} (hform : form.NamesSingle plain) {room : Nat} {ks ks' : List Kind} {f : Shape}
    (hread : form.read follow room ks = .ok (f, ks')) : f.NamesSingle := by
  induction form generalizing room ks ks' f with
  | empty =>
    obtain ⟨rfl, -⟩ : Forest.nil = f ∧ ks = ks' := by simpa [read] using hread
    trivial
  | fail what => simp [read] at hread
  | take =>
    obtain ⟨k, -, rfl⟩ := read_take_eq_ok.1 hread
    trivial
  | call rule =>
    rw [read] at hread
    exact (hfollow rule room ks f ks' hread).1
  | seq a b iha ihb =>
    obtain ⟨g, ks₁, h, ha, hb, rfl⟩ := read_seq_eq_ok.1 hread
    exact (iha hform.1 ha).append (ihb hform.2 hb)
  | node k a ih =>
    obtain ⟨g, ha, rfl⟩ := read_node_eq_ok.1 hread
    refine ⟨?_, ih hform.2 ha, trivial⟩
    intro hk
    rw [hform.1 hk] at ha
    obtain ⟨word, -, rfl⟩ := read_take_eq_ok.1 ha
    exact ⟨word, rfl⟩
  | adopt a b iha ihb =>
    obtain ⟨g, ks₁, h, ha, hb, rfl⟩ := read_adopt_eq_ok.1 hread
    have hplain : h.StartsPlain :=
      read_startsPlain (fun rule room ks f ks' hrule => (hfollow rule room ks f ks' hrule).2)
        hform.2.2 hb
    exact (iha hform.1 ha).adopt (ihb hform.2.1 hb) hplain
  | nest a ih =>
    obtain ⟨room', -, ha⟩ := read_nest_eq_ok.1 hread
    exact ih hform ha
  | look choose ih =>
    rw [read] at hread
    exact ih ks (hform ks) hread

/-! ## Simplification -/

@[simp] lemma startsPlain_append {a b : Form ρ} :
    (a ++ b).StartsPlain plain ↔ a.StartsPlain plain ∧ b.StartsPlain plain := Iff.rfl

@[simp] lemma namesSingle_append {a b : Form ρ} :
    (a ++ b).NamesSingle plain ↔ a.NamesSingle plain ∧ b.NamesSingle plain := Iff.rfl

@[simp] lemma startsPlain_if {p : Prop} [Decidable p] {a b : Form ρ} :
    (if p then a else b).StartsPlain plain ↔
      if p then a.StartsPlain plain else b.StartsPlain plain := by
  split <;> rfl

@[simp] lemma namesSingle_if {p : Prop} [Decidable p] {a b : Form ρ} :
    (if p then a else b).NamesSingle plain ↔
      if p then a.NamesSingle plain else b.NamesSingle plain := by
  split <;> rfl

@[simp] lemma startsPlain_ite {test : List Kind → Bool} {a b : Form ρ} :
    (ite test a b).StartsPlain plain ↔
      ∀ ks, if test ks then a.StartsPlain plain else b.StartsPlain plain := by
  simp [ite, StartsPlain]

@[simp] lemma namesSingle_ite {test : List Kind → Bool} {a b : Form ρ} :
    (ite test a b).NamesSingle plain ↔
      ∀ ks, if test ks then a.NamesSingle plain else b.NamesSingle plain := by
  simp [ite, NamesSingle]

end Form

/-- If the names are single words in the forms of all rules, then they are in all that is read. -/
theorem readRule_namesSingle {ρ : Type} {grammar : ρ → Form ρ} {plain : ρ → Prop}
    (hnames : ∀ rule, (grammar rule).NamesSingle plain)
    (hplain : ∀ rule, plain rule → (grammar rule).StartsPlain plain) (fuel : Nat) (rule : ρ)
    (room : Nat) (ks : List Kind) (f : Shape) (ks' : List Kind)
    (hread : readRule grammar fuel rule room ks = .ok (f, ks')) :
    f.NamesSingle ∧ (plain rule → f.StartsPlain) := by
  induction fuel generalizing rule room ks f ks' with
  | zero => simp [readRule] at hread
  | succ fuel ih =>
    rw [readRule] at hread
    refine ⟨Form.read_namesSingle ih (hnames rule) hread, fun hrule => ?_⟩
    exact Form.read_startsPlain (fun rule room ks f ks' h => (ih rule room ks f ks' h).2)
      (hplain rule hrule) hread

namespace Rule

open Form Lookahead

/-- The rules that stand before or in parts that adopt others, none of which starts with a name. -/
def Plain : Rule → Prop
  | typeDecl | typeParams | type | statement | block | forStatement => True
  | _ => False

attribute [local simp] Plain Form.StartsPlain Form.NamesSingle opt expect eat expectWord expectName
  semicolon braces parens unlessAt more qualifiedName declaredName modifiers arguments parenExpr
  brackets formalParams throwsClause typeCore packageDecl importDecl moduleDecl enumConstant
  constructorDecl methodDecl fieldDecl declaredMember paramName localVar resource catchClause
  tryStatement forHeader ruleBody switchLabel lambdaParams cast creatorBody

/-- A type declaration is no name. -/
lemma ne_name_of_isTypeDecl {kind : NodeKind} (h : kind.isTypeDecl = true) : kind ≠ .name := by
  rintro rfl
  cases h

/-- The names in a type declaration are single words. -/
lemma typeDeclOf_namesSingle {kind : NodeKind} (h : kind.isTypeDecl = true) :
    (typeDeclOf kind).NamesSingle Plain := by
  simp [typeDeclOf, ne_name_of_isTypeDecl h]

/-- The names in a statement are single words. -/
lemma statementBody_namesSingle (ks : List Kind) : (statementBody ks).NamesSingle Plain := by
  unfold statementBody
  split <;> simp

/-- The names in a step of an expression are single words. -/
lemma exprStep_namesSingle (stops : Stops) (previous : Option Kind) (ks : List Kind) :
    (exprStep stops previous ks).NamesSingle Plain := by
  unfold exprStep
  split <;> simp

/-- The names in a choice are single words if those in all that may be chosen are. -/
lemma closedUnderChoice_namesSingle : ClosedUnderChoice fun part : Part => part.NamesSingle Plain :=
  ⟨fun _ => trivial, fun _ h => h⟩

/-- A choice starts plain if all that may be chosen does. -/
lemma closedUnderChoice_startsPlain : ClosedUnderChoice fun part : Part => part.StartsPlain Plain :=
  ⟨fun _ => trivial, fun _ h => h⟩

/-- The names in every rule are single words. -/
theorem form_namesSingle (rule : Rule) : rule.form.NamesSingle Plain := by
  have hclosed := closedUnderChoice_namesSingle
  cases rule with
  | directive => exact form_directive_of_closed hclosed trivial (by simp)
  | typeDecl => exact form_typeDecl_of_closed hclosed fun kind => typeDeclOf_namesSingle
  | members | blockStatements | switchItems | elements =>
    exact untilBrace_of_closed hclosed trivial (by simp)
  | statement => simp [form, statementBody_namesSingle]
  | exprTail stops ternaries previous =>
    refine form_exprTail_of_closed hclosed trivial fun k ks => ?_
    simp [exprStep_namesSingle]
  | _ => simp [form]

/-- The rules that are said to start plain do. -/
theorem form_startsPlain (rule : Rule) (h : rule.Plain) : rule.form.StartsPlain Plain := by
  cases rule with
  | typeDecl =>
    exact form_typeDecl_of_closed closedUnderChoice_startsPlain fun kind => ne_name_of_isTypeDecl
  | typeParams | type | statement | block | forStatement => simp [form]
  | _ => exact absurd h (by simp)

end Rule

/-- The names in the shape of a file are single words. -/
theorem readShape_namesSingle {ks : List Kind} {shape : Shape} (h : readShape ks = .ok shape) :
    shape.NamesSingle := by
  obtain ⟨ks', hread⟩ := readShape_eq_ok.1 h
  exact (readRule_namesSingle Rule.form_namesSingle Rule.form_startsPlain _ _ _ _ _ _ hread).1

end JavaLint
