import JavaLint.Model.Declaration
import JavaLint.Proofs.Grammar.Brackets
import Mathlib.Tactic.Common

/-!
# Where declarations start, and what they declare

The nodes whose declarations are recorded never share their first word: no such node is the first
thing inside another one, nor the first thing in the first thing, and so on.  Since nodes adopt what
comes before them, one has to know this of modifiers, type parameters and types as well
(`HeadPlain`).

Besides, a recorded node has exactly one name directly inside it.  Only a field has declarators
instead, at least one, and each of them has exactly one name.
-/

namespace JavaLint

namespace NodeKind

/-- The declarations of the node are recorded. -/
def isRecorded (kind : NodeKind) : Bool :=
  (DeclKind.ofNode? kind).isSome

/-- The node declares the name that stands directly inside it. -/
def hasName (kind : NodeKind) : Bool :=
  (kind.isRecorded && kind ≠ .fieldDecl) || kind = .variableDeclarator

end NodeKind

namespace Forest

variable {α : Type} {f g : Forest α}

/-- The first leaf does not lie in a node that is recorded. -/
def HeadPlain : Forest α → Prop
  | nil => True
  | leaf _ _ => True
  | node kind inside _ => kind.isRecorded = false ∧ inside.HeadPlain

/-- The names directly inside a node of the given kind are those that such a node has, and if it is
recorded, then no recorded node comes first in it. -/
structure Declares (kind : NodeKind) (inside : Forest α) : Prop where
  headPlain : kind.isRecorded = true → inside.HeadPlain
  name : kind.hasName = true → (inside.children .name).length = 1
  declarator : kind = .fieldDecl → inside.children .variableDeclarator ≠ []

/-- All nodes of the forest declare what nodes of their kind do. -/
def Declaring : Forest α → Prop
  | nil => True
  | leaf _ rest => rest.Declaring
  | node kind inside rest => Declares kind inside ∧ inside.Declaring ∧ rest.Declaring

/-- The nodes of a kind at the top of two sequences are those of the one and then those of the
other. -/
lemma children_append (k : NodeKind) (f g : Forest α) :
    (f ++ g).children k = f.children k ++ g.children k := by
  induction f with
  | nil => rfl
  | leaf a rest ih => exact ih
  | node k' inside rest _ ih =>
    rw [node_append, children, children, ih]
    split <;> rfl

/-- What comes first in two sequences is what comes first in the one or, if that is empty, in the
other. -/
lemma HeadPlain.append (hf : f.HeadPlain) (hg : f = nil → g.HeadPlain) : (f ++ g).HeadPlain := by
  cases f with
  | nil => exact hg rfl
  | leaf a rest => trivial
  | node k inside rest => exact hf

/-- What is adopted comes first. -/
lemma HeadPlain.adopt (hf : f.HeadPlain) (hg : g.HeadPlain) : (f.adopt g).HeadPlain := by
  cases g with
  | nil => exact hf.append fun _ => hg
  | leaf a rest => exact hf.append fun _ => hg
  | node k inside rest => exact ⟨hg.1, hf.append fun _ => hg.2⟩

/-- Two sequences declare what they should if both do. -/
lemma Declaring.append (hf : f.Declaring) (hg : g.Declaring) : (f ++ g).Declaring := by
  induction f with
  | nil => exact hg
  | leaf a rest ih => exact ih hf
  | node k inside rest _ ih => exact ⟨hf.1, hf.2.1, ih hf.2.2⟩

/-- What is adopted changes nothing in what a node declares, if it has no names and nothing that is
recorded comes first in it. -/
lemma Declares.adopt {kind : NodeKind} (hf : f.HeadPlain) (hnames : f.children .name = [])
    (hg : Declares kind g) : Declares kind (f ++ g) where
  headPlain hkind := hf.append fun _ => hg.headPlain hkind
  name hkind := by
    rw [children_append, hnames, List.nil_append]
    exact hg.name hkind
  declarator hkind := by
    rw [children_append]
    exact List.append_ne_nil_of_right_ne_nil _ (hg.declarator hkind)

/-- Adoption changes nothing in what nodes declare, if what is adopted has no names and nothing that
is recorded comes first in it. -/
lemma Declaring.adopt (hf : f.Declaring) (hg : g.Declaring) (hhead : f.HeadPlain)
    (hnames : f.children .name = []) : (f.adopt g).Declaring := by
  cases g with
  | nil => exact hf.append hg
  | leaf a rest => exact hf.append hg
  | node k inside rest => exact ⟨hg.1.adopt hhead hnames, hf.append hg.2.1, hg.2.2⟩

/-- Adoption moves nodes from the top into a node, and makes or loses none of those that stay. -/
lemma length_children_adopt (k : NodeKind) (hf : f.children k = []) :
    ((f.adopt g).children k).length = (g.children k).length := by
  cases g with
  | nil => simp [adopt, children_append, hf]
  | leaf a rest => simp [adopt, children_append, hf]
  | node k' inside rest =>
    rw [adopt, children, children]
    split <;> rfl

/-- Adoption leaves no fewer nodes at the top than there are in the part that adopts. -/
lemma children_adopt_ne_nil {k : NodeKind} (hg : g.children k ≠ []) : (f.adopt g).children k ≠ [] := by
  cases g with
  | nil => exact absurd rfl hg
  | leaf a rest =>
    simpa [adopt, children_append] using fun _ => hg
  | node k' inside rest =>
    rw [adopt, children]
    rw [children] at hg
    split
    · exact List.cons_ne_nil _ _
    · rwa [if_neg ‹_›] at hg

/-- Two sequences are empty together only if both are. -/
lemma append_eq_nil_iff : f ++ g = nil ↔ f = nil ∧ g = nil := by
  cases f <;> simp

/-- Adoption loses nothing. -/
lemma adopt_eq_nil_iff : f.adopt g = nil ↔ f = nil ∧ g = nil := by
  cases g <;> simp [adopt, append_eq_nil_iff]

end Forest

namespace Form

variable {ρ : Type} {plain headed : ρ → Prop} {follow : ρ → Reader}

/-- What the form describes is not empty. -/
def Solid : Form ρ → Prop
  | empty => False
  | fail _ => True
  | take => True
  | call _ => False
  | seq a b => a.Solid ∨ b.Solid
  | node _ _ => True
  | adopt a b => a.Solid ∨ b.Solid
  | nest a => a.Solid
  | look choose => ∀ ks, (choose ks).Solid

/-- Nothing that is recorded comes first in what the form describes, if this is so for the `plain`
rules. -/
def HeadPlain (plain : ρ → Prop) : Form ρ → Prop
  | empty => True
  | fail _ => True
  | take => True
  | call rule => plain rule
  | seq a b => a.HeadPlain plain ∧ (a.Solid ∨ b.HeadPlain plain)
  | node kind a => kind.isRecorded = false ∧ a.HeadPlain plain
  | adopt a b => a.HeadPlain plain ∧ b.HeadPlain plain
  | nest a => a.HeadPlain plain
  | look choose => ∀ ks, (choose ks).HeadPlain plain

/-- There are so many names at the top of what the form describes, if rules make none there. -/
def Names : (count : Nat) → Form ρ → Prop
  | count, empty => count = 0
  | _, fail _ => True
  | count, take => count = 0
  | count, call _ => count = 0
  | count, seq a b => (a.Names count ∧ b.Names 0) ∨ (a.Names 0 ∧ b.Names count)
  | count, node kind _ => count = if kind = .name then 1 else 0
  | count, adopt a b => a.Names 0 ∧ b.Names count
  | count, nest a => a.Names count
  | count, look choose => ∀ ks, (choose ks).Names count

/-- There is a declarator at the top of what the form describes, if the `headed` rules make one. -/
def HasDeclarator (headed : ρ → Prop) : Form ρ → Prop
  | empty => False
  | fail _ => True
  | take => False
  | call rule => headed rule
  | seq a b => a.HasDeclarator headed ∨ b.HasDeclarator headed
  | node kind _ => kind = .variableDeclarator
  | adopt _ b => b.HasDeclarator headed
  | nest a => a.HasDeclarator headed
  | look choose => ∀ ks, (choose ks).HasDeclarator headed

/-- The nodes that the form describes declare what nodes of their kind do. -/
def Declaring (plain headed : ρ → Prop) : Form ρ → Prop
  | empty => True
  | fail _ => True
  | take => True
  | call _ => True
  | seq a b => a.Declaring plain headed ∧ b.Declaring plain headed
  | node kind a =>
    (kind.isRecorded = true → a.HeadPlain plain) ∧ (kind.hasName = true → a.Names 1) ∧
      (kind = .fieldDecl → a.HasDeclarator headed) ∧ a.Declaring plain headed
  | adopt a b =>
    a.HeadPlain plain ∧ a.Names 0 ∧ a.Declaring plain headed ∧ b.Declaring plain headed
  | nest a => a.Declaring plain headed
  | look choose => ∀ ks, (choose ks).Declaring plain headed

/-- What is known of the forests that rules read. -/
structure DeclaringRules (plain headed : ρ → Prop) (follow : ρ → Reader) : Prop where
  headPlain : ∀ rule room ks f ks', follow rule room ks = .ok (f, ks') → plain rule → f.HeadPlain
  names : ∀ rule room ks f ks', follow rule room ks = .ok (f, ks') → f.children .name = []
  declarator : ∀ rule room ks f ks', follow rule room ks = .ok (f, ks') → headed rule →
    f.children .variableDeclarator ≠ []
  declaring : ∀ rule room ks f ks', follow rule room ks = .ok (f, ks') → f.Declaring

variable {form : Form ρ} {room : Nat} {ks ks' : List Kind} {f : Shape}

/-- A form that is not empty reads something. -/
lemma read_solid (hform : form.Solid) (hread : form.read follow room ks = .ok (f, ks')) :
    f ≠ .nil := by
  induction form generalizing room ks ks' f with
  | empty => exact hform.elim
  | fail what => simp [read] at hread
  | take =>
    obtain ⟨k, -, rfl⟩ := read_take_eq_ok.1 hread
    simp
  | call rule => exact hform.elim
  | seq a b iha ihb =>
    obtain ⟨g, ks₁, h, ha, hb, rfl⟩ := read_seq_eq_ok.1 hread
    rw [Ne, Forest.append_eq_nil_iff]
    rintro ⟨hg, hh⟩
    exact hform.elim (fun hform => iha hform ha hg) fun hform => ihb hform hb hh
  | node k a ih =>
    obtain ⟨g, -, rfl⟩ := read_node_eq_ok.1 hread
    simp
  | adopt a b iha ihb =>
    obtain ⟨g, ks₁, h, ha, hb, rfl⟩ := read_adopt_eq_ok.1 hread
    rw [Ne, Forest.adopt_eq_nil_iff]
    rintro ⟨hg, hh⟩
    exact hform.elim (fun hform => iha hform ha hg) fun hform => ihb hform hb hh
  | nest a ih =>
    obtain ⟨room', -, ha⟩ := read_nest_eq_ok.1 hread
    exact ih hform ha
  | look choose ih =>
    rw [read] at hread
    exact ih ks (hform ks) hread

/-- A form in which nothing that is recorded comes first reads a forest of which this is true. -/
lemma read_headPlain (hfollow : DeclaringRules plain headed follow) (hform : form.HeadPlain plain)
    (hread : form.read follow room ks = .ok (f, ks')) : f.HeadPlain := by
  induction form generalizing room ks ks' f with
  | empty =>
    obtain ⟨rfl, -⟩ : Forest.nil = f ∧ ks = ks' := by simpa [read] using hread
    trivial
  | fail what => simp [read] at hread
  | take =>
    obtain ⟨k, -, rfl⟩ := read_take_eq_ok.1 hread
    trivial
  | call rule =>
    rw [read] at hread
    exact hfollow.headPlain rule room ks f ks' hread hform
  | seq a b iha ihb =>
    obtain ⟨g, ks₁, h, ha, hb, rfl⟩ := read_seq_eq_ok.1 hread
    refine (iha hform.1 ha).append fun hnil => ?_
    exact hform.2.elim (fun hsolid => absurd hnil (read_solid hsolid ha)) fun hb' => ihb hb' hb
  | node k a ih =>
    obtain ⟨g, ha, rfl⟩ := read_node_eq_ok.1 hread
    exact ⟨hform.1, ih hform.2 ha⟩
  | adopt a b iha ihb =>
    obtain ⟨g, ks₁, h, ha, hb, rfl⟩ := read_adopt_eq_ok.1 hread
    exact (iha hform.1 ha).adopt (ihb hform.2 hb)
  | nest a ih =>
    obtain ⟨room', -, ha⟩ := read_nest_eq_ok.1 hread
    exact ih hform ha
  | look choose ih =>
    rw [read] at hread
    exact ih ks (hform ks) hread

/-- A form reads as many names at the top as it has there. -/
lemma read_names (hfollow : DeclaringRules plain headed follow) {count : Nat}
    (hform : form.Names count) (hread : form.read follow room ks = .ok (f, ks')) :
    (f.children .name).length = count := by
  induction form generalizing count room ks ks' f with
  | empty =>
    obtain ⟨rfl, -⟩ : Forest.nil = f ∧ ks = ks' := by simpa [read] using hread
    exact hform.symm
  | fail what => simp [read] at hread
  | take =>
    obtain ⟨k, -, rfl⟩ := read_take_eq_ok.1 hread
    exact hform.symm
  | call rule =>
    rw [read] at hread
    rw [hfollow.names rule room ks f ks' hread]
    exact hform.symm
  | seq a b iha ihb =>
    obtain ⟨g, ks₁, h, ha, hb, rfl⟩ := read_seq_eq_ok.1 hread
    rw [Forest.children_append, List.length_append]
    rcases hform with ⟨hfirst, hsecond⟩ | ⟨hfirst, hsecond⟩
    · rw [iha hfirst ha, ihb hsecond hb, Nat.add_zero]
    · rw [iha hfirst ha, ihb hsecond hb, Nat.zero_add]
  | node k a ih =>
    obtain ⟨g, ha, rfl⟩ := read_node_eq_ok.1 hread
    obtain rfl : count = if k = .name then 1 else 0 := hform
    rw [Forest.children]
    split <;> rfl
  | adopt a b iha ihb =>
    obtain ⟨g, ks₁, h, ha, hb, rfl⟩ := read_adopt_eq_ok.1 hread
    rw [Forest.length_children_adopt _ (List.length_eq_zero_iff.1 (iha hform.1 ha))]
    exact ihb hform.2 hb
  | nest a ih =>
    obtain ⟨room', -, ha⟩ := read_nest_eq_ok.1 hread
    exact ih hform ha
  | look choose ih =>
    rw [read] at hread
    exact ih ks (hform ks) hread

/-- A form with a declarator reads one. -/
lemma read_declarator (hfollow : DeclaringRules plain headed follow)
    (hform : form.HasDeclarator headed) (hread : form.read follow room ks = .ok (f, ks')) :
    f.children .variableDeclarator ≠ [] := by
  induction form generalizing room ks ks' f with
  | empty => exact hform.elim
  | fail what => simp [read] at hread
  | take => exact hform.elim
  | call rule =>
    rw [read] at hread
    exact hfollow.declarator rule room ks f ks' hread hform
  | seq a b iha ihb =>
    obtain ⟨g, ks₁, h, ha, hb, rfl⟩ := read_seq_eq_ok.1 hread
    rw [Forest.children_append]
    rcases hform with hform | hform
    · exact List.append_ne_nil_of_left_ne_nil (iha hform ha) _
    · exact List.append_ne_nil_of_right_ne_nil _ (ihb hform hb)
  | node k a ih =>
    obtain ⟨g, ha, rfl⟩ := read_node_eq_ok.1 hread
    obtain rfl : k = .variableDeclarator := hform
    simp [Forest.children]
  | adopt a b iha ihb =>
    obtain ⟨g, ks₁, h, ha, hb, rfl⟩ := read_adopt_eq_ok.1 hread
    exact Forest.children_adopt_ne_nil (ihb hform hb)
  | nest a ih =>
    obtain ⟨room', -, ha⟩ := read_nest_eq_ok.1 hread
    exact ih hform ha
  | look choose ih =>
    rw [read] at hread
    exact ih ks (hform ks) hread

/-- A form whose nodes declare what nodes of their kind do reads a forest of which this is true. -/
lemma read_declaring (hfollow : DeclaringRules plain headed follow)
    (hform : form.Declaring plain headed) (hread : form.read follow room ks = .ok (f, ks')) :
    f.Declaring := by
  induction form generalizing room ks ks' f with
  | empty =>
    obtain ⟨rfl, -⟩ : Forest.nil = f ∧ ks = ks' := by simpa [read] using hread
    trivial
  | fail what => simp [read] at hread
  | take =>
    obtain ⟨k, -, rfl⟩ := read_take_eq_ok.1 hread
    trivial
  | call rule =>
    rw [read] at hread
    exact hfollow.declaring rule room ks f ks' hread
  | seq a b iha ihb =>
    obtain ⟨g, ks₁, h, ha, hb, rfl⟩ := read_seq_eq_ok.1 hread
    exact (iha hform.1 ha).append (ihb hform.2 hb)
  | node k a ih =>
    obtain ⟨g, ha, rfl⟩ := read_node_eq_ok.1 hread
    obtain ⟨hhead, hname, hdeclarator, hinside⟩ := hform
    refine ⟨⟨fun hk => ?_, fun hk => ?_, fun hk => ?_⟩, ih hinside ha, trivial⟩
    · exact read_headPlain hfollow (hhead hk) ha
    · exact read_names hfollow (hname hk) ha
    · exact read_declarator hfollow (hdeclarator hk) ha
  | adopt a b iha ihb =>
    obtain ⟨g, ks₁, h, ha, hb, rfl⟩ := read_adopt_eq_ok.1 hread
    obtain ⟨hhead, hnames, hfirst, hsecond⟩ := hform
    refine (iha hfirst ha).adopt (ihb hsecond hb) (read_headPlain hfollow hhead ha) ?_
    exact List.length_eq_zero_iff.1 (read_names hfollow hnames ha)
  | nest a ih =>
    obtain ⟨room', -, ha⟩ := read_nest_eq_ok.1 hread
    exact ih hform ha
  | look choose ih =>
    rw [read] at hread
    exact ih ks (hform ks) hread

/-! ## Simplification -/

@[simp] lemma solid_append {a b : Form ρ} : (a ++ b).Solid ↔ a.Solid ∨ b.Solid := Iff.rfl

@[simp] lemma headPlain_append {a b : Form ρ} :
    (a ++ b).HeadPlain plain ↔ a.HeadPlain plain ∧ (a.Solid ∨ b.HeadPlain plain) := Iff.rfl

@[simp] lemma names_append {count : Nat} {a b : Form ρ} :
    (a ++ b).Names count ↔ (a.Names count ∧ b.Names 0) ∨ (a.Names 0 ∧ b.Names count) := Iff.rfl

@[simp] lemma hasDeclarator_append {a b : Form ρ} :
    (a ++ b).HasDeclarator headed ↔ a.HasDeclarator headed ∨ b.HasDeclarator headed := Iff.rfl

@[simp] lemma declaring_append {a b : Form ρ} :
    (a ++ b).Declaring plain headed ↔ a.Declaring plain headed ∧ b.Declaring plain headed := Iff.rfl

@[simp] lemma solid_if {p : Prop} [Decidable p] {a b : Form ρ} :
    (if p then a else b).Solid ↔ if p then a.Solid else b.Solid := by
  split <;> rfl

@[simp] lemma headPlain_if {p : Prop} [Decidable p] {a b : Form ρ} :
    (if p then a else b).HeadPlain plain ↔
      if p then a.HeadPlain plain else b.HeadPlain plain := by
  split <;> rfl

@[simp] lemma names_if {count : Nat} {p : Prop} [Decidable p] {a b : Form ρ} :
    (if p then a else b).Names count ↔ if p then a.Names count else b.Names count := by
  split <;> rfl

@[simp] lemma declaring_if {p : Prop} [Decidable p] {a b : Form ρ} :
    (if p then a else b).Declaring plain headed ↔
      if p then a.Declaring plain headed else b.Declaring plain headed := by
  split <;> rfl

@[simp] lemma solid_ite {test : List Kind → Bool} {a b : Form ρ} :
    (ite test a b).Solid ↔ ∀ ks, if test ks then a.Solid else b.Solid := by
  simp [ite, Solid]

@[simp] lemma headPlain_ite {test : List Kind → Bool} {a b : Form ρ} :
    (ite test a b).HeadPlain plain ↔
      ∀ ks, if test ks then a.HeadPlain plain else b.HeadPlain plain := by
  simp [ite, HeadPlain]

@[simp] lemma names_ite {count : Nat} {test : List Kind → Bool} {a b : Form ρ} :
    (ite test a b).Names count ↔ ∀ ks, if test ks then a.Names count else b.Names count := by
  simp [ite, Names]

@[simp] lemma declaring_ite {test : List Kind → Bool} {a b : Form ρ} :
    (ite test a b).Declaring plain headed ↔
      ∀ ks, if test ks then a.Declaring plain headed else b.Declaring plain headed := by
  simp [ite, Declaring]

end Form

/-- If the nodes that the rules describe declare what they should, then so do all that are read. -/
theorem readRule_declaringRules {ρ : Type} {grammar : ρ → Form ρ} {plain headed : ρ → Prop}
    (hplain : ∀ rule, plain rule → (grammar rule).HeadPlain plain)
    (hnames : ∀ rule, (grammar rule).Names 0)
    (hheaded : ∀ rule, headed rule → (grammar rule).HasDeclarator headed)
    (hdeclaring : ∀ rule, (grammar rule).Declaring plain headed) (fuel : Nat) :
    Form.DeclaringRules plain headed (readRule grammar fuel) := by
  induction fuel with
  | zero =>
    refine ⟨fun _ _ _ _ _ h => ?_, fun _ _ _ _ _ h => ?_, fun _ _ _ _ _ h => ?_,
      fun _ _ _ _ _ h => ?_⟩ <;> simp [readRule] at h
  | succ fuel ih =>
    refine ⟨fun rule room ks f ks' hread hrule => ?_, fun rule room ks f ks' hread => ?_,
      fun rule room ks f ks' hread hrule => ?_, fun rule room ks f ks' hread => ?_⟩
    · exact Form.read_headPlain ih (hplain rule hrule) hread
    · exact List.length_eq_zero_iff.1 (Form.read_names ih (hnames rule) hread)
    · exact Form.read_declarator ih (hheaded rule hrule) hread
    · exact Form.read_declaring ih (hdeclaring rule) hread

namespace Rule

open Form Lookahead

/-- The rules that describe what may stand first in a declaration. -/
def StartsDeclaration : Rule → Prop
  | modifierTail | annotationUse | annotations | typeParams | type | declarators => True
  | _ => False

attribute [local simp] StartsDeclaration Form.Solid Form.HeadPlain Form.Names Form.HasDeclarator
  Form.Declaring NodeKind.isRecorded NodeKind.hasName DeclKind.ofNode? opt expect eat expectWord
  expectName semicolon braces parens unlessAt more qualifiedName declaredName modifiers arguments
  parenExpr brackets formalParams throwsClause typeCore packageDecl importDecl moduleDecl
  enumConstant constructorDecl methodDecl fieldDecl declaredMember paramName localVar resource
  catchClause tryStatement forHeader ruleBody switchLabel lambdaParams cast creatorBody

/-- A type declaration declares its name, and starts with a word of its own. -/
lemma typeDeclOf_declaring {kind : NodeKind} (h : kind.isTypeDecl = true) :
    (typeDeclOf kind).Declaring StartsDeclaration (· = declarators) := by
  cases kind <;> simp_all [typeDeclOf, NodeKind.isTypeDecl]

/-- A type declaration declares no name outside of its node. -/
lemma typeDeclOf_names {kind : NodeKind} (h : kind.isTypeDecl = true) :
    (typeDeclOf kind).Names 0 := by
  cases kind <;> simp_all [typeDeclOf, NodeKind.isTypeDecl]

/-- A statement declares what it should. -/
lemma statementBody_declaring (ks : List Kind) :
    (statementBody ks).Declaring StartsDeclaration (· = declarators) := by
  unfold statementBody
  split <;> simp

/-- A step of an expression declares what it should. -/
lemma exprStep_declaring (stops : Stops) (previous : Option Kind) (ks : List Kind) :
    (exprStep stops previous ks).Declaring StartsDeclaration (· = declarators) := by
  unfold exprStep
  split <;> simp

/-- A step of an expression declares no name outside of a node. -/
lemma exprStep_names (stops : Stops) (previous : Option Kind) (ks : List Kind) :
    (exprStep stops previous ks).Names 0 := by
  unfold exprStep
  split <;> simp

/-- A choice declares what it should if all that may be chosen does. -/
lemma closedUnderChoice_declaring :
    ClosedUnderChoice fun part : Part => part.Declaring StartsDeclaration (· = declarators) :=
  ⟨fun _ => trivial, fun _ h => h⟩

/-- A choice declares the names that are declared by what may be chosen. -/
lemma closedUnderChoice_names : ClosedUnderChoice fun part : Part => part.Names 0 :=
  ⟨fun _ => trivial, fun _ h => h⟩

/-- What may stand first in a declaration does not start with a declaration. -/
theorem form_headPlain (rule : Rule) (h : rule.StartsDeclaration) :
    rule.form.HeadPlain StartsDeclaration := by
  cases rule with
  | modifierTail => simp [form]
  | annotationUse => simp [form]
  | annotations => simp [form]
  | typeParams => simp [form]
  | type => simp [form]
  | declarators => simp [form]
  | _ => exact absurd h (by simp)

/-- No rule describes a name outside of a node. -/
theorem form_names (rule : Rule) : rule.form.Names 0 := by
  have hclosed := closedUnderChoice_names
  cases rule with
  | typeDecl => exact form_typeDecl_of_closed hclosed fun kind => typeDeclOf_names
  | directive => exact form_directive_of_closed hclosed (by simp) (by simp)
  | members | blockStatements | switchItems | elements =>
    exact untilBrace_of_closed hclosed rfl (by simp)
  | exprTail stops ternaries previous =>
    refine form_exprTail_of_closed hclosed rfl fun k ks => ?_
    simp [exprStep_names]
  | _ => simp [form]

/-- The nodes that a rule describes declare what they should. -/
theorem form_declaring (rule : Rule) :
    rule.form.Declaring StartsDeclaration (· = declarators) := by
  have hclosed := closedUnderChoice_declaring
  cases rule with
  | typeDecl => exact form_typeDecl_of_closed hclosed fun kind => typeDeclOf_declaring
  | directive => exact form_directive_of_closed hclosed trivial (by simp)
  | members | blockStatements | switchItems | elements =>
    exact untilBrace_of_closed hclosed trivial (by simp)
  | statement => simp [form, statementBody_declaring]
  | exprTail stops ternaries previous =>
    refine form_exprTail_of_closed hclosed trivial fun k ks => ?_
    simp [exprStep_declaring]
  | _ => simp [form]

/-- There is a declarator among declarators. -/
theorem form_hasDeclarator (rule : Rule) (h : rule = declarators) :
    rule.form.HasDeclarator (· = declarators) := by
  subst h
  simp [form]

end Rule

/-- The nodes in the shape of a file declare what nodes of their kind do. -/
theorem readShape_declaring {ks : List Kind} {shape : Shape} (h : readShape ks = .ok shape) :
    shape.Declaring := by
  obtain ⟨ks', hread⟩ := readShape_eq_ok.1 h
  have hrules := readRule_declaringRules Rule.form_headPlain Rule.form_names
    Rule.form_hasDeclarator Rule.form_declaring (fuelFor ks.length)
  exact hrules.declaring _ _ _ _ _ hread

end JavaLint
