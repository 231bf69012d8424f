import JavaLint.Proofs.Grammar.Names
import JavaLint.Proofs.Tree.Matching
import Mathlib.Tactic.Common

/-!
# Names are words that can be names

The single word in the node of a declared name is an identifier, or a keyword that can be used as one.
The node is made by `take`, which takes any word.  That it takes the right one follows from the look
ahead before it, so the property of forms depends on the words to come: `Form.NamesProper`.
-/

namespace JavaLint

namespace Forest

variable {α : Type} {p : α → Prop} {f g : Forest α}

/-- Every leaf in a node of a name has the property. -/
def NamesHave (p : α → Prop) : Forest α → Prop
  | nil => True
  | leaf _ rest => rest.NamesHave p
  | node kind inside rest =>
    (kind = .name → ∀ a ∈ inside.leaves, p a) ∧ inside.NamesHave p ∧ rest.NamesHave p

/-- The names of two sequences have the property if those of both have it. -/
lemma NamesHave.append (hf : f.NamesHave p) (hg : g.NamesHave p) : (f ++ g).NamesHave p := by
  induction f with
  | nil => exact hg
  | leaf a rest ih => exact ih hf
  | node k inside rest _ ih => exact ⟨hf.1, hf.2.1, ih hf.2.2⟩

/-- What is adopted does not come into the node of a name. -/
lemma NamesHave.adopt (hf : f.NamesHave p) (hg : g.NamesHave p) (hplain : g.StartsPlain) :
    (f.adopt g).NamesHave p := by
  cases g with
  | nil => exact hf.append hg
  | leaf a rest => exact hf.append hg
  | node k inside rest => exact ⟨fun hk => absurd hk hplain, hf.append hg.2.1, hg.2.2⟩

/-- Leaves before a forest come into no node. -/
lemma namesHave_withLeaves {as : List α} : (withLeaves as f).NamesHave p ↔ f.NamesHave p := by
  induction as with
  | nil => rfl
  | cons a as ih => simpa [withLeaves, NamesHave] using ih

/-- The names have every property that follows. -/
lemma NamesHave.imp {q : α → Prop} (hf : f.NamesHave p) (h : ∀ a ∈ f.leaves, p a → q a) :
    f.NamesHave q := by
  induction f with
  | nil => trivial
  | leaf a rest ih => exact ih hf fun b hb => h b (by simp [leaves, hb])
  | node k inside rest ihInside ihRest =>
    have hinside : ∀ a ∈ inside.leaves, p a → q a := fun a ha => h a (by simp [leaves, ha])
    refine ⟨fun hk a ha => hinside a ha (hf.1 hk a ha), ihInside hf.2.1 hinside, ?_⟩
    exact ihRest hf.2.2 fun a ha => h a (by simp [leaves, ha])

end Forest

namespace Form

open Lookahead

variable {ρ : Type} {plain : ρ → Prop} {follow : ρ → Reader}

/-- Before the given words, the form makes nodes of names only of words that can be names. -/
def NamesProper : List Kind → Form ρ → Prop
  | _, empty => True
  | _, fail _ => True
  | _, take => True
  | _, call _ => True
  | ks, seq a b => a.NamesProper ks ∧ ∀ ks', b.NamesProper ks'
  | ks, node kind a => (kind = .name → atName ks = true) ∧ a.NamesProper ks
  | ks, adopt a b => a.NamesProper ks ∧ ∀ ks', b.NamesProper ks'
  | ks, nest a => a.NamesProper ks
  | ks, look choose => (choose ks).NamesProper ks

/-- A form whose names are proper and single words reads a forest whose names are proper. -/
lemma read_namesHave
    (hfollow : ∀ rule room ks f ks', follow rule room ks = .ok (f, ks') →
      f.NamesHave (fun k => k.isName = true) ∧ (plain rule → f.StartsPlain))
    {form : Form ρ} {room : Nat} {ks ks' : List Kind} {f : Shape} (hform : form.NamesProper ks)
    (hsingle : form.NamesSingle plain) (hread : form.read follow room ks = .ok (f, ks')) :
    f.NamesHave fun k => k.isName = true := by
  induction form generalizing room ks ks' f with
  | empty =>
    obtain ⟨rfl, -⟩ : Forest.nil = f ∧ ks = ks' := by simpa [read] using hread
    trivial
  | fail what => simp [read] at hread
  | take =>
    obtain ⟨k, -, rfl⟩ := read_take_eq_ok.1 hread
    trivial
  | call rule =>
    rw [read] at hread
    exact (hfollow rule room ks f ks' hread).1
  | seq a b iha ihb =>
    obtain ⟨g, ks₁, h, ha, hb, rfl⟩ := read_seq_eq_ok.1 hread
    exact (iha hform.1 hsingle.1 ha).append (ihb (hform.2 ks₁) hsingle.2 hb)
  | node k a ih =>
    obtain ⟨g, ha, rfl⟩ := read_node_eq_ok.1 hread
    refine ⟨?_, ih hform.2 hsingle.2 ha, trivial⟩
    intro hk
    -- The only word in the node is the one that was looked at.
    rw [hsingle.1 hk] at ha
    obtain ⟨word, rfl, rfl⟩ := read_take_eq_ok.1 ha
    simpa [atName, first, Forest.leaves] using hform.1 hk
  | adopt a b iha ihb =>
    obtain ⟨g, ks₁, h, ha, hb, rfl⟩ := read_adopt_eq_ok.1 hread
    have hplain : h.StartsPlain :=
      read_startsPlain (fun rule room ks f ks' hrule => (hfollow rule room ks f ks' hrule).2)
        hsingle.2.2 hb
    exact (iha hform.1 hsingle.1 ha).adopt (ihb (hform.2 ks₁) hsingle.2.1 hb) hplain
  | nest a ih =>
    obtain ⟨room', -, ha⟩ := read_nest_eq_ok.1 hread
    exact ih hform hsingle ha
  | look choose ih =>
    rw [read] at hread
    exact ih ks hform (hsingle ks) hread

@[simp] lemma namesProper_append {ks : List Kind} {a b : Form ρ} :
    (a ++ b).NamesProper ks ↔ a.NamesProper ks ∧ ∀ ks', b.NamesProper ks' := Iff.rfl

@[simp] lemma namesProper_if {p : Prop} [Decidable p] {ks : List Kind} {a b : Form ρ} :
    (if p then a else b).NamesProper ks ↔
      if p then a.NamesProper ks else b.NamesProper ks := by
  split <;> rfl

@[simp] lemma namesProper_ite {test : List Kind → Bool} {ks : List Kind} {a b : Form ρ} :
    (ite test a b).NamesProper ks ↔
      if test ks then a.NamesProper ks else b.NamesProper ks := by
  simp [ite, NamesProper]

end Form

namespace Rule

open Form Lookahead

/-- A declared name is proper, since the word was looked at. -/
@[simp] lemma declaredName_namesProper (what : String) (ks : List Kind) :
    (declaredName what).NamesProper ks := by
  simp [declaredName, Form.NamesProper]

attribute [local simp] Form.NamesProper opt expect eat expectWord expectName semicolon braces parens
  unlessAt more qualifiedName modifiers arguments parenExpr brackets formalParams throwsClause
  typeCore packageDecl importDecl moduleDecl enumConstant constructorDecl methodDecl fieldDecl
  declaredMember paramName localVar resource catchClause tryStatement forHeader ruleBody switchLabel
  lambdaParams cast creatorBody

/-- The names in a type declaration are proper. -/
lemma typeDeclOf_namesProper {kind : NodeKind} (h : kind.isTypeDecl = true) (ks : List Kind) :
    (typeDeclOf kind).NamesProper ks := by
  simp [typeDeclOf, ne_name_of_isTypeDecl h]

/-- The names in a statement are proper. -/
lemma statementBody_namesProper (ks ks' : List Kind) : (statementBody ks).NamesProper ks' := by
  unfold statementBody
  split <;> simp

/-- The names in a step of an expression are proper. -/
lemma exprStep_namesProper (stops : Stops) (previous : Option Kind) (ks ks' : List Kind) :
    (exprStep stops previous ks).NamesProper ks' := by
  unfold exprStep
  split <;> simp

/-- The names in a choice are proper if those in all that may be chosen are. -/
lemma closedUnderChoice_namesProper (ks : List Kind) :
    ClosedUnderChoice fun part : Part => part.NamesProper ks :=
  ⟨fun _ => trivial, fun _ h => h ks⟩

/-- The names in every rule are proper. -/
theorem form_namesProper (rule : Rule) (ks : List Kind) : rule.form.NamesProper ks := by
  have hclosed := closedUnderChoice_namesProper ks
  cases rule with
  | directive => exact form_directive_of_closed hclosed trivial (by simp)
  | typeDecl =>
    exact form_typeDecl_of_closed hclosed fun kind hkind => typeDeclOf_namesProper hkind ks
  | members | blockStatements | switchItems | elements =>
    exact untilBrace_of_closed hclosed trivial (by simp)
  | statement => simp [form, statementBody_namesProper]
  | exprTail stops ternaries previous =>
    refine form_exprTail_of_closed hclosed trivial fun k ks' => ?_
    simp [exprStep_namesProper]
  | _ => simp [form]

end Rule

/-- The names in all that is read are proper. -/
lemma readRule_namesHave (fuel : Nat) (rule : Rule) (room : Nat) (ks : List Kind) (f : Shape)
    (ks' : List Kind) (hread : readRule Rule.form fuel rule room ks = .ok (f, ks')) :
    f.NamesHave (fun k => k.isName = true) ∧ (rule.Plain → f.StartsPlain) := by
  induction fuel generalizing rule room ks f ks' with
  | zero => simp [readRule] at hread
  | succ fuel ih =>
    rw [readRule] at hread
    refine ⟨?_, fun hrule => ?_⟩
    · exact Form.read_namesHave ih (rule.form_namesProper ks) rule.form_namesSingle hread
    · exact Form.read_startsPlain (fun rule room ks f ks' h => (ih rule room ks f ks' h).2)
        (rule.form_startsPlain hrule) hread

/-- The names in the shape of a file are words that can be names. -/
theorem readShape_namesHave {ks : List Kind} {shape : Shape} (h : readShape ks = .ok shape) :
    shape.NamesHave fun k => k.isName = true := by
  obtain ⟨ks', hread⟩ := readShape_eq_ok.1 h
  exact (readRule_namesHave _ _ _ _ _ _ hread).1

/-- Weaving puts the words of names into the nodes of names. -/
lemma weave_namesHave {f : Shape} (hf : f.NamesHave fun k => k.isName = true)
    (hsingle : f.NamesSingle) {ws : List Word} {ks : List Kind} (h : Fitting ws f ks) :
    (weave f ws).1.NamesHave fun l => l.kind.isName = true := by
  induction f generalizing ws ks with
  | nil => trivial
  | leaf k rest ih =>
    obtain ⟨w, ws, rfl, -, -, hrest⟩ := h.exists_cons
    exact Forest.namesHave_withLeaves.2 (ih hf hsingle hrest)
  | node kind inside rest ihInside ihRest =>
    obtain ⟨hname, hinside, hrest⟩ := hf
    obtain ⟨hone, hsingleInside, hsingleRest⟩ := hsingle
    refine Forest.namesHave_withLeaves.2
      ⟨?_, ihInside hinside hsingleInside h.inside, ihRest hrest hsingleRest h.inside.left⟩
    intro hkind
    obtain ⟨k, rfl⟩ := hone hkind
    have hk : k.isName = true := hname hkind k (by simp [Forest.leaves])
    -- The lead of the word stays outside of the node.
    cases ws with
    | nil => simpa [Forest.leaves] using h.kinds
    | cons w ws =>
      have hkinds := h.kinds
      simp only [List.map_cons, Forest.leaves, List.cons_append, List.nil_append,
        List.cons.injEq] at hkinds
      simpa [takeLead, weave, Forest.withLeaves, Forest.leaves, hkinds.1] using hk

/-- The names in the tree of a file are words that can be names. -/
theorem parse_namesHave {ls : List Lexeme} {trees : Forest Lexeme} (h : parse ls = .ok trees) :
    trees.NamesHave fun l => l.kind.isName = true := by
  obtain ⟨shape, hshape, rfl⟩ := parse_eq_ok.1 h
  have hwoven := weave_namesHave (readShape_namesHave hshape) (readShape_namesSingle hshape)
    (fitting_words hshape)
  exact hwoven.append (Forest.namesHave_withLeaves.2 trivial)

end JavaLint
