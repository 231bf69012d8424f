import JavaLint.Model.Declaration
import JavaLint.Proofs.Grammar.Names
import JavaLint.Proofs.Tree.Bare
import Mathlib.Data.List.Basic
import Mathlib.Tactic.Common

/-!
# What is read off a tree does not depend on layout

Names, types, annotations and labels are read off the nodes of a tree as texts.  Most of these texts
leave out blanks and comments.  The text of a declared name does not, but there are none in its node
(`parse_namesBare`), since the node holds a single word.  So all that is recorded of a declaration is
the same for a node and for its bare form (`ofNode_bare`).
-/

namespace JavaLint

namespace Forest

/-! ## Nodes of names -/

/-- There is no trivia in the nodes of names. -/
def NamesBare : Forest Lexeme → Prop
  | nil => True
  | leaf _ rest => rest.NamesBare
  | node kind inside rest =>
    (kind = .name → ∀ l ∈ inside.leaves, l.isTrivia = false) ∧ inside.NamesBare ∧ rest.NamesBare

variable {f g : Forest Lexeme}

/-- Leaves before a forest come into no node. -/
lemma namesBare_withLeaves {as : List Lexeme} : (withLeaves as f).NamesBare ↔ f.NamesBare := by
  induction as with
  | nil => rfl
  | cons a as ih => simpa [withLeaves, NamesBare] using ih

/-- There is no trivia in the names of two sequences if there is none in those of both. -/
lemma NamesBare.append (hf : f.NamesBare) (hg : g.NamesBare) : (f ++ g).NamesBare := by
  induction f with
  | nil => exact hg
  | leaf a rest ih => exact ih hf
  | node k inside rest _ ih => exact ⟨hf.1, hf.2.1, ih hf.2.2⟩

/-- There is no trivia in the names inside the nodes at the top. -/
lemma NamesBare.children (hf : f.NamesBare) {k : NodeKind} : ∀ g ∈ f.children k, g.NamesBare := by
  induction f with
  | nil => simp [Forest.children]
  | leaf a rest ih => exact ih hf
  | node k' inside rest _ ih =>
    simp only [Forest.children]
    split
    · exact List.forall_mem_cons.2 ⟨hf.2.1, ih hf.2.2⟩
    · exact ih hf.2.2

/-- The names at the top are code. -/
lemma NamesBare.leaves_of_mem (hf : f.NamesBare) :
    ∀ g ∈ f.children .name, ∀ l ∈ g.leaves, l.isTrivia = false := by
  induction f with
  | nil => simp [Forest.children]
  | leaf a rest ih => exact ih hf
  | node k inside rest _ ih =>
    simp only [Forest.children]
    split
    · rename_i hk
      exact List.forall_mem_cons.2 ⟨hf.1 hk, ih hf.2.2⟩
    · exact ih hf.2.2

end Forest

/-- Weaving puts no trivia into the nodes of names, since what stands before the single word of a
name goes before its node. -/
lemma weave_namesBare {α : Type} {f : Forest α} (hf : f.NamesSingle) {ws : List Word}
    (hws : ∀ w ∈ ws, w.IsParted) : (weave f ws).1.NamesBare := by
  induction f generalizing ws with
  | nil => trivial
  | leaf a rest ih =>
    cases ws with
    | nil => exact ih hf hws
    | cons w ws =>
      obtain ⟨-, hrest⟩ := List.forall_mem_cons.1 hws
      exact Forest.namesBare_withLeaves.2 (ih hf hrest)
  | node kind inside rest ihInside ihRest =>
    obtain ⟨hname, hinside, hrest⟩ := hf
    obtain ⟨-, hws'⟩ := takeLead_parted hws
    obtain ⟨-, -, hparted⟩ := weave_bare inside hws'
    refine Forest.namesBare_withLeaves.2 ⟨?_, ihInside hinside hws', ihRest hrest hparted⟩
    intro hkind
    obtain ⟨a, rfl⟩ := hname hkind
    cases ws with
    | nil => simp [weave, Forest.leaves]
    | cons w ws =>
      obtain ⟨hw, -⟩ := List.forall_mem_cons.1 hws
      simpa [takeLead, weave, Forest.withLeaves, Forest.leaves] using hw.2

/-- There is no trivia in the names of the tree of a file. -/
theorem parse_namesBare {ls : List Lexeme} {trees : Forest Lexeme} (h : parse ls = .ok trees) :
    trees.NamesBare := by
  obtain ⟨shape, hshape, rfl⟩ := parse_eq_ok.1 h
  obtain ⟨hwords, -⟩ := words_parted ls
  have hwoven := weave_namesBare (readShape_namesSingle hshape) hwords
  exact hwoven.append (Forest.namesBare_withLeaves.2 trivial)

namespace Forest

variable {f : Forest Lexeme}

/-! ## Texts -/

/-- The text of bare lexemes is that of the code. -/
lemma join_bareLexemes (ls : List Lexeme) :
    String.join ((bareLexemes ls).map Lexeme.text) =
      String.join ((codeLexemes ls).map Lexeme.text) := by
  simp [bareLexemes, Function.comp_def]

/-- The text of the code does not depend on layout. -/
lemma codeText_bare (f : Forest Lexeme) : f.bare.codeText = f.codeText := by
  have hcode := codeLexemes_bareLexemes f.leaves
  unfold codeText
  rw [bare_leaves]
  change String.join ((codeLexemes (bareLexemes f.leaves)).map Lexeme.text) = _
  rw [hcode, join_bareLexemes]
  rfl

/-- The text of a node that has only code in it does not depend on layout. -/
lemma text_bare (hf : ∀ l ∈ f.leaves, l.isTrivia = false) : f.bare.text = f.text := by
  have hcode : codeLexemes f.leaves = f.leaves := by
    apply List.filter_eq_self.2
    simpa using hf
  rw [text, text, bare_leaves, join_bareLexemes, hcode]

/-- The nodes at the top become bare one by one. -/
lemma children_bare (k : NodeKind) (f : Forest Lexeme) :
    f.bare.children k = (f.children k).map bare := by
  induction f with
  | nil => rfl
  | leaf l rest ih => cases hl : l.isTrivia <;> simp [bare, children, hl, ih]
  | node k' inside rest _ ih =>
    simp only [bare, children, ih]
    split <;> simp

/-- The first node of a kind becomes bare. -/
lemma child?_bare (k : NodeKind) (f : Forest Lexeme) :
    f.bare.child? k = (f.child? k).map bare := by
  simp [child?, children_bare]

/-- The leaves outside of nodes become bare, and those that are trivia are lost. -/
lemma ownLeaves_bare (f : Forest Lexeme) : f.bare.ownLeaves = bareLexemes f.ownLeaves := by
  induction f with
  | nil => rfl
  | leaf l rest ih =>
    cases hl : l.isTrivia with
    | true => simpa [bare, ownLeaves, hl, bareLexemes, codeLexemes] using ih
    | false => simpa [bare, ownLeaves, hl, bareLexemes, codeLexemes] using ih
  | node k inside rest _ ih => exact ih

/-- The name of an annotation does not depend on layout. -/
lemma annotationName_bare (f : Forest Lexeme) : f.bare.annotationName = f.annotationName := by
  have hfilter : (bareLexemes f.ownLeaves).filter
      (fun l => !l.isTrivia && l.kind != .atSign) =
      (f.ownLeaves.filter fun l => !l.isTrivia && l.kind != .atSign).map Lexeme.bare := by
    rw [bareLexemes, codeLexemes, List.filter_map, List.filter_filter]
    congr 1
    apply List.filter_congr
    intro l _
    cases hl : l.isTrivia <;> simp [hl]
  rw [annotationName, annotationName, ownLeaves_bare, hfilter]
  simp [List.takeWhile_map, Function.comp_def]

/-- Whether a statement starts with a label does not depend on layout. -/
lemma startsWithLabel_bare (f : Forest Lexeme) : f.bare.startsWithLabel = f.startsWithLabel := by
  have hfind : (bareLexemes f.ownLeaves).find? (fun l => !l.isTrivia) =
      (f.ownLeaves.find? fun l => !l.isTrivia).map Lexeme.bare := by
    rw [bareLexemes, codeLexemes, List.find?_map, List.find?_filter]
    simp
  rw [startsWithLabel, startsWithLabel, ownLeaves_bare, hfind]
  cases f.ownLeaves.find? fun l => !l.isTrivia <;> rfl

/-! ## Declarations -/

/-- The names that are declared do not depend on layout. -/
lemma declaredNames_bare (hf : f.NamesBare) (item : NodeKind) :
    f.bare.declaredNames item = f.declaredNames item := by
  simp only [declaredNames, children_bare, List.filterMap_map]
  apply List.filterMap_congr
  intro g hg
  have hnames := (hf.children g hg).leaves_of_mem
  simp only [Function.comp_apply, child?_bare, Option.map_map]
  cases hname : g.child? .name with
  | none => rfl
  | some name => simpa using text_bare (hnames name (List.mem_of_head? hname))

/-- The names that are declared in a list do not depend on layout. -/
lemma namesIn_bare (hf : f.NamesBare) (list item : NodeKind) :
    f.bare.namesIn list item = f.namesIn list item := by
  unfold namesIn
  rw [child?_bare]
  cases hlist : f.child? list with
  | none => rfl
  | some inside => exact declaredNames_bare (hf.children inside (List.mem_of_head? hlist)) item

/-- The types of a `throws` clause do not depend on layout. -/
lemma throwsTypes_bare (f : Forest Lexeme) : f.bare.throwsTypes = f.throwsTypes := by
  unfold throwsTypes
  rw [child?_bare]
  cases f.child? .throwsClause with
  | none => rfl
  | some clause => simp [children_bare, codeText_bare, Function.comp_def]

end Forest

/-- What is recorded of a declaration does not depend on layout. -/
theorem Declaration.ofNode_bare {inside : Forest Lexeme} (h : inside.NamesBare) (kind : DeclKind)
    (name : String) (nameToken firstToken : Nat) :
    Declaration.ofNode kind inside.bare name nameToken firstToken =
      Declaration.ofNode kind inside name nameToken firstToken := by
  simp [ofNode, Forest.namesIn_bare h, Forest.throwsTypes_bare, Forest.child?_bare,
    Forest.codeText_bare, Function.comp_def]

end JavaLint
