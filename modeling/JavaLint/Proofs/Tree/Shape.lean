import JavaLint.Proofs.Grammar.Declared
import JavaLint.Proofs.Layout.Tree
import JavaLint.Proofs.Tree.Depth
import JavaLint.Proofs.Tree.Matching
import Mathlib.Tactic.Common

/-!
# The shape of a tree

The shape that the grammar finds for the words of a file is the bare tree of the file, less the texts
of its leaves (`parse_shape`).  So what is known of shapes and does not depend on the leaves is true
of bare trees as well.
-/

namespace JavaLint

namespace Forest

variable {α β : Type} {u : α → β}

/-- Changes the leaves of a forest one by one. -/
def map (u : α → β) : Forest α → Forest β
  | nil => nil
  | leaf a rest => leaf (u a) (map u rest)
  | node kind inside rest => node kind (map u inside) (map u rest)

/-- Nodes at the top stay there. -/
lemma children_map (k : NodeKind) (f : Forest α) :
    (f.map u).children k = (f.children k).map (map u) := by
  induction f with
  | nil => rfl
  | leaf a rest ih => exact ih
  | node k' inside rest _ ih =>
    simp only [map, children, ih]
    split <;> rfl

/-- What comes first does not depend on the leaves. -/
lemma headPlain_of_map {f : Forest α} (hf : (f.map u).HeadPlain) : f.HeadPlain := by
  induction f with
  | nil => trivial
  | leaf a rest => trivial
  | node k inside rest ih _ => exact ⟨hf.1, ih hf.2⟩

/-- What a node declares does not depend on the leaves. -/
lemma declares_of_map {kind : NodeKind} {f : Forest α} (hf : Declares kind (f.map u)) :
    Declares kind f where
  headPlain hkind := headPlain_of_map (hf.headPlain hkind)
  name hkind := by simpa [children_map] using hf.name hkind
  declarator hkind := by simpa [children_map] using hf.declarator hkind

/-- What the nodes declare does not depend on the leaves. -/
lemma declaring_of_map {f : Forest α} (hf : (f.map u).Declaring) : f.Declaring := by
  induction f with
  | nil => trivial
  | leaf a rest ih => exact ih hf
  | node k inside rest ihInside ihRest =>
    exact ⟨declares_of_map hf.1, ihInside hf.2.1, ihRest hf.2.2⟩

/-- A forest with a single leaf has a single leaf, whatever it is. -/
lemma exists_leaf_of_map {f : Forest α} {b : β} (hf : f.map u = .leaf b .nil) :
    ∃ a, f = .leaf a .nil := by
  cases f with
  | nil => cases hf
  | node k inside rest => cases hf
  | leaf a rest =>
    cases rest with
    | nil => exact ⟨a, rfl⟩
    | leaf a' rest => cases hf
    | node k inside rest => cases hf

/-- Whether names are single words does not depend on the leaves. -/
lemma namesSingle_of_map {f : Forest α} (hf : (f.map u).NamesSingle) : f.NamesSingle := by
  induction f with
  | nil => trivial
  | leaf a rest ih => exact ih hf
  | node k inside rest ihInside ihRest =>
    refine ⟨fun hk => ?_, ihInside hf.2.1, ihRest hf.2.2⟩
    obtain ⟨b, hb⟩ := hf.1 hk
    exact exists_leaf_of_map hb

end Forest

/-- What is woven of fitting words has the shape into which they are woven. -/
lemma weave_shape {f : Shape} {ws : List Word} {ks : List Kind} (h : Fitting ws f ks) :
    (weave f ws).1.bare.map Lexeme.kind = f := by
  induction f generalizing ws ks with
  | nil => rfl
  | leaf k rest ih =>
    obtain ⟨w, ws, rfl, hparted, rfl, hrest⟩ := h.exists_cons
    have hbare : (weave (.leaf w.core.kind rest) (w :: ws)).1.bare =
        .leaf w.core.bare (weave rest ws).1.bare := by
      simp only [weave]
      rw [Forest.bare_withLeaves hparted.1]
      simp [Forest.bare, hparted.2]
    rw [hbare, Forest.map, ih hrest, Lexeme.bare_kind]
  | node kind inside rest ihInside ihRest =>
    obtain ⟨hlead, -⟩ := takeLead_parted h.parted
    simp only [weave]
    rw [Forest.bare_withLeaves hlead, Forest.bare, Forest.map, ihInside h.inside,
      ihRest h.inside.left]

section Parse

variable {ls : List Lexeme} {trees : Forest Lexeme}

/-- The shape of the words of a file is the bare tree of the file without texts. -/
theorem parse_shape (h : parse ls = .ok trees) :
    readShape ((codeLexemes ls).map Lexeme.kind) = .ok (trees.bare.map Lexeme.kind) := by
  obtain ⟨shape, hshape, rfl⟩ := parse_eq_ok.1 h
  have hbare : (weaveFile shape ls).bare = (weave shape (words ls).1).1.bare := by
    rw [weaveFile, Forest.bare_append, Forest.bare_withLeaves (words_parted ls).2, Forest.bare,
      Forest.append_nil]
  rw [hbare, weave_shape (fitting_words hshape)]
  exact hshape

/-- The nodes of the tree of a file declare what nodes of their kind do. -/
theorem parse_declaring (h : parse ls = .ok trees) : trees.bare.Declaring :=
  Forest.declaring_of_map (readShape_declaring (parse_shape h))

/-- A forest whose bare form has a single leaf has no others, if there is no trivia in it. -/
lemma Forest.exists_leaf_of_bare {f : Forest Lexeme} {a : Lexeme} (hbare : f.bare = .leaf a .nil)
    (hcode : ∀ l ∈ f.leaves, l.isTrivia = false) : ∃ l, f = .leaf l .nil := by
  cases f with
  | nil => cases hbare
  | node k inside rest => cases hbare
  | leaf l rest =>
    obtain ⟨hl, hrest⟩ := List.forall_mem_cons.1 hcode
    rw [bare, hl] at hbare
    have hnil : rest.bare = .nil := (Forest.leaf.inj hbare).2
    cases rest with
    | nil => exact ⟨l, rfl⟩
    | node k inside rest => cases hnil
    | leaf l' rest =>
      rw [bare, hrest l' (by simp [leaves])] at hnil
      cases hnil

/-- The names of the tree of a file are single words: there is nothing else in their nodes. -/
theorem parse_namesSingle (h : parse ls = .ok trees) : trees.NamesSingle := by
  have hsingle : trees.bare.NamesSingle :=
    Forest.namesSingle_of_map (readShape_namesSingle (parse_shape h))
  have hnames := parse_namesBare h
  clear h
  induction trees with
  | nil => trivial
  | leaf l rest ih =>
    refine ih ?_ hnames
    cases hl : l.isTrivia <;> simpa [Forest.bare, hl, Forest.NamesSingle] using hsingle
  | node k inside rest ihInside ihRest =>
    refine ⟨fun hk => ?_, ihInside hsingle.2.1 hnames.2.1, ihRest hsingle.2.2 hnames.2.2⟩
    obtain ⟨a, ha⟩ := hsingle.1 hk
    exact Forest.exists_leaf_of_bare ha (hnames.1 hk)

end Parse

end JavaLint
