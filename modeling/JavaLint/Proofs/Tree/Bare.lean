import JavaLint.Proofs.Tree.Weave
import Mathlib.Tactic.Common

/-!
# Trees without layout

The bare form of a tree has only the code of the file as leaves, and its leaves do not know where
they stand.  Two files with the same code may differ in layout, but not in their bare trees: the
bare tree of a file is the tree of its bare lexemes (`weaveFile_bare`).

Every node of a tree that the grammar finds has code in it (`parse_bare_nodesFull`), however many
blanks and comments there may be.
-/

namespace JavaLint

/-! ## Bare lexemes, words and forests -/

/-- A lexeme that does not know its place. -/
def Lexeme.bare (l : Lexeme) : Lexeme :=
  { l with offset := 0, line := 1 }

/-- The place of a lexeme does not change its kind. -/
@[simp] lemma Lexeme.bare_kind (l : Lexeme) : l.bare.kind = l.kind := rfl

/-- The place of a lexeme does not change its text. -/
@[simp] lemma Lexeme.bare_text (l : Lexeme) : l.bare.text = l.text := rfl

/-- The place of a lexeme does not decide whether it is trivia. -/
@[simp] lemma Lexeme.bare_isTrivia (l : Lexeme) : l.bare.isTrivia = l.isTrivia := rfl

/-- The code among the lexemes, without places. -/
def bareLexemes (ls : List Lexeme) : List Lexeme :=
  (codeLexemes ls).map Lexeme.bare

/-- A word without the trivia before it. -/
def Word.bare (w : Word) : Word :=
  ⟨[], w.core.bare⟩

/-- A forest without the leaves that are trivia, and without the places of the others. -/
def Forest.bare : Forest Lexeme → Forest Lexeme
  | .nil => .nil
  | .leaf l rest => if l.isTrivia then rest.bare else .leaf l.bare rest.bare
  | .node kind inside rest => .node kind inside.bare rest.bare

/-- Lexemes that are code stay code when they lose their places. -/
lemma codeLexemes_bareLexemes (ls : List Lexeme) :
    codeLexemes (bareLexemes ls) = bareLexemes ls := by
  simp [codeLexemes, bareLexemes, List.filter_map, Function.comp_def]

/-- Losing the places does not change the kinds of the words. -/
lemma map_kind_bareLexemes (ls : List Lexeme) :
    (bareLexemes ls).map Lexeme.kind = (codeLexemes ls).map Lexeme.kind := by
  simp [bareLexemes, Function.comp_def]

/-- Two files have the same bare lexemes if their code consists of the same kinds and texts. -/
lemma bareLexemes_eq_of_map_eq {ls ms : List Lexeme}
    (h : (codeLexemes ls).map (fun l => (l.kind, l.text)) =
      (codeLexemes ms).map (fun l => (l.kind, l.text))) :
    bareLexemes ls = bareLexemes ms := by
  have hbare := congrArg (List.map fun p : Kind × String => (⟨p.1, p.2, 0, 1⟩ : Lexeme)) h
  rw [List.map_map, List.map_map] at hbare
  exact hbare

namespace Forest

/-- The leaves of a bare forest are the bare leaves of the forest. -/
lemma bare_leaves (f : Forest Lexeme) : f.bare.leaves = bareLexemes f.leaves := by
  induction f with
  | nil => rfl
  | leaf l rest ih =>
    cases hl : l.isTrivia with
    | true => simpa [bare, leaves, hl, bareLexemes, codeLexemes] using ih
    | false => simpa [bare, leaves, hl, bareLexemes, codeLexemes] using ih
  | node kind inside rest ihInside ihRest =>
    simp [bare, leaves, ihInside, ihRest, bareLexemes, codeLexemes]

/-- Trees after each other become bare one after the other. -/
lemma bare_append (f g : Forest Lexeme) : (f ++ g).bare = f.bare ++ g.bare := by
  induction f with
  | nil => rfl
  | leaf l rest ih => cases hl : l.isTrivia <;> simp [bare, hl, ih]
  | node kind inside rest _ ih => simp [bare, ih]

/-- Trivia before a forest is lost. -/
lemma bare_withLeaves {as : List Lexeme} (has : ∀ l ∈ as, l.isTrivia = true) (f : Forest Lexeme) :
    (withLeaves as f).bare = f.bare := by
  induction as with
  | nil => rfl
  | cons l as ih =>
    obtain ⟨hl, has⟩ := List.forall_mem_cons.1 has
    have hrest := ih has
    simpa [withLeaves, bare, hl] using hrest

end Forest

/-! ## The bare tree of a file -/

/-- The leads of words are trivia and their cores are code. -/
def Word.IsParted (w : Word) : Prop :=
  (∀ l ∈ w.lead, l.isTrivia = true) ∧ w.core.isTrivia = false

/-- The lexemes of a file are divided into leads of trivia, code, and a trail of trivia. -/
lemma words_parted (ls : List Lexeme) :
    (∀ w ∈ (words ls).1, w.IsParted) ∧ ∀ l ∈ (words ls).2, l.isTrivia = true := by
  induction ls with
  | nil => simp [words]
  | cons l ls ih =>
    obtain ⟨hwords, htrail⟩ := ih
    cases hl : l.isTrivia with
    | false =>
      rw [words_cons_code hl]
      exact ⟨List.forall_mem_cons.2 ⟨⟨by simp, hl⟩, hwords⟩, htrail⟩
    | true =>
      cases hws : (words ls).1 with
      | nil =>
        rw [words_cons_trail hl hws]
        exact ⟨by simp, List.forall_mem_cons.2 ⟨hl, htrail⟩⟩
      | cons w ws =>
        rw [hws] at hwords
        obtain ⟨hw, hrest⟩ := List.forall_mem_cons.1 hwords
        rw [words_cons_trivia hl hws]
        refine ⟨List.forall_mem_cons.2 ⟨⟨?_, hw.2⟩, hrest⟩, htrail⟩
        exact List.forall_mem_cons.2 ⟨hl, hw.1⟩

/-- If all lexemes are code, then each is a word with an empty lead. -/
lemma words_of_code {ls : List Lexeme} (hls : ∀ l ∈ ls, l.isTrivia = false) :
    words ls = (ls.map (fun l => ⟨[], l⟩), []) := by
  induction ls with
  | nil => rfl
  | cons l ls ih =>
    obtain ⟨hl, hls⟩ := List.forall_mem_cons.1 hls
    rw [words_cons_code hl, ih hls]
    rfl

/-- The words of the bare lexemes are the bare words. -/
lemma words_bareLexemes (ls : List Lexeme) :
    words (bareLexemes ls) = ((words ls).1.map Word.bare, []) := by
  have hcode : ∀ l ∈ bareLexemes ls, l.isTrivia = false := by
    rw [← codeLexemes_bareLexemes]
    intro l hl
    simpa using (List.mem_filter.1 hl).2
  rw [words_of_code hcode, bareLexemes, ← words_core]
  simp [Word.bare, Function.comp_def]

/-- Taking the lead of the next word loses nothing once the words are bare. -/
lemma map_bare_takeLead (ws : List Word) :
    (takeLead ws).2.map Word.bare = ws.map Word.bare := by
  cases ws <;> simp [takeLead, Word.bare]

/-- Taking the lead of the next word leaves parted words, and the lead is trivia. -/
lemma takeLead_parted {ws : List Word} (hws : ∀ w ∈ ws, w.IsParted) :
    (∀ l ∈ (takeLead ws).1, l.isTrivia = true) ∧ ∀ w ∈ (takeLead ws).2, w.IsParted := by
  cases ws with
  | nil => simp [takeLead]
  | cons w ws =>
    obtain ⟨hw, hrest⟩ := List.forall_mem_cons.1 hws
    exact ⟨hw.1, List.forall_mem_cons.2 ⟨⟨by simp, hw.2⟩, hrest⟩⟩

/-- There is no lead before a bare word. -/
lemma takeLead_map_bare (ws : List Word) :
    takeLead (ws.map Word.bare) = ([], ws.map Word.bare) := by
  cases ws <;> rfl

/-- Weaving parted words and making the forest bare is weaving the bare words, and the words that
are left are parted again. -/
lemma weave_bare {α : Type} (f : Forest α) {ws : List Word} (hws : ∀ w ∈ ws, w.IsParted) :
    (weave f (ws.map Word.bare)).1 = (weave f ws).1.bare ∧
      (weave f (ws.map Word.bare)).2 = (weave f ws).2.map Word.bare ∧
      ∀ w ∈ (weave f ws).2, w.IsParted := by
  induction f generalizing ws with
  | nil => exact ⟨rfl, rfl, hws⟩
  | leaf a rest ih =>
    cases ws with
    | nil => exact ih hws
    | cons w ws =>
      obtain ⟨hw, hrest⟩ := List.forall_mem_cons.1 hws
      obtain ⟨hforest, hleft, hparted⟩ := ih hrest
      refine ⟨?_, hleft, hparted⟩
      simp only [weave, List.map_cons]
      rw [hforest, Forest.bare_withLeaves hw.1]
      simp [Forest.bare, hw.2, Word.bare, Forest.withLeaves]
  | node kind inside rest ihInside ihRest =>
    obtain ⟨hlead, hws'⟩ := takeLead_parted hws
    obtain ⟨hinside, hleft, hparted⟩ := ihInside hws'
    obtain ⟨hrest, hleft', hparted'⟩ := ihRest hparted
    rw [map_bare_takeLead] at hinside hleft
    refine ⟨?_, ?_, hparted'⟩
    · simp only [weave]
      rw [takeLead_map_bare, Forest.bare_withLeaves hlead, hleft, hinside, hrest]
      rfl
    · simp only [weave]
      rw [takeLead_map_bare, hleft, hleft']

/-- The bare tree of a file is the tree of its bare lexemes. -/
theorem weaveFile_bare {α : Type} (shape : Forest α) (ls : List Lexeme) :
    (weaveFile shape ls).bare = weaveFile shape (bareLexemes ls) := by
  obtain ⟨hwords, htrail⟩ := words_parted ls
  have htrail' : (Forest.withLeaves (words ls).2 .nil).bare = .nil :=
    Forest.bare_withLeaves htrail .nil
  simp only [weaveFile]
  rw [words_bareLexemes, Forest.bare_append, htrail', (weave_bare shape hwords).1]
  rfl

/-! ## Code in every node -/

/-- Weaving makes at least as many leaves as the shape has, if there are words enough. -/
lemma weave_leaves_length_le {α : Type} (f : Forest α) (ws : List Word)
    (hlength : f.leaves.length ≤ ws.length) :
    f.leaves.length ≤ (weave f ws).1.leaves.length := by
  induction f generalizing ws with
  | nil => simp [Forest.leaves]
  | leaf a rest ih =>
    cases ws with
    | nil => simp [Forest.leaves] at hlength
    | cons w ws =>
      have hrest := ih ws (by simpa [Forest.leaves] using hlength)
      simp only [weave, Forest.leaves_withLeaves, Forest.leaves, List.length_append,
        List.length_cons]
      omega
  | node kind inside rest ihInside ihRest =>
    simp only [Forest.leaves, List.length_append] at hlength
    have hcount := weave_length inside (takeLead ws).2
    rw [takeLead_length] at hcount
    have hinside := ihInside (takeLead ws).2 (by rw [takeLead_length]; omega)
    have hrest := ihRest (weave inside (takeLead ws).2).2 (by omega)
    simp only [weave, Forest.leaves_withLeaves, Forest.leaves, List.length_append]
    omega

/-- Leaves before a forest empty no node. -/
lemma Forest.nodesFull_withLeaves {α : Type} {as : List α} {f : Forest α} :
    (withLeaves as f).NodesFull ↔ f.NodesFull := by
  induction as with
  | nil => rfl
  | cons a as ih => simpa [withLeaves, NodesFull] using ih

/-- Weaving empties no node, if there are words enough. -/
lemma weave_nodesFull {α : Type} {f : Forest α} (hf : f.NodesFull) (ws : List Word)
    (hlength : f.leaves.length ≤ ws.length) : (weave f ws).1.NodesFull := by
  induction f generalizing ws with
  | nil => trivial
  | leaf a rest ih =>
    cases ws with
    | nil => simp [Forest.leaves] at hlength
    | cons w ws =>
      have hrest := ih hf ws (by simpa [Forest.leaves] using hlength)
      exact Forest.nodesFull_withLeaves.2 hrest
  | node kind inside rest ihInside ihRest =>
    obtain ⟨hne, hinside, hrest⟩ := hf
    simp only [Forest.leaves, List.length_append] at hlength
    have hcount := weave_length inside (takeLead ws).2
    have henough : inside.leaves.length ≤ (takeLead ws).2.length := by
      rw [takeLead_length]
      omega
    rw [takeLead_length] at hcount
    have hne' : (weave inside (takeLead ws).2).1.leaves ≠ [] := by
      have hpos := List.length_pos_iff.2 hne
      have hle := weave_leaves_length_le inside _ henough
      exact List.length_pos_iff.1 (by omega)
    have hrest' := ihRest hrest (weave inside (takeLead ws).2).2 (by omega)
    exact Forest.nodesFull_withLeaves.2 ⟨hne', ihInside hinside _ henough, hrest'⟩

/-- Every node of the tree of a file has code in it. -/
theorem parse_bare_nodesFull {ls : List Lexeme} {trees : Forest Lexeme}
    (h : parse ls = .ok trees) : trees.bare.NodesFull := by
  obtain ⟨shape, hshape, rfl⟩ := parse_eq_ok.1 h
  have hlength : shape.leaves.length ≤ ((words ls).1.map Word.bare).length := by
    simp [readShape_leaves hshape, words_length]
  have hfull := weave_nodesFull (readShape_nodesFull hshape) _ hlength
  rw [weaveFile_bare, weaveFile, words_bareLexemes]
  exact hfull.append trivial

end JavaLint
