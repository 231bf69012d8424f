import JavaLint.Proofs.Grammar.Java
import JavaLint.Model.Declaration
import JavaLint.Tree.Leaf
import Mathlib.Tactic.Common

/-!
# Trees lose nothing

The grammar sees the code of a file only, and its shape has a leaf for each word of code
(`readShape_leaves`).  The blanks and comments travel with the words: `words` hangs them before the
word that they precede, and `weave` sets them down when the word, or the node that it starts, is
reached.  What `weave` has set down and what it has left are always the words that it was given
(`weave_lexemes`), and it stops with as many words fewer as the shape has leaves.

The main result is `tree_leaves_are_lexemes`, for every sequence of lexemes that makes a file.
-/

namespace JavaLint

/-! ## Words -/

/-- A lexeme of code starts the words after it with an empty lead. -/
lemma words_cons_code {l : Lexeme} (hl : l.isTrivia = false) (ls : List Lexeme) :
    words (l :: ls) = (⟨[], l⟩ :: (words ls).1, (words ls).2) := by
  simp [words, hl]

/-- Trivia before a word joins its lead. -/
lemma words_cons_trivia {l : Lexeme} (hl : l.isTrivia = true) {ls : List Lexeme} {w : Word}
    {ws : List Word} (hws : (words ls).1 = w :: ws) :
    words (l :: ls) = (⟨l :: w.lead, w.core⟩ :: ws, (words ls).2) := by
  simp [words, hl, hws]

/-- Trivia before no word joins what stands after the last word. -/
lemma words_cons_trail {l : Lexeme} (hl : l.isTrivia = true) {ls : List Lexeme}
    (hws : (words ls).1 = []) : words (l :: ls) = ([], l :: (words ls).2) := by
  simp [words, hl, hws]

/-- Dividing lexemes into words keeps them all, and in order. -/
lemma words_lexemes (ls : List Lexeme) : Word.lexemes (words ls).1 ++ (words ls).2 = ls := by
  induction ls with
  | nil => rfl
  | cons l ls ih =>
    cases hl : l.isTrivia with
    | false =>
      rw [words_cons_code hl]
      simpa [Word.lexemes] using ih
    | true =>
      cases hws : (words ls).1 with
      | nil =>
        rw [words_cons_trail hl hws]
        simpa [hws, Word.lexemes] using ih
      | cons w ws =>
        rw [words_cons_trivia hl hws]
        simpa [hws, Word.lexemes] using ih

/-- There is one word for each lexeme of code. -/
lemma words_core (ls : List Lexeme) : (words ls).1.map Word.core = codeLexemes ls := by
  induction ls with
  | nil => rfl
  | cons l ls ih =>
    cases hl : l.isTrivia with
    | false =>
      rw [words_cons_code hl]
      simpa [codeLexemes, hl] using ih
    | true =>
      have hcode : codeLexemes (l :: ls) = codeLexemes ls := by simp [codeLexemes, hl]
      cases hws : (words ls).1 with
      | nil =>
        rw [words_cons_trail hl hws, hcode, ← ih, hws]
      | cons w ws =>
        rw [words_cons_trivia hl hws, hcode, ← ih, hws]
        rfl

/-- There are as many words as lexemes of code. -/
lemma words_length (ls : List Lexeme) : (words ls).1.length = (codeLexemes ls).length := by
  rw [← words_core, List.length_map]

/-! ## Weaving -/

/-- Taking the lead of the next word keeps the lexemes. -/
lemma takeLead_lexemes (ws : List Word) :
    (takeLead ws).1 ++ Word.lexemes (takeLead ws).2 = Word.lexemes ws := by
  cases ws <;> simp [takeLead, Word.lexemes]

/-- Taking the lead of the next word keeps the number of words. -/
lemma takeLead_length (ws : List Word) : (takeLead ws).2.length = ws.length := by
  cases ws <;> simp [takeLead]

/-- The leaves that are woven in and the words that are left are the words that were given. -/
lemma weave_lexemes {α : Type} (f : Forest α) (ws : List Word) :
    (weave f ws).1.leaves ++ Word.lexemes (weave f ws).2 = Word.lexemes ws := by
  induction f generalizing ws with
  | nil => simp [weave, Forest.leaves]
  | leaf a rest ih =>
    cases ws with
    | nil => exact ih []
    | cons w ws =>
      have hrest := ih ws
      simp only [weave, Forest.leaves_withLeaves, Forest.leaves]
      rw [List.append_assoc, List.cons_append, hrest]
      simp [Word.lexemes]
  | node kind inside rest ihInside ihRest =>
    have hlead := takeLead_lexemes ws
    have hinside := ihInside (takeLead ws).2
    have hrest := ihRest (weave inside (takeLead ws).2).2
    simp only [weave, Forest.leaves_withLeaves, Forest.leaves]
    rw [List.append_assoc, List.append_assoc, hrest, hinside, hlead]

/-- Every leaf of the shape uses up a word. -/
lemma weave_length {α : Type} (f : Forest α) (ws : List Word) :
    (weave f ws).2.length = ws.length - f.leaves.length := by
  induction f generalizing ws with
  | nil => simp [weave, Forest.leaves]
  | leaf a rest ih =>
    cases ws with
    | nil => simpa [weave] using ih []
    | cons w ws => simp [weave, Forest.leaves, ih]
  | node kind inside rest ihInside ihRest =>
    simp only [weave, Forest.leaves, List.length_append]
    rw [ihRest, ihInside, takeLead_length]
    omega

/-- If the shape has a leaf for each word of code, then the leaves of the file are the lexemes. -/
lemma weaveFile_leaves {α : Type} {shape : Forest α} {ls : List Lexeme}
    (hlength : shape.leaves.length = (codeLexemes ls).length) :
    (weaveFile shape ls).leaves = ls := by
  have hleft : (weave shape (words ls).1).2 = [] := by
    rw [← List.length_eq_zero_iff, weave_length, words_length, hlength, Nat.sub_self]
  have hwoven := weave_lexemes shape (words ls).1
  rw [hleft] at hwoven
  calc (weaveFile shape ls).leaves
      = (weave shape (words ls).1).1.leaves ++ (words ls).2 := by
        simp [weaveFile, Forest.leaves]
    _ = Word.lexemes (words ls).1 ++ (words ls).2 := by
        rw [← hwoven]
        simp [Word.lexemes]
    _ = ls := words_lexemes ls

/-! ## Whole files -/

/-- A tree is woven from a shape that the grammar finds for the code of the file. -/
lemma parse_eq_ok {ls : List Lexeme} {trees : Forest Lexeme} :
    parse ls = .ok trees ↔
      ∃ shape, readShape ((codeLexemes ls).map Lexeme.kind) = .ok shape ∧
        weaveFile shape ls = trees := by
  unfold parse
  cases readShape ((codeLexemes ls).map Lexeme.kind) <;> simp

/-- Lexemes that make no file are to blame themselves. -/
lemma parse_eq_error {ls : List Lexeme} {e : Error} (h : parse ls = .error e) :
    ∃ line cause, e = .grammatical line cause := by
  unfold parse at h
  cases hshape : readShape ((codeLexemes ls).map Lexeme.kind) with
  | ok shape => simp [hshape] at h
  | error stop =>
    obtain rfl : stop.toError ls = e := by simpa [hshape] using h
    obtain ⟨cause, left⟩ := stop
    unfold Stop.toError
    cases cause with
    | expected what => exact ⟨_, _, rfl⟩
    | tooDeep => exact ⟨_, _, rfl⟩
    | unfinished => exact absurd hshape (readShape_finishes _ left)

/-- The leaves of the trees of a file are its lexemes. -/
lemma parse_leaves {ls : List Lexeme} {trees : Forest Lexeme} (h : parse ls = .ok trees) :
    trees.leaves = ls := by
  obtain ⟨shape, hshape, rfl⟩ := parse_eq_ok.1 h
  apply weaveFile_leaves
  rw [readShape_leaves hshape, List.length_map]

/-- The kind and the text of a leaf of an outline. -/
def OutlineEntry.leaf? : OutlineEntry → Option (LeafKind × String)
  | .node _ => none
  | .leaf kind text => some (kind, text)

/-- The entry of a node is no leaf. -/
lemma OutlineEntry.leaf?_node (kind : NodeKind) : (OutlineEntry.node kind).leaf? = none :=
  rfl

/-- The entry of a leaf is that leaf. -/
@[simp] lemma OutlineEntry.leaf?_leaf (kind : LeafKind) (text : String) :
    (OutlineEntry.leaf kind text).leaf? = some (kind, text) := rfl

/-- The leaves of an outline are those of the tree. -/
lemma outline_leaves (depth : Nat) (f : Forest Lexeme) :
    (f.outline depth).filterMap (fun entry => entry.2.leaf?) =
      f.leaves.map fun l => (l.kind.leafKind, l.text) := by
  induction f generalizing depth with
  | nil => rfl
  | leaf l rest ih => simp [Forest.outline, Forest.leaves, ih]
  | node kind inside rest ihInside ihRest =>
    rw [Forest.outline, List.filterMap_cons_none (by exact OutlineEntry.leaf?_node kind),
      List.filterMap_append, ihInside, ihRest, Forest.leaves, List.map_append]

/-- The tree of a file has its lexemes as leaves, each once and in order, with the kind and the
text of the lexeme, whether they are code or not.  So the text of the tree is the text of the
lexemes.  Nothing is assumed of the lexemes. -/
theorem tree_leaves_are_lexemes {lexemes : List Lexeme} {trees : Forest Lexeme}
    (h : parse lexemes = .ok trees) :
    (fileTree trees).leaves = lexemes ∧
      ((fileTree trees).outline 0).filterMap (fun entry => entry.2.leaf?) =
        lexemes.map (fun l => (l.kind.leafKind, l.text)) ∧
      (fileTree trees).text = String.join (lexemes.map Lexeme.text) := by
  have hleaves : (fileTree trees).leaves = lexemes := by
    simpa [fileTree, Forest.leaves] using parse_leaves h
  refine ⟨hleaves, ?_, ?_⟩
  · rw [outline_leaves, hleaves]
  · rw [Forest.text, hleaves]

/-- The tree of a class with comments before, inside and after it, and with a name that no text
could have. -/
theorem tree_leaves_of_commented_class :
    let comment : Lexeme := ⟨.blockComment, "/**/", 0, 1⟩
    let lexemes : List Lexeme := [comment, ⟨.keyword .classKw, "class", 0, 1⟩, comment,
      ⟨.identifier, "", 7, 0⟩, ⟨.lBrace, "\x7b", 0, 1⟩, comment, ⟨.rBrace, "\x7d", 0, 1⟩, comment]
    ∃ trees, parse lexemes = .ok trees ∧ (fileTree trees).leaves = lexemes ∧
      (fileTree trees).text = "/**/class/**/\x7b/**/\x7d/**/" := by
  intro comment lexemes
  have h : parse lexemes = .ok (.leaf comment (.node .classDecl
      (.leaf ⟨.keyword .classKw, "class", 0, 1⟩ (.leaf comment
        (.node .name (.leaf ⟨.identifier, "", 7, 0⟩ .nil) (.node .classBody
          (.leaf ⟨.lBrace, "\x7b", 0, 1⟩ (.leaf comment (.leaf ⟨.rBrace, "\x7d", 0, 1⟩ .nil))) .nil))))
      (.leaf comment .nil))) := by
    decide +kernel
  obtain ⟨hleaves, -, htext⟩ := tree_leaves_are_lexemes h
  exact ⟨_, h, hleaves, htext⟩

end JavaLint
