import JavaLint.Model.Builder
import JavaLint.Proofs.LineEnds.Scan
import JavaLint.Proofs.Tree.Weave
import Mathlib.Tactic.Common

/-!
# Trees and the ends of lines

The grammar sees the kinds of lexemes and not their texts.  So if the lexemes of a file are changed to
end their lines with `\r\n`, then the tree of the file is changed leaf by leaf (`parse_withCrlf`), and
so are the names, types and annotations that are read off its nodes.
-/

namespace JavaLint

variable (move : Nat → Nat)

/-! ## Changed words and forests -/

namespace Lexeme

/-- The kind of a lexeme stays the same. -/
@[simp] lemma kind_withCrlf (l : Lexeme) : (l.withCrlf move).kind = l.kind := rfl

/-- The line of a lexeme stays the same. -/
@[simp] lemma line_withCrlf (l : Lexeme) : (l.withCrlf move).line = l.line := rfl

/-- The text of a lexeme is changed. -/
@[simp] lemma text_withCrlf (l : Lexeme) : (l.withCrlf move).text = Text.withCrlf l.text := rfl

/-- Trivia stays trivia. -/
@[simp] lemma isTrivia_withCrlf (l : Lexeme) : (l.withCrlf move).isTrivia = l.isTrivia := rfl

end Lexeme

/-- The word with changed lexemes. -/
def Word.withCrlf (w : Word) : Word :=
  ⟨w.lead.map (.withCrlf move), w.core.withCrlf move⟩

/-- The forest with changed leaves. -/
def Forest.withCrlf : Forest Lexeme → Forest Lexeme
  | .nil => .nil
  | .leaf l rest => .leaf (l.withCrlf move) rest.withCrlf
  | .node kind inside rest => .node kind inside.withCrlf rest.withCrlf

/-- The code of changed lexemes. -/
lemma codeLexemes_withCrlf (ls : List Lexeme) :
    codeLexemes (ls.map (.withCrlf move)) = (codeLexemes ls).map (.withCrlf move) := by
  simp [codeLexemes, List.filter_map, Function.comp_def]

/-- The words of changed lexemes. -/
lemma words_withCrlf (ls : List Lexeme) : words (ls.map (.withCrlf move)) =
    ((words ls).1.map (.withCrlf move), (words ls).2.map (.withCrlf move)) := by
  induction ls with
  | nil => rfl
  | cons l ls ih =>
    cases hl : l.isTrivia with
    | false => simp [words_cons_code, hl, ih, Word.withCrlf]
    | true =>
      cases hws : (words ls).1 with
      | nil =>
        have hws' : (words (ls.map (.withCrlf move))).1 = [] := by rw [ih, hws, List.map_nil]
        rw [List.map_cons, words_cons_trail (by simpa using hl) hws', words_cons_trail hl hws, ih]
        rfl
      | cons w ws =>
        have hws' : (words (ls.map (.withCrlf move))).1 =
            w.withCrlf move :: ws.map (.withCrlf move) := by rw [ih, hws, List.map_cons]
        rw [List.map_cons, words_cons_trivia (by simpa using hl) hws', words_cons_trivia hl hws, ih]
        rfl

namespace Forest

/-- The trees of two sequences are changed by themselves. -/
lemma withCrlf_append (f g : Forest Lexeme) :
    (f ++ g).withCrlf move = f.withCrlf move ++ g.withCrlf move := by
  induction f with
  | nil => rfl
  | leaf l rest ih => simp [withCrlf, ih]
  | node k inside rest _ ih => simp [withCrlf, ih]

/-- Leaves before a forest are changed by themselves. -/
lemma withCrlf_withLeaves (ls : List Lexeme) (f : Forest Lexeme) :
    (withLeaves ls f).withCrlf move = withLeaves (ls.map (.withCrlf move)) (f.withCrlf move) := by
  induction ls with
  | nil => rfl
  | cons l ls ih => exact congrArg (leaf (l.withCrlf move)) ih

end Forest

/-- Taking the trivia before the next word. -/
lemma takeLead_withCrlf (ws : List Word) : takeLead (ws.map (.withCrlf move)) =
    ((takeLead ws).1.map (.withCrlf move), (takeLead ws).2.map (.withCrlf move)) := by
  cases ws <;> rfl

/-- Weaving changed words gives a changed forest. -/
lemma weave_withCrlf {α : Type} (f : Forest α) (ws : List Word) :
    weave f (ws.map (.withCrlf move)) =
      ((weave f ws).1.withCrlf move, (weave f ws).2.map (.withCrlf move)) := by
  induction f generalizing ws with
  | nil => rfl
  | leaf a rest ih =>
    cases ws with
    | nil => exact ih []
    | cons w ws => simp [weave, ih, Forest.withCrlf_withLeaves, Forest.withCrlf, Word.withCrlf]
  | node kind inside rest ihInside ihRest =>
    simp [weave, takeLead_withCrlf, ihInside, ihRest, Forest.withCrlf_withLeaves, Forest.withCrlf]

/-- The tree of changed lexemes is changed leaf by leaf, and there is one if there was one before. -/
theorem parse_withCrlf (ls : List Lexeme) :
    (parse (ls.map (.withCrlf move))).toOption = (parse ls).toOption.map (.withCrlf move) := by
  have hkinds : (codeLexemes (ls.map (.withCrlf move))).map Lexeme.kind =
      (codeLexemes ls).map Lexeme.kind := by
    simp [codeLexemes_withCrlf, Function.comp_def]
  unfold parse
  rw [hkinds]
  cases readShape ((codeLexemes ls).map Lexeme.kind) with
  | error stop => rfl
  | ok shape =>
    simp [Except.toOption, weaveFile, words_withCrlf, weave_withCrlf, Forest.withCrlf_append,
      Forest.withCrlf_withLeaves, Forest.withCrlf]

/-! ## What is read off a tree -/

namespace Forest

/-- The leaves are changed one by one. -/
lemma leaves_withCrlf (f : Forest Lexeme) :
    (f.withCrlf move).leaves = f.leaves.map (.withCrlf move) := by
  induction f with
  | nil => rfl
  | leaf l rest ih => simp [withCrlf, leaves, ih]
  | node k inside rest ihInside ihRest => simp [withCrlf, leaves, ihInside, ihRest]

/-- The leaves outside of nodes are changed one by one. -/
lemma ownLeaves_withCrlf (f : Forest Lexeme) :
    (f.withCrlf move).ownLeaves = f.ownLeaves.map (.withCrlf move) := by
  induction f with
  | nil => rfl
  | leaf l rest ih => simp [withCrlf, ownLeaves, ih]
  | node k inside rest _ ih => exact ih

/-- The nodes at the top are changed one by one. -/
lemma children_withCrlf (k : NodeKind) (f : Forest Lexeme) :
    (f.withCrlf move).children k = (f.children k).map (.withCrlf move) := by
  induction f with
  | nil => rfl
  | leaf l rest ih => exact ih
  | node k' inside rest _ ih =>
    simp only [withCrlf, children, ih]
    split <;> rfl

/-- The first node of a kind is changed. -/
lemma child?_withCrlf (k : NodeKind) (f : Forest Lexeme) :
    (f.withCrlf move).child? k = (f.child? k).map (.withCrlf move) := by
  simp [child?, children_withCrlf]

/-- The text of changed lexemes is the changed text. -/
lemma join_withCrlf (ls : List Lexeme) :
    String.join ((ls.map (.withCrlf move)).map Lexeme.text) =
      Text.withCrlf (String.join (ls.map Lexeme.text)) := by
  simp [Text.withCrlf_join, Function.comp_def]

/-- The text of a changed forest is the changed text. -/
lemma text_withCrlf (f : Forest Lexeme) : (f.withCrlf move).text = Text.withCrlf f.text := by
  rw [text, text, leaves_withCrlf, join_withCrlf]

/-- The text of the code of a changed forest is the changed text. -/
lemma codeText_withCrlf (f : Forest Lexeme) :
    (f.withCrlf move).codeText = Text.withCrlf f.codeText := by
  rw [codeText, codeText, leaves_withCrlf, ← join_withCrlf, List.filter_map]
  rfl

/-- The names that are declared are changed one by one. -/
lemma declaredNames_withCrlf (item : NodeKind) (f : Forest Lexeme) :
    (f.withCrlf move).declaredNames item = (f.declaredNames item).map Text.withCrlf := by
  simp only [declaredNames, children_withCrlf, List.filterMap_map, List.map_filterMap]
  congr 1
  funext g
  simp [child?_withCrlf, Function.comp_def, text_withCrlf]

/-- The names that are declared in a list are changed one by one. -/
lemma namesIn_withCrlf (list item : NodeKind) (f : Forest Lexeme) :
    (f.withCrlf move).namesIn list item = (f.namesIn list item).map Text.withCrlf := by
  unfold namesIn
  rw [child?_withCrlf]
  cases f.child? list with
  | none => rfl
  | some inside => exact declaredNames_withCrlf move item inside

/-- The types of a `throws` clause are changed one by one. -/
lemma throwsTypes_withCrlf (f : Forest Lexeme) :
    (f.withCrlf move).throwsTypes = f.throwsTypes.map Text.withCrlf := by
  unfold throwsTypes
  rw [child?_withCrlf]
  cases f.child? .throwsClause with
  | none => rfl
  | some clause => simp [children_withCrlf, codeText_withCrlf, Function.comp_def]

/-- The name of an annotation is changed. -/
lemma annotationName_withCrlf (f : Forest Lexeme) :
    (f.withCrlf move).annotationName = Text.withCrlf f.annotationName := by
  rw [annotationName, annotationName, ← join_withCrlf move, ownLeaves_withCrlf, List.filter_map,
    List.takeWhile_map]
  rfl

/-- A statement starts with a label if it did before. -/
lemma startsWithLabel_withCrlf (f : Forest Lexeme) :
    (f.withCrlf move).startsWithLabel = f.startsWithLabel := by
  have hfind : (f.withCrlf move).ownLeaves.find? (fun l => !l.isTrivia) =
      (f.ownLeaves.find? fun l => !l.isTrivia).map (.withCrlf move) := by
    rw [ownLeaves_withCrlf, List.find?_map]
    rfl
  rw [startsWithLabel, startsWithLabel, hfind]
  cases f.ownLeaves.find? fun l => !l.isTrivia <;> rfl

end Forest

/-- The declaration with changed texts. -/
def Declaration.withCrlf (d : Declaration) : Declaration where
  kind := d.kind
  name := Text.withCrlf d.name
  nameToken := d.nameToken
  firstToken := d.firstToken
  params := d.params.map Text.withCrlf
  typeParams := d.typeParams.map Text.withCrlf
  returnType := d.returnType.map Text.withCrlf
  throwsTypes := d.throwsTypes.map Text.withCrlf
  recordComponents := d.recordComponents.map Text.withCrlf

/-- What is recorded of a declaration is changed text by text. -/
theorem Declaration.ofNode_withCrlf (kind : DeclKind) (inside : Forest Lexeme) (name : String)
    (nameToken firstToken : Nat) :
    Declaration.ofNode kind (inside.withCrlf move) (Text.withCrlf name) nameToken firstToken =
      (Declaration.ofNode kind inside name nameToken firstToken).withCrlf := by
  by_cases hrecord : kind = .recordDecl <;> by_cases hmethod : kind = .method <;>
    simp [ofNode, withCrlf, Forest.namesIn_withCrlf, Forest.throwsTypes_withCrlf,
      Forest.child?_withCrlf, Forest.codeText_withCrlf, Function.comp_def, hrecord, hmethod]

end JavaLint
