import JavaLint.Lexeme.Kind
import JavaLint.Tree.Forest

/-!
# Putting blanks and comments back into a tree

The grammar reads the words of a file, that is the lexemes that are code.  The tree of the file
has all lexemes as leaves.  `weave` puts the others back: what stands before a word goes as far
out as it can, into the smallest node that also holds the word before, so a node never starts or
ends with a blank or a comment.  What stands before the first word or after the last one belongs
to the file itself.
-/

namespace JavaLint

/-- A lexeme that is code, with the trivia before it. -/
structure Word where
  lead : List Lexeme
  core : Lexeme
deriving DecidableEq, Repr

/-- The words of a sequence of lexemes, and the trivia after the last word. -/
def words : List Lexeme → List Word × List Lexeme
  | [] => ([], [])
  | l :: ls =>
    let (ws, trail) := words ls
    if l.isTrivia then
      match ws with
      | [] => ([], l :: trail)
      | w :: ws => (⟨l :: w.lead, w.core⟩ :: ws, trail)
    else (⟨[], l⟩ :: ws, trail)

/-- The lexemes of a sequence of words. -/
def Word.lexemes (ws : List Word) : List Lexeme :=
  ws.flatMap fun w => w.lead ++ [w.core]

/-- The trivia before the next word, and the words without it. -/
def takeLead : List Word → List Lexeme × List Word
  | [] => ([], [])
  | w :: ws => (w.lead, ⟨[], w.core⟩ :: ws)

/-- Replaces the leaves of a forest by words, in document order, with the trivia before them.
Answers also the words that are left. -/
def weave {α : Type} : Forest α → List Word → Forest Lexeme × List Word
  | .nil, ws => (.nil, ws)
  | .leaf _ rest, ws =>
    match ws with
    | [] => weave rest []
    | w :: ws =>
      let (rest', ws') := weave rest ws
      (.withLeaves w.lead (.leaf w.core rest'), ws')
  | .node kind inside rest, ws =>
    let (lead, ws) := takeLead ws
    let (inside', ws) := weave inside ws
    let (rest', ws) := weave rest ws
    (.withLeaves lead (.node kind inside' rest'), ws)

/-- The trees of a file from their shape and from the lexemes. -/
def weaveFile {α : Type} (shape : Forest α) (lexemes : List Lexeme) : Forest Lexeme :=
  let (ws, trail) := words lexemes
  (weave shape ws).1 ++ .withLeaves trail .nil

end JavaLint
