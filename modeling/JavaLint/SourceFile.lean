import JavaLint.Model.Builder

/-!
# One source file

The line table and the model of a file.  The tree is needed only to build the model.
-/

namespace JavaLint

/-- What is known of a source file. -/
structure SourceFile where
  table : LineTable
  model : Model
deriving Repr

/-- Reads the text of a source file.  What cannot be cut into lexemes or read by the grammar is
refused. -/
def SourceFile.parse (source : String) : Except Error SourceFile := do
  let lexemes ← Lexeme.scan source
  let trees ← JavaLint.parse lexemes
  let table := LineTable.ofLexemes lexemes
  let model ← Model.build table trees
  return { table := table, model := model }

end JavaLint
