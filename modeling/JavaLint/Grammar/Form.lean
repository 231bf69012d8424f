import JavaLint.Lexeme.Kind
import JavaLint.Tree.Forest

/-!
# Grammars as data

A `Form` is a description of a part of a file.  Forms see nothing but the kinds of the words to
come, so neither the spelling of a name nor the layout of a file can change how it is read.
Which form applies is decided by looking ahead, never by trying and going back.

`Form.read` reads the words that a form describes.  It is one recursion on the form, in which the
rules that a form refers to are given as a function.  `readRule` ties the knot: a rule may be
followed as often as there is fuel, and the budget given by `fuelFor` grows with the number of
words.
-/

namespace JavaLint

/-- The shape of a part of a file: a forest over the kinds of its words. -/
abbrev Shape := Forest Kind

/-- Descriptions of parts of a file, over rules of type `ρ`. -/
inductive Form (ρ : Type) where
  /-- Nothing at all. -/
  | empty
  /-- Nothing can be read here, since `what` was expected. -/
  | fail (what : String)
  /-- The next word, whatever it is. -/
  | take
  /-- What a rule describes. -/
  | call (rule : ρ)
  /-- One part and then another. -/
  | seq (first second : Form ρ)
  /-- A part that becomes a node. -/
  | node (kind : NodeKind) (inside : Form ρ)
  /-- A part and then another, whose first node adopts what was read for the first part. -/
  | adopt (head tail : Form ρ)
  /-- A part that counts as one level of nesting. -/
  | nest (inside : Form ρ)
  /-- A part that depends on the words to come. -/
  | look (choose : List Kind → Form ρ)

/-- Why and where reading stops. -/
inductive StopCause where
  | expected (what : String)
  | tooDeep
  | unfinished
deriving DecidableEq, Repr

/-- Reading stopped with `left` words unread. -/
structure Stop where
  cause : StopCause
  left : Nat
deriving DecidableEq, Repr

/-- A reader takes the number of levels of nesting that are left and the words to come, and
answers what it read and the words after it. -/
abbrev Reader := Nat → List Kind → Except Stop (Shape × List Kind)

namespace Form

variable {ρ : Type}

instance : Append (Form ρ) := ⟨seq⟩

/-- Reads the words that a form describes. -/
def read (follow : ρ → Reader) : Form ρ → Reader
  | empty, _, ks => .ok (.nil, ks)
  | fail what, _, ks => .error ⟨.expected what, ks.length⟩
  | take, _, [] => .error ⟨.expected "word", 0⟩
  | take, _, k :: ks => .ok (.leaf k .nil, ks)
  | call rule, room, ks => follow rule room ks
  | seq first second, room, ks =>
    match first.read follow room ks with
    | .error stop => .error stop
    | .ok (f, ks') =>
      match second.read follow room ks' with
      | .error stop => .error stop
      | .ok (g, ks'') => .ok (f ++ g, ks'')
  | node kind inside, room, ks =>
    match inside.read follow room ks with
    | .error stop => .error stop
    | .ok (f, ks') => .ok (.node kind f .nil, ks')
  | adopt head tail, room, ks =>
    match head.read follow room ks with
    | .error stop => .error stop
    | .ok (f, ks') =>
      match tail.read follow room ks' with
      | .error stop => .error stop
      | .ok (g, ks'') => .ok (f.adopt g, ks'')
  | nest _, 0, ks => .error ⟨.tooDeep, ks.length⟩
  | nest inside, room + 1, ks => inside.read follow room ks
  | look choose, room, ks => (choose ks).read follow room ks

/-! ## Common forms -/

/-- One form if the words to come pass the test, else another. -/
def ite (test : List Kind → Bool) (yes no : Form ρ) : Form ρ :=
  look fun ks => if test ks then yes else no

/-- A form if the words to come pass the test, else nothing. -/
def opt (test : List Kind → Bool) (yes : Form ρ) : Form ρ :=
  ite test yes empty

/-- The next word, which has to be of the given kind. -/
def expect (kind : Kind) (what : String) : Form ρ :=
  ite (fun ks => ks.head? = some kind) take (fail what)

/-- The next word, if it is of the given kind. -/
def eat (kind : Kind) : Form ρ :=
  opt (fun ks => ks.head? = some kind) take

end Form

/-- Follows a rule of a grammar, with a bound on the length of chains of rules. -/
def readRule {ρ : Type} (grammar : ρ → Form ρ) : Nat → ρ → Reader
  | 0, _, _, ks => .error ⟨.unfinished, ks.length⟩
  | fuel + 1, rule, room, ks => (grammar rule).read (readRule grammar fuel) room ks

end JavaLint
