import JavaLint.Text.Search

/-!
# Paths

A path is kept as the text that was given, since that is what messages show.  Two paths are compared
by their components: doubled slashes, slashes at the end and dots between slashes do not count,
whereas a dot at the start does.  So `src//A.java` is the same path as `src/A.java`, and
`./A.java` is another path than `A.java`.
-/

namespace JavaLint

/-- A path as it was given. -/
structure Path where
  text : String
deriving DecidableEq, Repr

namespace Path

/-! ## Components -/

/-- A part of a path. -/
inductive Component where
  /-- The root, at the start of an absolute path. -/
  | root
  /-- The dot at the start of a path. -/
  | here
  /-- Two dots. -/
  | up
  /-- The name of a file or directory. -/
  | named (name : String)
deriving DecidableEq, Repr

namespace Component

/-- The place of a kind of components in the order. -/
def rank : Component → Nat
  | root => 0
  | here => 1
  | up => 2
  | named _ => 3

/-- The order of components: first by kind, then names by their characters. -/
def compare : Component → Component → Ordering
  | named a, named b => Ord.compare a b
  | a, b => Ord.compare a.rank b.rank

/-- The component between two slashes; nothing and a dot are none. -/
def ofPiece? : List Char → Option Component
  | [] => none
  | ['.'] => none
  | ['.', '.'] => some up
  | name => some (named (String.ofList name))

end Component

/-- What stands between the slashes. -/
def pieces (p : Path) : List (List Char) :=
  Text.splitAt '/' p.text.toList

/-- The path starts at the root. -/
def isAbsolute (p : Path) : Bool :=
  p.text.toList.head? == some '/'

/-- The components of a path. -/
def components (p : Path) : List Component :=
  let inner := p.pieces.filterMap Component.ofPiece?
  if p.isAbsolute then .root :: inner
  else if p.pieces.head? = some ['.'] then .here :: inner
  else inner

/-- The order of paths. -/
def compare (p q : Path) : Ordering :=
  List.compareLex Component.compare p.components q.components

/-- The same path, perhaps in another spelling. -/
def same (p q : Path) : Bool :=
  p.components == q.components

/-- The paths in their order, each once, in the spelling that was given first. -/
def sortUnique (paths : List Path) : List Path :=
  (paths.mergeSort fun p q => (p.compare q).isLE).foldr keepFirst []
where
  /-- Puts a path in front of paths that are greater or the same. -/
  keepFirst (p : Path) (rest : List Path) : List Path :=
    match rest with
    | [] => [p]
    | q :: qs => if p.same q then p :: qs else p :: q :: qs

/-! ## Directories and names -/

/-- The path of a name in a directory. -/
def join (base : Path) (name : String) : Path :=
  match base.text.toList.getLast? with
  | none | some '/' => ⟨base.text ++ name⟩
  | some _ => ⟨base.text ++ "/" ++ name⟩

/-- A path in reverse without the slashes and the lone dots at its end; what the path starts with
stays. -/
def trimReversed : List Char → List Char
  | ['.', '/'] => ['/']
  | '/' :: c :: cs => trimReversed (c :: cs)
  | '.' :: '/' :: c :: cs => trimReversed (c :: cs)
  | cs => cs

/-- The directory of a file; the directory of a bare name is the empty path. -/
def parent (p : Path) : Path :=
  ⟨String.ofList
    (trimReversed ((trimReversed p.text.toList.reverse).dropWhile (· != '/'))).reverse⟩

/-- The name ends in `.java` and has something before it. -/
def isJava (p : Path) : Bool :=
  match p.components.getLast? with
  | some (.named name) =>
    match Text.cut? (· == '.') name.toList.reverse with
    | some (ending, _ :: _) => ending == ['a', 'v', 'a', 'j']
    | _ => false
  | _ => false

end Path

end JavaLint
