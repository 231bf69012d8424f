import JavaLint.Path
import Std.Data.TreeMap

/-!
# File tables

What the program can see of the file system: which files and directories there are, and what the
files hold.  A place is the list of names on the way down from the root.  The directories above a
place that is in the table are in the table as well.
-/

namespace JavaLint

/-- Why a file cannot be read. -/
inductive ReadProblem where
  | notFound
  /-- The way to the file leads through something that is no directory. -/
  | notDirectory
  /-- What is there is a directory. -/
  | isDirectory
  | denied
  /-- The bytes of the file are no text. -/
  | notText
deriving DecidableEq, Repr

/-- The problem in words. -/
def ReadProblem.message : ReadProblem → String
  | notFound => "No such file or directory (os error 2)"
  | notDirectory => "Not a directory (os error 20)"
  | isDirectory => "Is a directory (os error 21)"
  | denied => "Permission denied (os error 13)"
  | notText => "stream did not contain valid UTF-8"

/-- What is at a place. -/
inductive Entry where
  | file (content : Except ReadProblem String)
  | directory

/-- The files and directories that the program can see. -/
structure FileTable where
  /-- The directory from which relative paths start. -/
  home : List String
  entries : Std.TreeMap (List String) Entry := {}

namespace FileTable

/-- Adds what is at a place, and the directories above it. -/
def insert (t : FileTable) (place : List String) (entry : Entry) : FileTable :=
  let above := (List.range place.length).map place.take
  let entries := above.foldl (fun m dir => m.insert dir .directory) t.entries
  { t with entries := entries.insert place entry }

/-- The table that holds nothing but the home directory. -/
def empty (home : List String) : FileTable :=
  insert { home := home } home .directory

/-- What is at a place. -/
def entry? (t : FileTable) (place : List String) : Option Entry :=
  t.entries[place]?

/-! ## Paths -/

/-- Goes on from a place by one piece of a path. -/
def step (t : FileTable) (place : List String) (piece : List Char) :
    Except ReadProblem (List String) :=
  match t.entry? place with
  | some .directory =>
    match Path.Component.ofPiece? piece with
    | some .up => .ok place.dropLast
    | some (.named name) =>
      if (t.entry? (place ++ [name])).isSome then .ok (place ++ [name]) else .error .notFound
    | _ => .ok place
  | _ => .error .notDirectory

/-- The place that a path leads to. -/
def resolve (t : FileTable) (p : Path) : Except ReadProblem (List String) :=
  if p.text.isEmpty then .error .notFound
  else p.pieces.foldlM t.step (if p.isAbsolute then [] else t.home)

/-- Adds what a path leads to, and the directories on the way there. -/
def insertAlong (t : FileTable) (p : Path) (entry : Entry) : FileTable :=
  go t (if p.isAbsolute then [] else t.home) p.components
where
  /-- Adds what the rest of a path leads to from a place. -/
  go (t : FileTable) (place : List String) : List Path.Component → FileTable
    | [] => t.insert place entry
    | .up :: rest => go (t.insert place .directory) place.dropLast rest
    | .named name :: rest => go (t.insert place .directory) (place ++ [name]) rest
    | _ :: rest => go t place rest

/-- What a path leads to. -/
def find? (t : FileTable) (p : Path) : Option Entry :=
  match t.resolve p with
  | .error _ => none
  | .ok place => t.entry? place

/-- The path leads to a file. -/
def isFile (t : FileTable) (p : Path) : Bool :=
  match t.find? p with
  | some (.file _) => true
  | _ => false

/-- The path leads to a directory. -/
def isDirectory (t : FileTable) (p : Path) : Bool :=
  match t.find? p with
  | some .directory => true
  | _ => false

/-- The path of the home directory. -/
def homePath (t : FileTable) : Path :=
  ⟨"/" ++ "/".intercalate t.home⟩

/-- The text of the file that a path leads to. -/
def read (t : FileTable) (p : Path) : Except ReadProblem String := do
  match t.entry? (← t.resolve p) with
  | some (.file content) => content
  | some .directory => .error .isDirectory
  | none => .error .notFound

/-- The names that lead from a place down to the files beneath it. -/
def filesBeneath (t : FileTable) (place : List String) : List (List String) :=
  t.entries.toList.filterMap fun (spot, entry) =>
    match entry with
    | .file _ => if place.isPrefixOf spot then some (spot.drop place.length) else none
    | .directory => none

end FileTable

end JavaLint
