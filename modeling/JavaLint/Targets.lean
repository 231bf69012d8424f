import JavaLint.Failure
import JavaLint.Options

/-!
# What is reviewed, and by which settings

The options name files and directories, the roots of the review.  Beneath a directory every Java
file counts, except in directories that hold the products of a build or the records of version
control, and except where the user excludes it; a file that is named itself always counts.
-/

namespace JavaLint

namespace Options

/-- The settings in the file that the options name, or else the defaults. -/
def fileSettings (o : Options) (t : FileTable) : Except Failure Settings :=
  match o.settingsFile with
  | none => .ok {}
  | some path =>
    match t.read path with
    | .error problem => .error (.settingsUnread path problem)
    | .ok text => (Settings.ofText text).mapError (.settingsRefused path)

/-- The settings with the limits that the options give. -/
def override (o : Options) (s : Settings) : Settings :=
  { s with
    minNameLength := o.minNameLength.getD s.minNameLength
    maxNameLength := o.maxNameLength.getD s.maxNameLength
    maxLineWidth := o.maxLineWidth.getD s.maxLineWidth }

/-- The settings of a review. -/
def settings (o : Options) (t : FileTable) : Except Failure Settings := do
  let s ← o.fileSettings t
  (o.override s).validate.mapError .options

/-- The files and directories that the options name: files, then directories, then what may be
either; the home directory if nothing is named. -/
def roots (o : Options) (t : FileTable) : Except Failure (List Path) := do
  let files ← o.files.mapM fun p => if t.isFile p then .ok p else .error (.notFile p)
  let dirs ← o.dirs.mapM fun p => if t.isDirectory p then .ok p else .error (.notDirectory p)
  let paths ← o.paths.mapM fun p => if (t.find? p).isSome then .ok p else .error (.notFound p)
  match files ++ dirs ++ paths with
  | [] => return [t.homePath]
  | named => return named

end Options

namespace FileTable

/-- The directory of the first root, or the first root itself if it is a directory. -/
def baseDir (t : FileTable) : List Path → Path
  | [] => t.homePath
  | root :: _ => if t.isFile root then root.parent else root

/-- Texts of paths beneath which nothing is reviewed. -/
def skipped : List String :=
  ["/target/", "/build/", "/.git/"]

/-- The path holds one of the texts. -/
def isSkipped (texts : List String) (p : Path) : Bool :=
  texts.any fun text => Text.contains text.toList p.text.toList

/-- The Java files of a root. -/
def javaFilesOf (t : FileTable) (excluded : List String) (root : Path) : List Path :=
  match t.resolve root with
  | .error _ => []
  | .ok place =>
    match t.entry? place with
    | some (.file _) => [root].filter Path.isJava
    | some .directory =>
      ((t.filesBeneath place).map fun names => names.foldl Path.join root).filter fun p =>
        p.isJava && !isSkipped (excluded ++ skipped) p
    | none => []

/-- The Java files of all roots, in the order of paths and each once. -/
def javaFiles (t : FileTable) (excluded : List String) (roots : List Path) : List Path :=
  Path.sortUnique (roots.flatMap (t.javaFilesOf excluded))

end FileTable

end JavaLint
