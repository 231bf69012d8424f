import JavaLint.Error
import JavaLint.FileTable
import JavaLint.Style.Settings

/-!
# Why a review fails

A failure is a cause with its surroundings: which file was being read, and what went wrong there.
`Failure.links` puts it into words, the widest surroundings first and the innermost cause last.
-/

namespace JavaLint

/-- Why a review, or the part of it that concerns one file, fails. -/
inductive Failure where
  /-- The text of settings is refused. -/
  | settings (cause : SettingsError)
  /-- The file with the settings cannot be read. -/
  | settingsUnread (path : Path) (problem : ReadProblem)
  /-- The file with the settings is refused. -/
  | settingsRefused (path : Path) (cause : SettingsError)
  /-- The settings make no sense once the options are taken in. -/
  | options (cause : SettingsError)
  /-- No naming style is called so. -/
  | unknownStyle (text : String)
  /-- A source file cannot be read. -/
  | sourceUnread (path : Path) (problem : ReadProblem)
  /-- A source file cannot be analyzed. -/
  | sourceRefused (path : Path) (cause : Error)
  /-- There is no file where one was promised. -/
  | notFile (path : Path)
  /-- There is no directory where one was promised. -/
  | notDirectory (path : Path)
  /-- There is nothing at all. -/
  | notFound (path : Path)
deriving Repr

/-- A link of the explanation of a failure. -/
inductive Link where
  | words (text : String)
  /-- The complaint of the reader of JSON. -/
  | json
  /-- The complaint of the file system. -/
  | system (problem : ReadProblem)
deriving DecidableEq, Repr

/-- The link in words. -/
def Link.message : Link → String
  | words text => text
  | json => "not the JSON form of settings"
  | system problem => problem.message

/-- The explanation of an error in settings. -/
def SettingsError.links : SettingsError → List Link
  | malformed => [.words "Failed to parse config JSON", .json]
  | lengths min max =>
    [.words ("min_identifier_length (" ++ toString min ++ ") exceeds max_identifier_length (" ++
      toString max ++ ")")]
  | noWidth => [.words "max_line_length must be positive"]

namespace Failure

/-- The explanation of a failure, with the widest surroundings first. -/
def links : Failure → List Link
  | settings cause => cause.links
  | settingsUnread path problem =>
    [.words ("Failed to read config file: " ++ path.text), .system problem]
  | settingsRefused path cause =>
    .words ("Failed to parse config file: " ++ path.text) :: cause.links
  | options cause => .words "Invalid style options" :: cause.links
  | unknownStyle text => [.words ("Unknown naming style: " ++ text)]
  | sourceUnread path problem => [.words ("Failed to read " ++ path.text), .system problem]
  | sourceRefused path cause =>
    [.words ("Failed to analyze " ++ path.text), .words cause.message]
  | notFile path => [.words ("Not a file: " ++ path.text)]
  | notDirectory path => [.words ("Not a directory: " ++ path.text)]
  | notFound path => [.words ("Path not found: " ++ path.text)]

/-- The widest surroundings in words. -/
def headline (f : Failure) : String :=
  match f.links with
  | [] => ""
  | link :: _ => link.message

/-- The whole explanation in words. -/
def message (f : Failure) : String :=
  ": ".intercalate (f.links.map Link.message)

/-- The explanation as the program ends with it: the widest surroundings on the first line, and
what lies beneath them on lines of their own. -/
def lines (f : Failure) : List String :=
  match f.links.map Link.message with
  | [] => []
  | [text] => ["Error: " ++ text]
  | [text, cause] => ["Error: " ++ text, "", "Caused by:", "    " ++ cause]
  | text :: causes =>
    ["Error: " ++ text, "", "Caused by:"] ++
      causes.zipIdx.map fun (cause, n) => "    " ++ toString n ++ ": " ++ cause

end Failure

end JavaLint
