import JavaLint.Targets
import JavaLint.Text.Graphic
import JavaLint.Text.Number
import JavaLint.Verdict.Report

/-!
# Reviews

A review analyzes every Java file that the options ask for and reports what it finds: one line for
each finding, in the form that editors understand, or one JSON object for each file.  A file that
cannot be analyzed is reported in its place and does not stop the review.
-/

namespace JavaLint

/-- Reads and analyzes a file. -/
def FileTable.analyze (t : FileTable) (path : Path) (settings : Settings) :
    Except Failure Analysis :=
  match t.read path with
  | .error problem => .error (.sourceUnread path problem)
  | .ok source => (analyzeSource source settings).mapError (.sourceRefused path)

/-- What a review has found. -/
structure Review where
  options : Options
  settings : Settings
  roots : List Path
  /-- The directory beneath which the log is kept. -/
  base : Path
  /-- Every file with what came of its analysis. -/
  results : List (Path × Except Failure Analysis)

namespace Review

/-- Carries out a review. -/
def conduct (t : FileTable) (options : Options) : Except Failure Review := do
  let settings ← options.settings t
  let roots ← options.roots t
  let files := t.javaFiles options.excluded roots
  return {
    options := options
    settings := settings
    roots := roots
    base := t.baseDir roots
    results := files.map fun file => (file, t.analyze file settings) }

/-! ## Counts -/

/-- The analyses that succeeded. -/
def analyses (r : Review) : List Analysis :=
  r.results.filterMap fun result => result.2.toOption

/-- The number of findings in all files. -/
def findingCount (r : Review) : Nat :=
  r.analyses.foldl (fun count a => count + a.verdict.violationCount) 0

/-- The number of files with findings. -/
def failedCount (r : Review) : Nat :=
  r.analyses.countP fun a => !a.passed

/-- The number of files that could not be analyzed. -/
def unreadCount (r : Review) : Nat :=
  r.results.length - r.analyses.length

/-- Nothing was found and every file was analyzed. -/
def isClean (r : Review) : Bool :=
  r.failedCount == 0 && r.unreadCount == 0

/-! ## The report -/

/-- A message about a line of a file. -/
def place (file : Path) (line : Nat) (message : String) : String :=
  file.text ++ ":" ++ toString line ++ ": " ++ message

/-- The line about a finding; what is about no line is put on the first. -/
def findingLine (file : Path) (f : Finding) : String :=
  place file (max f.line 1)
    ("warning: [" ++ f.category.name ++ "/" ++ f.rule ++ "] " ++ f.message)

/-- The findings from the top of the file to its end. -/
def sorted (findings : List Finding) : List Finding :=
  findings.mergeSort fun a b =>
    a.line < b.line || (a.line == b.line && a.column ≤ b.column)

/-- The report on a file as a JSON object. -/
def fileJson (file : Path) (a : Analysis) : Json :=
  .object [("file", .string file.text), ("passed", .bool a.passed),
    ("findings", .list Finding.toJson (sorted a.findings)), ("verdict", a.verdict.toJson)]

/-- The lines about a file. -/
def fileLines (json : Bool) : Path × Except Failure Analysis → List String
  | (file, .error failure) => [place file 1 ("error: " ++ failure.message)]
  | (file, .ok a) =>
    if json then [(fileJson file a).write] else (sorted a.findings).map (findingLine file)

/-- The directory of the log in the base directory. -/
def logDir : String := "analyses"

/-- The name of the log. -/
def logName : String := "javastyle-review.log"

/-- The path of the log. -/
def logPath (r : Review) : Path :=
  (r.base.join logDir).join logName

/-- The lines before the findings: when the review was `started`, and what it is about. -/
def header (r : Review) (started : String) : List String :=
  ["Java Style Review", "=================", "", "Started: " ++ started] ++
  r.roots.map (fun root => "Path: " ++ root.text) ++
  (if r.options.excluded.isEmpty then []
    else ["Excluding: " ++ Text.quotedList r.options.excluded]) ++
  ["Identifier length: " ++ toString r.settings.minNameLength ++ "..=" ++
      toString r.settings.maxNameLength ++ ", line width: " ++ toString r.settings.maxLineWidth,
    "Logging to: " ++ r.logPath.text, "",
    "Checking " ++ Text.grouped r.results.length ++ " files...", ""]

/-- The line above and below the summary. -/
def rule : String :=
  String.ofList (List.replicate 64 '═')

/-- The lines after the findings. -/
def summary (r : Review) : List String :=
  ["", rule,
    "Summary: " ++ Text.grouped r.findingCount ++ " findings, " ++ Text.grouped r.failedCount ++
      " files failed, " ++ Text.grouped r.unreadCount ++ " files not analyzed (checked " ++
      Text.grouped r.results.length ++ " files)",
    rule]

/-- The report of a review that was `started` at some time. -/
def lines (r : Review) (started : String) : List String :=
  (if r.options.quiet || r.options.json then [] else r.header started) ++
  r.results.flatMap (fileLines r.options.json) ++
  (if r.options.json then [] else r.summary)

/-- The report as one text. -/
def text (r : Review) (started : String) : String :=
  String.join ((r.lines started).map (· ++ "\n"))

/-- The code with which the program ends. -/
def exitCode (r : Review) : Nat :=
  if r.isClean then 0 else 1

/-! ## The log -/

/-- The place of the log, unless something else is in its way. -/
def logPlace? (t : FileTable) (r : Review) : Option (List String) :=
  match t.resolve (r.base.join ".") with
  | .error _ => none
  | .ok place =>
    let dir := place ++ [logDir]
    match t.entry? dir, t.entry? (dir ++ [logName]) with
    | some (.file _), _ => none
    | _, some .directory => none
    | _, _ => some (dir ++ [logName])

end Review

end JavaLint
