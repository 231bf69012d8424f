import JavaLint.Review
import Std.Time

/-!
# The command line

The program reads the options, takes from the disk what a review with these options can look at,
carries out the review on that, prints the report and keeps a copy of it in the log.
-/

namespace JavaLint.CommandLine

/-- The content of a file on the disk. -/
def readContent (path : String) : IO (Except ReadProblem String) := do
  match ← (IO.FS.readBinFile path).toBaseIO with
  | .error (.permissionDenied ..) => return .error .denied
  | .error (.inappropriateType ..) => return .error .isDirectory
  | .error _ => return .error .notFound
  | .ok bytes =>
    match String.fromUTF8? bytes with
    | some text => return .ok text
    | none => return .error .notText

/-- Adds the Java files beneath a directory; what cannot be listed is left out. -/
partial def addBeneath (t : FileTable) (place : List String) (dir : String) : IO FileTable := do
  match ← ((← IO.currentDir) / dir).readDir.toBaseIO with
  | .error _ => return t
  | .ok entries =>
    let mut t := t
    for entry in entries do
      let spot := place ++ [entry.fileName]
      match ← entry.path.symlinkMetadata.toBaseIO with
      | .error _ => pure ()
      | .ok data =>
        if data.type == .dir then
          t ← addBeneath (t.insert spot .directory) spot entry.path.toString
        else if Path.isJava ⟨entry.fileName⟩ && !(← entry.path.isDir) then
          t := t.insert spot (.file (← readContent entry.path.toString))
    return t

/-- Adds what a path leads to on the disk. -/
def addPath (t : FileTable) (path : Path) : IO FileTable := do
  let spot := (← IO.currentDir) / path.text
  match ← spot.metadata.toBaseIO with
  | .error _ => return t
  | .ok data =>
    if data.type == .dir then
      let t := t.insertAlong path .directory
      match t.resolve path with
      | .error _ => return t
      | .ok place => addBeneath t place spot.toString
    else
      return t.insertAlong path (.file (← readContent spot.toString))

/-- What a review with these options can look at. -/
def look (options : Options) : IO FileTable := do
  let cwd : Path := ⟨(← IO.currentDir).toString⟩
  let home := cwd.components.filterMap fun
    | .named name => some name
    | _ => none
  let roots := options.files ++ options.dirs ++ options.paths
  let paths := options.settingsFile.toList ++ if roots.isEmpty then [⟨"."⟩] else roots
  paths.foldlM addPath (FileTable.empty home)

/-- The time on the clock. -/
def now : IO String := do
  return (← Std.Time.DateTime.now).format "uuuu-MM-dd HH:mm:ss xxx"

/-- Writes the log, if it can be written. -/
def writeLog (review : Review) (text : String) : IO Unit := do
  try
    IO.FS.createDirAll (review.base.join Review.logDir).text
    IO.FS.writeFile review.logPath.text text
  catch _ => pure ()

/-- Carries out a review and answers the code with which the program ends. -/
def run (options : Options) : IO Nat := do
  match Review.conduct (← look options) options with
  | .error failure =>
    for line in failure.lines do
      IO.eprintln line
    return 1
  | .ok review =>
    let text := review.text (← now)
    IO.print text
    writeLog review text
    return review.exitCode

end JavaLint.CommandLine

/-- Reviews the Java files that the words of the command line name. -/
def main (words : List String) : IO UInt32 := do
  match JavaLint.Options.ofWords words with
  | .error .helpWanted =>
    for line in JavaLint.Options.help do
      IO.println line
    return 0
  | .error e =>
    IO.eprintln ("error: " ++ e.message ++ "\n\nFor more information, try '--help'.")
    return 2
  | .ok options => return (← JavaLint.CommandLine.run options).toUInt32
