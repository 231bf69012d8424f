import JavaLint.Path
import JavaLint.Text.Number

/-!
# Options

The words of the command line are read from left to right.  An option may have its value attached
(`--dir=src`, `-dsrc`, `-d=src`) or take the next word, unless that word looks like an option.  What
was read last is pending until the next option, switch or path begins: only then is it checked and
stored, so that of two mistakes the one that is noticed first is reported.  An attached value is
stored at once.  After `--` every word is a path.
-/

namespace JavaLint

/-! ## What can be chosen -/

/-- What the user asks for. -/
structure Options where
  /-- Files or directories. -/
  paths : List Path := []
  /-- Files. -/
  files : List Path := []
  /-- Directories. -/
  dirs : List Path := []
  /-- Paths that hold one of these texts are skipped. -/
  excluded : List String := []
  /-- The file with the settings. -/
  settingsFile : Option Path := none
  minNameLength : Option Nat := none
  maxNameLength : Option Nat := none
  maxLineWidth : Option Nat := none
  /-- Reports are written as JSON. -/
  json : Bool := false
  /-- Only findings and the summary are written. -/
  quiet : Bool := false
deriving DecidableEq, Repr

/-- The options that take a value. -/
inductive Choice where
  | file | dir | exclude | config | minLength | maxLength | lineLength
deriving DecidableEq, Repr

/-- The options without a value. -/
inductive Switch where
  | json | quiet | help
deriving DecidableEq, Repr

namespace Choice

/-- The long name of an option. -/
def word : Choice → String
  | file => "file"
  | dir => "dir"
  | exclude => "exclude"
  | config => "config"
  | minLength => "min-length"
  | maxLength => "max-length"
  | lineLength => "max-line-length"

/-- The option with a long name. -/
def ofWord? (word : String) : Option Choice :=
  [file, dir, exclude, config, minLength, maxLength, lineLength].find? fun c => c.word = word

/-- The option with a short name. -/
def ofLetter? : Char → Option Choice
  | 'f' => some file
  | 'd' => some dir
  | 'e' => some exclude
  | _ => none

end Choice

namespace Switch

/-- The long name of a switch. -/
def word : Switch → String
  | json => "json"
  | quiet => "quiet"
  | help => "help"

/-- The switch with a long name. -/
def ofWord? (word : String) : Option Switch :=
  [json, quiet, help].find? fun s => s.word = word

/-- The switch with a short name. -/
def ofLetter? : Char → Option Switch
  | 'q' => some quiet
  | 'h' => some help
  | _ => none

end Switch

/-- Why the words of the command line are not carried out. -/
inductive UsageError where
  /-- There is no such option. -/
  | unknown (word : String)
  /-- An option has no value. -/
  | noValue (choice : Choice)
  /-- A path is empty. -/
  | emptyPath
  /-- A value is no number, or too great. -/
  | notNumber (choice : Choice) (value : String)
  /-- What can be given once is given twice. -/
  | repeated (word : String)
  /-- A switch has a value. -/
  | needlessValue (switch : Switch)
  /-- This is no mistake: the user asks how to use the program. -/
  | helpWanted
deriving DecidableEq, Repr

/-- The error in words. -/
def UsageError.message : UsageError → String
  | unknown word => "unexpected argument '" ++ word ++ "' found"
  | noValue choice => "a value is required for '--" ++ choice.word ++ "' but none was supplied"
  | emptyPath => "a path must not be empty"
  | notNumber choice value =>
    "invalid value '" ++ value ++ "' for '--" ++ choice.word ++ "': not a number of 64 bits"
  | repeated word => "the argument '--" ++ word ++ "' cannot be used multiple times"
  | needlessValue switch => "unexpected value for '--" ++ switch.word ++ "'"
  | helpWanted => "help is wanted"

namespace Options

/-! ## Storing values -/

/-- A path, which must not be empty. -/
def readPath (value : String) : Except UsageError Path :=
  if value.isEmpty then .error .emptyPath else .ok ⟨value⟩

/-- The number for an option. -/
def readNumber (choice : Choice) (value : String) : Except UsageError Nat :=
  match Text.readNumber? value.toList with
  | some n => .ok n
  | none => .error (.notNumber choice value)

/-- The value of an option that can be given once, where `old` is what was stored before. -/
def once {α : Type} (choice : Choice) (old : Option α) (value : Except UsageError α) :
    Except UsageError (Option α) :=
  match old with
  | some _ => .error (.repeated choice.word)
  | none => value.map some

/-- Stores the value of an option. -/
def store (o : Options) (choice : Choice) (value : String) : Except UsageError Options :=
  match choice with
  | .file => (readPath value).map fun p => { o with files := o.files ++ [p] }
  | .dir => (readPath value).map fun p => { o with dirs := o.dirs ++ [p] }
  | .exclude => .ok { o with excluded := o.excluded ++ [value] }
  | .config =>
    (once choice o.settingsFile (readPath value)).map fun p => { o with settingsFile := p }
  | .minLength =>
    (once choice o.minNameLength (readNumber choice value)).map fun n =>
      { o with minNameLength := n }
  | .maxLength =>
    (once choice o.maxNameLength (readNumber choice value)).map fun n =>
      { o with maxNameLength := n }
  | .lineLength =>
    (once choice o.maxLineWidth (readNumber choice value)).map fun n =>
      { o with maxLineWidth := n }

/-- Turns a switch on. -/
def turnOn (o : Options) : Switch → Except UsageError Options
  | .json => if o.json then .error (.repeated "json") else .ok { o with json := true }
  | .quiet => if o.quiet then .error (.repeated "quiet") else .ok { o with quiet := true }
  | .help => .error .helpWanted

/-! ## Reading words -/

/-- What was read last and is not stored yet. -/
inductive Pending where
  | nothing
  /-- An option that waits for its value. -/
  | waiting (choice : Choice)
  /-- An option with its value. -/
  | given (choice : Choice) (value : String)
  /-- A run of paths. -/
  | paths (values : List String)
deriving DecidableEq, Repr

/-- The state of the reader. -/
structure Reading where
  options : Options := {}
  pending : Pending := .nothing
deriving DecidableEq, Repr

namespace Reading

/-- The options after what is pending is stored. -/
def settle (r : Reading) : Except UsageError Options :=
  match r.pending with
  | .nothing => .ok r.options
  | .waiting choice => .error (.noValue choice)
  | .given choice value => r.options.store choice value
  | .paths values =>
    (values.mapM readPath).map fun paths =>
      { r.options with paths := r.options.paths ++ paths }

/-- An option whose value comes next. -/
def await (r : Reading) (choice : Choice) : Except UsageError Reading :=
  r.settle.map fun o => { options := o, pending := .waiting choice }

/-- An option with its value attached. -/
def assign (r : Reading) (choice : Choice) (value : String) : Except UsageError Reading := do
  let o ← r.settle
  return { options := ← o.store choice value }

/-- A switch. -/
def turnOn (r : Reading) (switch : Switch) : Except UsageError Reading := do
  let o ← r.settle
  return { options := ← o.turnOn switch }

/-- A path. -/
def addPath (r : Reading) (word : String) : Except UsageError Reading :=
  match r.pending with
  | .paths values => .ok { r with pending := .paths (values ++ [word]) }
  | _ => r.settle.map fun o => { options := o, pending := .paths [word] }

/-- A long name, with the value that is attached to it. -/
def readLong (r : Reading) (word : String) (value : Option String) : Except UsageError Reading :=
  match Choice.ofWord? word, Switch.ofWord? word, value with
  | some choice, _, some value => r.assign choice value
  | some choice, _, none => r.await choice
  | none, some switch, none => r.turnOn switch
  | none, some switch, some _ => .error (.needlessValue switch)
  | none, none, _ => .error (.unknown ("--" ++ word))

/-- A run of short names; what follows an option in the same word is its value. -/
def readShort (r : Reading) : List Char → Except UsageError Reading
  | [] => .ok r
  | letter :: rest =>
    match Switch.ofLetter? letter, Choice.ofLetter? letter with
    | some switch, _ => do readShort (← r.turnOn switch) rest
    | none, some choice =>
      match rest with
      | [] => r.await choice
      | '=' :: value => r.assign choice (String.ofList value)
      | value => r.assign choice (String.ofList value)
    | none, none => .error (.unknown (String.ofList ['-', letter]))

/-- A word that looks like no option: the value that is waited for, or a path. -/
def readPlain (r : Reading) (word : String) : Except UsageError Reading :=
  match r.pending with
  | .waiting choice => .ok { r with pending := .given choice word }
  | _ => r.addPath word

/-- A word other than `--`. -/
def readWord (r : Reading) (word : String) : Except UsageError Reading :=
  match word.toList with
  | '-' :: '-' :: name =>
    match Text.cut? (· == '=') name with
    | some (name, value) => r.readLong (String.ofList name) (some (String.ofList value))
    | none => r.readLong (String.ofList name) none
  | '-' :: letter :: letters => r.readShort (letter :: letters)
  | _ => r.readPlain word

/-- All words. -/
def readAll (r : Reading) : List String → Except UsageError Options
  | [] => r.settle
  | "--" :: paths => do (← paths.foldlM addPath r).settle
  | word :: words => do readAll (← r.readWord word) words

end Reading

/-- The options that the words of the command line spell. -/
def ofWords (words : List String) : Except UsageError Options :=
  Reading.readAll {} words

/-! ## Help -/

/-- How to use the program. -/
def help : List String :=
  ["Review Java source files for naming, spacing, brace and doc comment style",
    "",
    "Usage: javastyle-review [OPTIONS] [PATHS]...",
    "",
    "Arguments:",
    "  [PATHS]...  Files or directories to review",
    "",
    "Options:",
    "  -f, --file <FILE>                        Review a single file",
    "  -d, --dir <DIR>                          Review every .java file under a directory",
    "  -e, --exclude <EXCLUDE>                  Skip paths containing this text (repeatable)",
    "      --config <CONFIG>                    JSON style configuration",
    "      --min-length <MIN_LENGTH>            Minimum identifier length",
    "      --max-length <MAX_LENGTH>            Maximum identifier length",
    "      --max-line-length <MAX_LINE_LENGTH>  Maximum line width in columns",
    "      --json                               " ++
      "Print one JSON report per file instead of compile-mode lines",
    "  -q, --quiet                              Only print findings and the summary",
    "  -h, --help                               Print help"]

end Options

end JavaLint
