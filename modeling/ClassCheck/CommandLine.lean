import ClassCheck.Compile
import ClassCheck.Diagnostic.Render
import ClassCheck.Text.Align
import ClassCheck.Text.Unicode
import ClassCheck.Text.Visible

/-!
# The command line

Each file is compiled on its own. Reports go to standard output, everything else to standard error.
-/

namespace ClassCheck.CommandLine

/-! ## Options -/

structure Options where
  files : List String
  listings : Listings
  verbose : Bool
  deriving DecidableEq

inductive UsageError where
  | unknownFlag (flag : String)
  | noFiles
  deriving DecidableEq

def UsageError.message : UsageError → String
  | .unknownFlag flag => "error: unexpected argument '" ++ flag ++ "' found"
  | .noFiles => "error: no files given"

/-- Flags may stand anywhere before `--`; all that is no flag is a file. -/
def readArgs (o : Options) : List String → Except UsageError Options
  | [] => .ok o
  | "--" :: args => .ok { o with files := o.files ++ args }
  | "--dump-ast" :: args => readArgs { o with listings.tree := true } args
  | "--dump-tokens" :: args => readArgs { o with listings.tokens := true } args
  | "-v" :: args | "--verbose" :: args => readArgs { o with verbose := true } args
  | arg :: args =>
    if arg.startsWith "-" && arg != "-" then .error (.unknownFlag arg)
    else readArgs { o with files := o.files ++ [arg] } args

def Options.ofArgs (args : List String) : Except UsageError Options := do
  let o ← readArgs ⟨[], Listings.none, false⟩ args
  if o.files.isEmpty then .error .noFiles else .ok o

/-! ## The log -/

/-- The most detailed level that a name asks for. Nothing is logged for `off` or an unknown name. -/
def levelNamed? (name : String) : Option LogLevel :=
  match name.toLower with
  | "error" => some .error
  | "warn" => some .warn
  | "info" => some .info
  | "debug" => some .debug
  | "trace" => some .trace
  | _ => none

/-- What to log: `-v` wins over the level that the environment names. -/
def logLimit (verbose : Bool) (named : Option String) : Option LogLevel :=
  if verbose then some .debug
  else
    match named with
    | some name => levelNamed? name
    | none => some .error

def levelText : LogLevel → String
  | .error => "ERROR"
  | .warn => "WARN"
  | .info => "INFO"
  | .debug => "DEBUG"
  | .trace => "TRACE"

/-- How output looks: with or without colour, which records are logged, and the time shown in
them. -/
structure Style where
  color : Bool
  logLimit : Option LogLevel
  time : String
  deriving DecidableEq

/-- The lines of a message stand below one another, indented from the second on. -/
def messageText (message : String) : String :=
  "\n    ".intercalate ((Source.splitLines message.toList).map String.ofList)

/-- A record as plain text: a file's name may hold terminal codes. -/
def recordText (time : String) (r : LogRecord) : String :=
  Text.visible ("[" ++ time ++ " " ++ Text.alignLeft 5 (levelText r.level) ++ " " ++ r.step.path ++
    "] " ++ messageText r.message ++ "\n")

def entryText (style : Style) : LogEntry → String
  | .listing title lines => Diagnostic.unlines (title :: lines ++ [""])
  | entry =>
    match style.logLimit.bind (LogEntry.record? · entry) with
    | some r => recordText style.time r
    | none => ""

/-! ## Files -/

/-- Why a file cannot be read. -/
inductive ReadError where
  | missing
  | directory
  | notText
  | other (reason : String)
  deriving DecidableEq

def ReadError.message : ReadError → String
  | .missing => "No such file or directory (os error 2)"
  | .directory => "Is a directory (os error 21)"
  | .notText => "stream did not contain valid UTF-8"
  | .other reason => reason

/-- What is written for one file, and whether it was accepted. -/
structure FileOutput where
  accepted : Bool
  out : String
  err : String
  deriving DecidableEq

def alarm (style : Style) (text : String) : String := Ink.paint style.color ⟨.red, true⟩ text

/-- A number of things, which are called `noun`. -/
def counted (n : Nat) (noun : String) : String :=
  toString n ++ " " ++ noun ++ if n = 1 then "" else "s"

def diagnosticsText (style : Style) (ds : List Diagnostic) : String :=
  Diagnostic.unlines (ds.map (Diagnostic.render style.color)) ++
    alarm style (counted (Diagnostic.errorCount ds) "error") ++ " generated\n"

def compileFile (style : Style) (listings : Listings) (file : String) :
    Except ReadError String → FileOutput
  | .error e =>
    let reason := ": could not read file '" ++ file ++ "': " ++ e.message
    ⟨false, "", alarm style "error" ++ reason ++ "\n"⟩
  | .ok text =>
    let source : Source := ⟨file, text⟩
    let compiled := source.compile listings
    let log := String.join (compiled.entries.map (entryText style))
    match compiled.outcome with
    | .ok report => ⟨true, report, log⟩
    | .error e => ⟨false, "", log ++ diagnosticsText style (e.diagnostics source)⟩

/-- The last line, if `failed` of `total` files were not accepted. -/
def summary (style : Style) (failed total : Nat) : String :=
  if failed = 0 then ""
  else "\n" ++ alarm style (toString failed ++ " of " ++ counted total "file" ++ " failed") ++ "\n"

structure Response where
  exitCode : Nat
  out : String
  err : String
  deriving DecidableEq

/-- Compiles files, each given by its name and by what reading it gave. -/
def respond (style : Style) (listings : Listings)
    (files : List (String × Except ReadError String)) : Response :=
  let outputs := files.map fun (file, text) => compileFile style listings file text
  let failed := outputs.countP (!·.accepted)
  { exitCode := if failed = 0 then 0 else 1
    out := String.join (outputs.map (·.out))
    err := String.join (outputs.map (·.err)) ++ summary style failed files.length }

end ClassCheck.CommandLine
