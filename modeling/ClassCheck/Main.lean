import ClassCheck.CommandLine
import Std.Time

/-! # The program

Reads the files named on the command line and writes what `CommandLine.respond` says.
-/

namespace ClassCheck

open CommandLine

/-- The text of a file, or why it cannot be read. -/
def readText (file : String) : IO (Except ReadError String) := do
  try
    let bytes ← IO.FS.readBinFile file
    match String.fromUTF8? bytes with
    | some text => return .ok text
    | none => return .error .notText
  catch e =>
    match e with
    | .noFileOrDirectory .. => return .error .missing
    | .inappropriateType .. | .illegalOperation .. => return .error .directory
    | other => return .error (.other (toString other))

/-- Whether a variable of the environment is set, and not to zero. -/
def isSwitchedOn (name : String) : IO Bool := do
  match ← IO.getEnv name with
  | none => return false
  | some value => return value != "0"

/-- Colour is for terminals, but the environment can ask for it or against it. -/
def wantsColor : IO Bool := do
  if ← isSwitchedOn "CLICOLOR_FORCE" then return true
  else if (← IO.getEnv "NO_COLOR").isSome then return false
  else (← IO.getStdout).isTty

def clockText : IO String := do
  let now ← Std.Time.Timestamp.now
  let utc := Std.Time.DateTime.ofTimestamp now Std.Time.TimeZone.ZoneRules.UTC
  return utc.format "uuuu-MM-dd'T'HH:mm:ss'Z'"

def runProgram (args : List String) : IO UInt32 := do
  match Options.ofArgs args with
  | .error e =>
    IO.eprintln e.message
    return 2
  | .ok o =>
    let limit := logLimit o.verbose (← IO.getEnv "RUST_LOG")
    let style : Style := ⟨← wantsColor, limit, ← clockText⟩
    let files ← o.files.mapM fun file => return (file, ← readText file)
    let response := respond style o.listings files
    IO.print response.out
    IO.eprint response.err
    return response.exitCode.toUInt32

end ClassCheck

def main (args : List String) : IO UInt32 := ClassCheck.runProgram args
