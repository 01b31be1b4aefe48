import ClassCheck.Declare.Classes
import ClassCheck.Grammar.Recovery
import ClassCheck.Layout
import ClassCheck.Program.Outline
import ClassCheck.Report
import ClassCheck.Token.Scan
import ClassCheck.Typing

/-!
# From source text to report

A source is scanned, read, checked and laid out. An error in one step keeps the later ones from
being taken.
-/

namespace ClassCheck

/-! ## What can go wrong -/

/-- Why a source is rejected. Scanning and reading find several errors at once, checking the first
one only. -/
inductive CompileError where
  | lexical (errors : List LexicalError)
  | grammar (errors : List SyntaxError)
  | semantic (error : SemanticError)
  deriving DecidableEq

/-- The note after a semantic error. -/
def stoppedNote : Diagnostic :=
  { level := .note, code := "N001", message := "analysis stops at the first semantic error" }

def CompileError.diagnostics (source : Source) : CompileError → List Diagnostic
  | .lexical errors => errors.map (·.diagnostic source)
  | .grammar errors => errors.map (·.diagnostic source)
  | .semantic error => [error.diagnostic source, stoppedNote]

/-! ## Programs -/

/-- Checks a program and lays it out. -/
def Program.analyze (p : Program) : Logged SemanticError ClassTable := do
  let t ← p.declareClasses
  let t ← p.declareMembers t
  let t ← p.check t
  let t := t.layOut
  Logged.write t.layoutEntries
  Logged.record .debug .analyze ("analysis finished for main class '" ++ p.main.name.name ++ "'")
  return t

theorem Program.outcome_analyze (p : Program) :
    p.analyze.outcome = do
      let t ← p.declareClasses.outcome
      let t ← (p.declareMembers t).outcome
      let t ← (p.check t).outcome
      return t.layOut := by
  simp only [Program.analyze, Logged.outcome_bind, Logged.outcome_record, Logged.outcome_write,
    Logged.outcome_pure]
  rfl

/-! ## Listings -/

/-- What to list while a source is read. -/
structure Listings where
  tokens : Bool
  tree : Bool
  deriving DecidableEq

namespace Listings

def none : Listings := ⟨false, false⟩

def ofTokens (l : Listings) (tokens : List Token) : List LogEntry :=
  if l.tokens then [.listing "=== Tokens ===" (tokens.map Token.line)] else []

def ofTree (l : Listings) (program : Option Program) : List LogEntry :=
  if l.tree then [.listing "=== AST ===" (Outline.option (program.map Program.outline))] else []

end Listings

/-! ## Sources -/

/-- A program counts as read only if no error was found on the way. -/
def Reader.verdict : Option Program × Reader → Except CompileError Program
  | (some program, r) => if r.errors = [] then .ok program else .error (.grammar r.errors)
  | (none, r) => .error (.grammar r.errors)

namespace Source

/-- Scans a source and reads the program in it. -/
def parse [Alphabet] (source : Source) (listings : Listings) : Logged CompileError Program := do
  let scanned := scan source.text
  Logged.record .trace .scan ("scanned " ++ toString scanned.tokens.length ++ " tokens")
  Logged.write (listings.ofTokens scanned.tokens)
  if scanned.errors ≠ [] then Logged.fail (.lexical scanned.errors)
  let reading := (Reader.ofTokens scanned.tokens).readProgram
  Logged.write (listings.ofTree reading.1)
  let program ← Logged.silent (Reader.verdict reading)
  Logged.record .info .compile
    (source.file ++ ": parsed " ++ toString (program.classes.length + 1) ++ " classes")
  return program

theorem outcome_parse [Alphabet] (source : Source) (listings : Listings) :
    (source.parse listings).outcome =
      if (scan source.text).errors ≠ [] then .error (.lexical (scan source.text).errors)
      else Reader.verdict (Reader.ofTokens (scan source.text).tokens).readProgram := by
  simp only [parse, Logged.outcome_bind, Logged.outcome_record, Logged.outcome_write]
  by_cases h : (scan source.text).errors = []
  · simp only [h, ne_eq, not_true_eq_false, ite_false]
    cases Reader.verdict (Reader.ofTokens (scan source.text).tokens).readProgram <;> rfl
  · simp only [h, ne_eq, not_false_eq_true, ite_true]
    rfl

/-- Reads a program, checks it and lays it out. -/
def analyze [Alphabet] (source : Source) (listings : Listings) : Logged CompileError ClassTable := do
  let program ← source.parse listings
  let analyzed := program.analyze.onError fun e =>
    .record ⟨.info, .compile, source.file ++ ": semantic analysis failed with " ++ e.cause.code⟩
  analyzed.mapError .semantic

/-- The report on the program in a source. -/
def compile [Alphabet] (source : Source) (listings : Listings) : Logged CompileError String := do
  let table ← source.analyze listings
  Logged.record .info .compile (source.file ++ ": analysis succeeded")
  return table.reportText

end Source

end ClassCheck
