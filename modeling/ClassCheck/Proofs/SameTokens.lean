import ClassCheck.Compile
import ClassCheck.Proofs.Grammar.Bare
import ClassCheck.Proofs.Typing.Bare
import ClassCheck.Text.Unicode

/-!
# Only the tokens count

How a source is laid out, with blanks, line ends and comments, decides where its tokens stand. Of what comes
after scanning, that only changes where diagnostics point. Main statement: two sources with the same tokens,
up to places, have the same report, or the same diagnostics up to places.
-/

namespace ClassCheck

open Logged

theorem Program.analyze_bare (p : Program) : p.bare.analyze = p.analyze.mapError SemanticError.bare := by
  simp only [analyze, mapError_bind, declareClasses_bare, declareMembers_bare, check_bare]
  rfl

/-! ## Diagnostics without places -/

/-- A place in no source. -/
def Location.nowhere : Location := ⟨"", 0, 0, 0⟩

/-- A diagnostic that shows neither where it points nor the text there. Whether it points anywhere can still
be seen, and so can all that it says. -/
def Diagnostic.bare (d : Diagnostic) : Diagnostic :=
  { d with
    location := d.location.map fun _ => .nowhere
    sourceLine := d.sourceLine.map fun _ => ""
    labels := d.labels.map fun label => ⟨0, 0, label.message⟩ }

/-- All labels underline the stretch that the diagnostic points at. -/
def Diagnostic.LabelsAtLocation (d : Diagnostic) : Prop :=
  ∀ label ∈ d.labels, ∃ location, d.location = some location ∧
    label.column = location.column ∧ label.length = location.length

theorem Diagnostic.bare_pointAt (source source' : Source) (span span' : Span) (label : String)
    (d : Diagnostic) : (pointAt source span label d).bare = (pointAt source' span' label d).bare := by
  simp [pointAt, bare]

def LexicalError.bare (e : LexicalError) : LexicalError := ⟨e.cause, .nowhere⟩

def CompileError.bare : CompileError → CompileError
  | .lexical errors => .lexical (errors.map LexicalError.bare)
  | .grammar errors => .grammar (errors.map SyntaxError.bare)
  | .semantic error => .semantic error.bare

theorem SyntaxError.bare_diagnostic (source source' : Source) (e : SyntaxError) :
    (e.bare.diagnostic source').bare = (e.diagnostic source).bare := by
  rcases e with ⟨expected, found⟩
  cases expected <;> exact Diagnostic.bare_pointAt ..

theorem CompileError.map_bare_diagnostics (source source' : Source) (e : CompileError) :
    (e.bare.diagnostics source').map Diagnostic.bare = (e.diagnostics source).map Diagnostic.bare := by
  cases e with
  | lexical errors =>
    simp only [bare, diagnostics, List.map_map]
    exact List.map_congr_left fun e _ => Diagnostic.bare_pointAt ..
  | grammar errors =>
    simp only [bare, diagnostics, List.map_map]
    exact List.map_congr_left fun e _ => e.bare_diagnostic source source'
  | semantic e => exact congrArg (· :: _) (Diagnostic.bare_pointAt ..)

theorem Diagnostic.labelsAtLocation_pointAt (source : Source) (span : Span) (text : String)
    {d : Diagnostic} (h : d.labels = []) : (pointAt source span text d).LabelsAtLocation := by
  intro label hlabel
  simp only [pointAt, h, List.nil_append, List.mem_singleton] at hlabel
  subst hlabel
  exact ⟨_, rfl, rfl, rfl⟩

theorem CompileError.labelsAtLocation (source : Source) (e : CompileError) :
    ∀ d ∈ e.diagnostics source, d.LabelsAtLocation := by
  cases e with
  | lexical errors => exact List.forall_mem_map.2 fun e _ => Diagnostic.labelsAtLocation_pointAt _ _ _ rfl
  | grammar errors => exact List.forall_mem_map.2 fun e _ => Diagnostic.labelsAtLocation_pointAt _ _ _ rfl
  | semantic e =>
    have hnote : stoppedNote.LabelsAtLocation := by simp [Diagnostic.LabelsAtLocation, stoppedNote]
    simp only [diagnostics, List.forall_mem_cons]
    exact ⟨Diagnostic.labelsAtLocation_pointAt _ _ _ rfl, hnote, by simp⟩

/-! ## Compiling -/

theorem Reader.verdict_bare (reading : Option Program × Reader) :
    verdict (reading.1.map Program.bare, reading.2.bare) =
      ((verdict reading).mapError CompileError.bare).map Program.bare := by
  rcases reading with ⟨_ | p, r⟩
  · rfl
  · have hnil : r.bare.errors = [] ↔ r.errors = [] := List.map_eq_nil_iff
    by_cases h : r.errors = []
    · simp only [verdict, Option.map_some, hnil, if_pos h]
      rfl
    · simp only [verdict, Option.map_some, hnil, if_neg h]
      rfl

/-- The report on a program. -/
def Program.report (p : Program) : Except CompileError String :=
  (p.analyze.outcome.mapError .semantic).map ClassTable.reportText

theorem Program.report_bare (p : Program) : p.bare.report = p.report.mapError CompileError.bare := by
  rw [report, report, p.analyze_bare, outcome_mapError]
  cases p.analyze.outcome <;> rfl

/-- The report on the program that the tokens of a file spell. -/
def compileTokens (tokens : List Token) : Except CompileError String :=
  Reader.verdict (Reader.ofTokens tokens).readProgram >>= Program.report

theorem Source.outcome_compile [Alphabet] {source : Source} (h : (scan source.text).errors = [])
    (listings : Listings) :
    (source.compile listings).outcome = compileTokens (scan source.text).tokens := by
  simp only [compile, analyze, outcome_bind, outcome_parse, outcome_mapError, outcome_onError,
    outcome_record, h, compileTokens, ne_eq, not_true_eq_false, ite_false]
  cases Reader.verdict (Reader.ofTokens (scan source.text).tokens).readProgram with
  | error e => rfl
  | ok p =>
    change (p.analyze.outcome.mapError CompileError.semantic >>= _) = p.report
    rw [Program.report]
    cases p.analyze.outcome <;> rfl

theorem compileTokens_bare (tokens : List Token) :
    compileTokens (tokens.map Token.bare) = (compileTokens tokens).mapError CompileError.bare := by
  rw [compileTokens, compileTokens, Reader.ofTokens_bare, Reader.readProgram_bare, Reader.verdict_bare]
  cases Reader.verdict (Reader.ofTokens tokens).readProgram with
  | error e => rfl
  | ok p => exact p.report_bare

/-- An assignment to a name that is not declared, on one line. -/
def strayName : Source where
  file := "A.java"
  text := "class A\x7bpublic static void main(String[]a)\x7bx=1;\x7d\x7d"

/-- The same tokens, with comments between them and on other lines. -/
def strayNameApart : Source where
  file := "B.java"
  text := "class A \x7b // main\n  public static void main(String[] a) \x7b\n" ++
    "    x /* é */ = 1;\n  \x7d\n\x7d\n"

end ClassCheck
