import ClassCheck.Proofs.Grammar.Reading
import ClassCheck.Proofs.SameTokens

/-!
# Where a compilation stops

A source is scanned, read and analyzed. The first phase that finds an error ends the compilation, and all
diagnostics come from it: their codes tell which one it was. Main statement: a compilation comes out well
without any diagnostic, or it fails with diagnostics of one phase.

Reading has two ways to fail, a report and a program that is not there. The second one never comes alone: a
reader that gives up has said why.
-/

namespace ClassCheck

/-! ## Codes -/

/-- Whether a code is `E`, the digit of the family and two more digits. -/
def isCodeOf (family : Char) (code : String) : Bool :=
  match code.toList with
  | ['E', digit, tens, ones] => digit == family && tens.isDigit && ones.isDigit
  | _ => false

theorem isCodeOf_inj {family family' : Char} {code : String} (h : isCodeOf family code = true)
    (h' : isCodeOf family' code = true) : family = family' := by
  unfold isCodeOf at h h'
  split at h
  · simp_all
  · simp at h

theorem LexicalCause.isCodeOf_code (cause : LexicalCause) : isCodeOf '0' cause.code = true := by
  cases cause <;> simp [isCodeOf, code]

theorem SyntaxError.isCodeOf_code (e : SyntaxError) : isCodeOf '1' e.code = true := by
  unfold code
  cases e.expected <;> simp [isCodeOf]

theorem SemanticCause.isCodeOf_code (cause : SemanticCause) :
    isCodeOf '2' cause.code = true ∨ isCodeOf '3' cause.code = true := by
  cases cause <;> simp [isCodeOf, code]

/-- An error whose code is of this family. -/
def Diagnostic.IsErrorOf (family : Char) (d : Diagnostic) : Prop :=
  d.level = .error ∧ isCodeOf family d.code = true

/-! ## Phases -/

inductive Phase where
  | scanning
  | reading
  | analysis
  deriving DecidableEq

/-- What is read in a source, and the reader at the end. -/
def Source.reading [Alphabet] (source : Source) : Option Program × Reader :=
  (Reader.ofTokens (scan source.text).tokens).readProgram

namespace Phase

/-- The phase finds an error in the source, and those before it find none. -/
def Stops [Alphabet] (source : Source) : Phase → Prop
  | .scanning => (scan source.text).errors ≠ []
  | .reading => (scan source.text).errors = [] ∧ source.reading.2.errors ≠ []
  | .analysis =>
    (scan source.text).errors = [] ∧ source.reading.2.errors = [] ∧
      ∃ p e, source.reading.1 = some p ∧ p.analyze.outcome = .error e

/-- What the phase shows if it stops: errors of its own family, and after the only error of the analysis a
note. -/
def Shows : Phase → List Diagnostic → Prop
  | .scanning, ds => ds ≠ [] ∧ ∀ d ∈ ds, d.IsErrorOf '0'
  | .reading, ds => ds ≠ [] ∧ ∀ d ∈ ds, d.IsErrorOf '1'
  | .analysis, ds =>
    ∃ d note, ds = [d, note] ∧ (d.IsErrorOf '2' ∨ d.IsErrorOf '3') ∧ note.level = .note ∧
      note.code = "N001"

/-- The families of the codes of a phase. -/
def families : Phase → List Char
  | .scanning => ['0']
  | .reading => ['1']
  | .analysis => ['2', '3']

theorem eq_of_mem_families {phase phase' : Phase} {family : Char} (h : family ∈ phase.families)
    (h' : family ∈ phase'.families) : phase = phase' := by
  cases phase <;> cases phase' <;> simp_all [families]

theorem exists_head {ds : List Diagnostic} {family : Char}
    (h : ds ≠ [] ∧ ∀ d ∈ ds, d.IsErrorOf family) : ∃ d rest, ds = d :: rest ∧ d.IsErrorOf family := by
  obtain ⟨hne, hall⟩ := h
  obtain ⟨d, rest, rfl⟩ := List.exists_cons_of_ne_nil hne
  exact ⟨d, rest, rfl, hall d List.mem_cons_self⟩

theorem Shows.head {phase : Phase} {ds : List Diagnostic} (h : phase.Shows ds) :
    ∃ d rest, ds = d :: rest ∧ ∃ family ∈ phase.families, d.IsErrorOf family := by
  cases phase with
  | scanning | reading => simpa [families] using exists_head h
  | analysis =>
    obtain ⟨d, note, rfl, hd, -⟩ := h
    refine ⟨d, [note], rfl, ?_⟩
    simpa [families] using hd

theorem Shows.unique {phase phase' : Phase} {ds : List Diagnostic} (h : phase.Shows ds)
    (h' : phase'.Shows ds) : phase = phase' := by
  obtain ⟨d, rest, rfl, family, hfamily, -, hcode⟩ := h.head
  obtain ⟨d', rest', heq, family', hfamily', -, hcode'⟩ := h'.head
  obtain ⟨rfl, -⟩ := List.cons.inj heq
  obtain rfl := isCodeOf_inj hcode hcode'
  exact eq_of_mem_families hfamily hfamily'

end Phase

/-! ## Giving up is reported -/

namespace Reader

/-- Without its main class there is no program, and the reader has reported what is wrong with it. -/
theorem errors_ne_nil_of_none {r r' : Reader} (hlost : r.lost = false)
    (h : r.readProgram = (none, r')) : r'.errors ≠ [] := by
  cases hp : MainClass.parse r.rest with
  | ok x =>
    rw [readProgram_of_ok hp] at h
    cases h
  | error s =>
    rw [readProgram_of_error hp] at h
    cases h
    have hstays := errors_readClassesWithin (r.note s).recover.rest.length (r.note s).recover
    intro hnil
    rw [readClasses] at hnil
    rw [hnil, List.prefix_nil] at hstays
    exact errors_note_ne_nil hlost s hstays

theorem verdict_of_program {reading : Option Program × Reader} {p : Program} (hp : reading.1 = some p)
    (h : reading.2.errors = []) : verdict reading = .ok p := by
  rcases reading with ⟨_ | p', r⟩
  · cases hp
  · obtain rfl := Option.some.inj hp
    exact if_pos h

theorem verdict_of_errors {reading : Option Program × Reader} (h : reading.2.errors ≠ []) :
    verdict reading = .error (.grammar reading.2.errors) := by
  rcases reading with ⟨_ | p, r⟩
  · rfl
  · exact if_neg h

end Reader

theorem Source.exists_program_of_errors_nil [Alphabet] {source : Source} (h : source.reading.2.errors = []) :
    ∃ p, source.reading.1 = some p := by
  cases hp : source.reading.1 with
  | some p => exact ⟨p, rfl⟩
  | none =>
    have hreading : source.reading = (none, source.reading.2) := Prod.ext hp rfl
    exact absurd h (Reader.errors_ne_nil_of_none rfl hreading)

theorem Source.outcome_compile_of_program [Alphabet] {source : Source} {p : Program}
    (hscan : (scan source.text).errors = []) (hread : source.reading.2.errors = [])
    (hp : source.reading.1 = some p) (listings : Listings) :
    (source.compile listings).outcome = p.report := by
  rw [outcome_compile hscan, compileTokens]
  change Reader.verdict source.reading >>= _ = _
  rw [Reader.verdict_of_program hp hread]
  rfl

theorem Source.clean_or_stops [Alphabet] (source : Source) :
    ((scan source.text).errors = [] ∧ source.reading.2.errors = [] ∧
      ∃ p t, source.reading.1 = some p ∧ p.analyze.outcome = .ok t) ∨
    ∃ phase : Phase, phase.Stops source := by
  by_cases hscan : (scan source.text).errors = []
  · by_cases hread : source.reading.2.errors = []
    · obtain ⟨p, hp⟩ := exists_program_of_errors_nil hread
      cases hanalyze : p.analyze.outcome with
      | ok t => exact .inl ⟨hscan, hread, p, t, hp, hanalyze⟩
      | error e => exact .inr ⟨.analysis, hscan, hread, p, e, hp, hanalyze⟩
    · exact .inr ⟨.reading, hscan, hread⟩
  · exact .inr ⟨.scanning, hscan⟩

/-! ## What each phase shows -/

namespace Phase

variable {source : Source}

theorem shows_lexical {errors : List LexicalError} (h : errors ≠ []) :
    scanning.Shows ((CompileError.lexical errors).diagnostics source) := by
  refine ⟨by simpa [CompileError.diagnostics] using h, List.forall_mem_map.2 fun e _ => ?_⟩
  exact ⟨rfl, e.cause.isCodeOf_code⟩

theorem shows_grammar {errors : List SyntaxError} (h : errors ≠ []) :
    reading.Shows ((CompileError.grammar errors).diagnostics source) := by
  refine ⟨by simpa [CompileError.diagnostics] using h, List.forall_mem_map.2 fun e _ => ?_⟩
  exact ⟨rfl, e.isCodeOf_code⟩

theorem shows_semantic (e : SemanticError) :
    analysis.Shows ((CompileError.semantic e).diagnostics source) := by
  refine ⟨_, _, rfl, ?_, rfl, rfl⟩
  exact e.cause.isCodeOf_code.imp (⟨rfl, ·⟩) (⟨rfl, ·⟩)

theorem Stops.shows [Alphabet] {phase : Phase} (h : phase.Stops source) (listings : Listings) :
    ∃ e, (source.compile listings).outcome = .error e ∧ phase.Shows (e.diagnostics source) := by
  cases phase with
  | scanning =>
    refine ⟨_, ?_, shows_lexical h⟩
    unfold Stops at h
    simp only [Source.compile, Source.analyze, Logged.outcome_bind, Source.outcome_parse, h, ne_eq,
      not_false_eq_true, if_true]
    rfl
  | reading =>
    obtain ⟨hscan, hread⟩ := h
    refine ⟨_, ?_, shows_grammar hread⟩
    rw [Source.outcome_compile hscan, compileTokens]
    change Reader.verdict source.reading >>= _ = _
    rw [Reader.verdict_of_errors hread]
    rfl
  | analysis =>
    obtain ⟨hscan, hread, p, e, hp, he⟩ := h
    refine ⟨_, ?_, shows_semantic e⟩
    rw [Source.outcome_compile_of_program hscan hread hp, Program.report, he]
    rfl

end Phase

/-- A compilation comes out well only if no phase has found anything. Otherwise it fails in one phase, with
diagnostics that only this phase shows: one or more errors of the scan, one or more errors of the reader, or
an error of the analysis and a note. So there is always an error among them. -/
theorem Source.compile_stops_at_first_phase [Alphabet] (source : Source) (listings : Listings) :
    (∃ report, (source.compile listings).outcome = .ok report ∧ (scan source.text).errors = [] ∧
      source.reading.2.errors = [] ∧
      ∃ p t, source.reading.1 = some p ∧ p.analyze.outcome = .ok t ∧ report = t.reportText) ∨
    ∃ (e : CompileError) (phase : Phase), (source.compile listings).outcome = .error e ∧
      phase.Stops source ∧ phase.Shows (e.diagnostics source) ∧
      (∀ other : Phase, other.Shows (e.diagnostics source) → other = phase) ∧
      ∃ d ∈ e.diagnostics source, d.level = .error := by
  rcases source.clean_or_stops with ⟨hscan, hread, p, t, hp, ht⟩ | ⟨phase, hstops⟩
  · refine .inl ⟨t.reportText, ?_, hscan, hread, p, t, hp, ht, rfl⟩
    rw [outcome_compile_of_program hscan hread hp, Program.report, ht]
    rfl
  · obtain ⟨e, hout, hshows⟩ := hstops.shows listings
    obtain ⟨d, rest, hds, -, -, hlevel, -⟩ := hshows.head
    refine .inr ⟨e, phase, hout, hstops, hshows, fun other hother => hother.unique hshows, d, ?_, hlevel⟩
    simp [hds]

end ClassCheck
