import ClassCheck.Proofs.Grammar.Spans
import ClassCheck.Proofs.Grammar.Stops
import ClassCheck.Proofs.Grammar.WholeFile
import ClassCheck.Proofs.Phases
import ClassCheck.Proofs.Text.Positions
import ClassCheck.Proofs.Token.Account

/-!
# Diagnostics point at the text they are about

An offset comes from the scan, and on its way to a diagnostic it goes through tokens, spans that are put
together, and the errors of three phases. Main statement: for every error of a compilation that fails, the
line, the column and the length that are shown mark a part of the source, and this part is what the error is
about.
-/

namespace ClassCheck

/-! ## What a diagnostic shows -/

/-- The diagnostic shows where the stretch begins, how long it is and the line around it, and underlines it
once. -/
structure Diagnostic.PointsAt (source : Source) (span : Span) (d : Diagnostic) : Prop where
  inside : span.stop ≤ byteSize source.text.toList
  shown : ∃ before rest, source.text.toList = before ++ rest ∧ byteSize before = span.offset ∧
    d.location = some
      ⟨source.file, before.count '\n' + 1, byteSize (Source.lastLine before) + 1, span.length⟩ ∧
    d.sourceLine = some (Source.lineAround before rest) ∧
    ∃ message, d.labels = [⟨byteSize (Source.lastLine before) + 1, span.length, message⟩]

theorem Diagnostic.pointsAt_pointAt {source : Source} {span : Span} {part : String}
    (h : span.slice? source.text = some part) {d : Diagnostic} (hd : d.labels = []) (label : String) :
    (d.pointAt source span label).PointsAt source span := by
  obtain ⟨before, after, htext, hoffset, hlength⟩ := Span.slice?_eq_some_iff.1 h
  obtain ⟨hlocate, hline⟩ := Source.locate_append htext
  rw [hoffset] at hlocate
  constructor
  · simp only [Span.stop, htext, byteSize_append]
    omega
  · refine ⟨before, part.toList ++ after, htext, hoffset, ?_, ?_, label, ?_⟩
    · simp [pointAt, hlocate, Source.positionAfter]
    · simp [pointAt, hlocate, hline]
    · simp [pointAt, hlocate, hd, Source.positionAfter]

/-! ## Text that no token can hold -/

/-- The text that is reported: what is left out, or what opens a comment. -/
def LexicalCause.text : LexicalCause → String
  | .strayCharacter c => String.singleton c
  | .openComment => "/*"
  | .badNumber text => text

theorem Piece.exists_of_mem_errorsFrom {offset : Nat} {pieces : List Piece} {e : LexicalError}
    (h : e ∈ errorsFrom offset pieces) :
    ∃ front piece back, pieces = front ++ piece :: back ∧
      piece.error? (offset + byteSize (front.flatMap text)) = some e := by
  induction pieces generalizing offset with
  | nil => cases h
  | cons piece pieces ih =>
    rw [errorsFrom_cons, List.mem_append, Option.mem_toList] at h
    rcases h with h | h
    · exact ⟨[], piece, pieces, rfl, h⟩
    · obtain ⟨front, found, back, rfl, herror⟩ := ih h
      refine ⟨piece :: front, found, back, rfl, ?_⟩
      rwa [List.flatMap_cons, byteSize_append, ← Nat.add_assoc]

theorem Piece.sound_of_split [Alphabet] {cs : List Char} {front back : List Piece} {piece : Piece}
    (h : split cs = front ++ piece :: back) : piece.Sound (back.flatMap text) := by
  have hsplit := split_texts_of_append h
  obtain ⟨d, ds, hcs, rfl, -⟩ := split_cons_iff.1 hsplit
  rw [List.flatMap_cons] at hcs
  exact sound_first hcs.symm

theorem Piece.text_of_error? {piece : Piece} {after : List Char} {offset : Nat} {e : LexicalError}
    (hsound : piece.Sound after) (h : piece.error? offset = some e) :
    e.span.offset = offset ∧ byteSize e.cause.text.toList = e.span.length ∧
      e.cause.text.toList <+: piece.text := by
  cases piece with
  | stray c =>
    obtain rfl := Option.some.inj h
    simp [LexicalCause.text, text]
  | badNumber number =>
    obtain rfl := Option.some.inj h
    simp [LexicalCause.text, text]
  | openComment comment =>
    -- The piece runs to the end of the text, but only what opens it is marked.
    obtain ⟨⟨body, rfl, -⟩, -⟩ := hsound
    obtain rfl := Option.some.inj h
    have hopen : LexicalCause.openComment.text.toList = ['/', '*'] := by simp [LexicalCause.text]
    exact ⟨rfl, congrArg byteSize hopen, body, congrArg (· ++ body) hopen⟩
  | blank | lineComment | blockComment | token => cases h

theorem LexicalError.slice? [Alphabet] {text : String} {e : LexicalError} (h : e ∈ (scan text).errors) :
    e.span.slice? text = some e.cause.text := by
  obtain ⟨front, piece, back, hpieces, herror⟩ := Piece.exists_of_mem_errorsFrom h
  obtain ⟨hoffset, hlength, more, hmore⟩ := Piece.text_of_error? (Piece.sound_of_split hpieces) herror
  refine Span.slice?_eq_some_iff.2
    ⟨front.flatMap Piece.text, more ++ back.flatMap Piece.text, ?_, ?_, hlength⟩
  · rw [← Piece.texts_split text.toList, hpieces, List.flatMap_append, List.flatMap_cons, ← hmore]
    simp
  · rw [hoffset, Nat.zero_add]

/-! ## Tokens -/

theorem Token.slice?_of_scan [Alphabet] {text : String} {t : Token}
    (h : t ∈ tokensOf text ++ [endOfFile (byteSize text.toList)]) : t.span.slice? text = some t.lexeme := by
  rcases List.mem_append.1 h with h | h
  · exact slice?_of_mem_tokensOf h
  · obtain rfl := List.mem_singleton.1 h
    exact Span.slice?_eq_some_iff.2 ⟨text.toList, [], by simp [endOfFile], rfl, rfl⟩

theorem Token.lexeme_eq_empty_iff [Alphabet] {text : String} {t : Token}
    (h : t ∈ tokensOf text ++ [endOfFile (byteSize text.toList)]) :
    t.lexeme = "" ↔ t.kind = .endOfFile := by
  rcases List.mem_append.1 h with h | h
  · have hpos := length_pos_of_mem_tokensOf h
    obtain ⟨_, _, _, _, hlength⟩ := Span.slice?_eq_some_iff.1 (slice?_of_mem_tokensOf h)
    refine iff_of_false (fun hempty => ?_) (kind_ne_endOfFile t h)
    rw [hempty] at hlength
    exact absurd hlength (Nat.ne_of_lt hpos)
  · obtain rfl := List.mem_singleton.1 h
    exact iff_of_true rfl rfl

/-! ## Names, types and expressions -/

/-- Scanned and read alone, the text is this type and nothing else, without an error. -/
def TypeRef.IsWhole [Alphabet] (text : String) (r : TypeRef) : Prop :=
  (scan text).errors = [] ∧
    ∃ reader, Routine.typeRef (Reader.ofTokens (scan text).tokens) = (some r, reader) ∧ reader.rest = [] ∧
      reader.errors = []

theorem TypeRef.isWhole_of_parse [Alphabet] {text : String} {r : TypeRef} (herrors : (scan text).errors = [])
    (h : TypeRef.parse (tokensOf text) = .ok (r, [])) : r.IsWhole text := by
  refine ⟨herrors, { rest := [], stop := Token.endOfFile (byteSize text.toList) }, ?_, rfl, rfl⟩
  rw [Reader.ofTokens_scan, Routine.refines_typeRef, Reader.read_of_ok h]

theorem TypeRef.SpelledIn.exists_part [Alphabet] {text : String} {r : TypeRef} (herrors : (scan text).errors = [])
    (h : TypeRef.SpelledIn (tokensOf text) r) :
    ∃ part r', r.span.slice? text = some part ∧ TypeRef.IsWhole part r' ∧ r'.name = r.name := by
  obtain ⟨us, hus, hspells⟩ := h
  have hcovers := hspells.covers ((inOrder_tokensOf text).sublist hus.sublist)
  obtain ⟨before, after, htokens⟩ := hus
  rw [List.append_assoc] at htokens
  obtain ⟨span, part, hspan, hslice, hpart, hpartErrors⟩ :=
    ClassCheck.exists_part htokens.symm hcovers.ne_nil
  obtain rfl := hspan.eq hcovers
  have hsay : Says (tokensOf part) r.name.words := by
    have hsaid := hspells.said
    rwa [← hpart, Said, Says, List.map_map] at hsaid
  obtain ⟨r', hparse, hbare⟩ := TypeRef.readsBack_parse r (tokensOf part) [] hsay rfl
  rw [List.append_nil] at hparse
  have hname : r'.bare.name = r.bare.name := congrArg TypeRef.name hbare
  exact ⟨part, r', hslice, isWhole_of_parse (hpartErrors herrors) hparse, hname⟩

/-- The text at the stretch is a name, a type or an expression of the program. -/
def Program.IsTextAt [Alphabet] (p : Program) (span : Span) (part : String) : Prop :=
  (∃ i ∈ p.names, i.span = span ∧ part = i.name) ∨
  (∃ r ∈ p.typeRefs, r.span = span ∧ ∃ r', TypeRef.IsWhole part r' ∧ r'.name = r.name) ∨
  ∃ e ∈ p.exprs, e.span = span ∧ ∃ e', Expr.IsWhole part e' ∧ e'.shift span.offset = e

theorem tokensOf_empty [Alphabet] : tokensOf "" = [] := by
  simp [tokensOf, Piece.split, Piece.tokensFrom, Piece.placeFrom]

theorem TypeRef.IsWhole.ne_empty [Alphabet] {text : String} {r : TypeRef} (h : TypeRef.IsWhole text r) : text ≠ "" := by
  rintro rfl
  obtain ⟨-, reader, hread, -⟩ := h
  rw [Reader.ofTokens_scan, tokensOf_empty] at hread
  cases hread

theorem Expr.IsWhole.ne_empty [Alphabet] {text : String} {e : Expr} (h : Expr.IsWhole text e) : text ≠ "" := by
  rintro rfl
  obtain ⟨-, r, hread, -⟩ := h
  rw [Reader.ofTokens_scan, tokensOf_empty] at hread
  cases hread

namespace Source

variable {source : Source} {listings : Listings} {p : Program}

theorem exists_of_parse [Alphabet] (h : (source.parse listings).outcome = .ok p) :
    (scan source.text).errors = [] ∧
      ∃ r, Reader.readProgram
        { rest := tokensOf source.text, stop := Token.endOfFile (byteSize source.text.toList) } = (some p, r) ∧
        r.errors = [] := by
  rw [outcome_parse] at h
  split at h
  · cases h
  · next herrors =>
    rw [← Reader.ofTokens_scan]
    exact ⟨Decidable.not_not.1 herrors, Reader.exists_of_verdict_ok h⟩

theorem spelled_of_parse [Alphabet] (h : (source.parse listings).outcome = .ok p) :
    (scan source.text).errors = [] ∧
      (∀ i ∈ p.names, ∃ t ∈ tokensOf source.text, t.Names i) ∧
      (∀ r ∈ p.typeRefs, TypeRef.SpelledIn (tokensOf source.text) r) ∧
      ∀ e ∈ p.exprs, Expr.SpelledIn (tokensOf source.text) e ∧ e.Grouped := by
  obtain ⟨herrors, r, hread, hr⟩ := exists_of_parse h
  have hlocates := Reader.locates_readProgram rfl hread hr
  refine ⟨herrors, List.forall_mem_append.2 ⟨hlocates.names, List.forall_mem_flatMap.2 fun e he i hi => ?_⟩,
    (Reader.readsFrom_readProgram rfl).1 p (congrArg Prod.fst hread), hlocates.exprs⟩
  obtain ⟨us, hus, hspells⟩ := (hlocates.exprs e he).1
  obtain ⟨t, ht, hname⟩ := hspells.ownNames i hi
  exact ⟨t, hus.subset ht, hname⟩

theorem isTextAt_of_parse [Alphabet] (h : (source.parse listings).outcome = .ok p) {span : Span}
    (hspan : span ∈ p.spans) :
    ∃ part, span.slice? source.text = some part ∧ part ≠ "" ∧ p.IsTextAt span part := by
  obtain ⟨herrors, hnames, htypes, hexprs⟩ := spelled_of_parse h
  simp only [Program.spans, List.mem_append, List.mem_map] at hspan
  rcases hspan with ⟨i, hi, rfl⟩ | ⟨r, hr, rfl⟩ | ⟨e, he, rfl⟩
  · obtain ⟨t, ht, hname⟩ := hnames i hi
    refine ⟨i.name, hname.slice? ht, ?_, .inl ⟨i, hi, rfl, rfl⟩⟩
    obtain ⟨-, hlexeme⟩ := (Token.word?_eq_name t i.name).1 hname.1
    rw [← hlexeme, ne_eq, Token.lexeme_eq_empty_iff (List.mem_append_left _ ht)]
    exact kind_ne_endOfFile t ht
  · obtain ⟨part, r', hslice, hwhole, hname⟩ := (htypes r hr).exists_part herrors
    exact ⟨part, hslice, hwhole.ne_empty, .inr (.inl ⟨r, hr, rfl, r', hwhole, hname⟩)⟩
  · obtain ⟨hspelled, hg⟩ := hexprs e he
    obtain ⟨part, e', hslice, hwhole, hshift⟩ := hspelled.exists_part herrors hg
    exact ⟨part, hslice, hwhole.ne_empty, .inr (.inr ⟨e, he, rfl, e', hwhole, hshift⟩)⟩

end Source

/-! ## Compilations that fail -/

theorem Reader.eq_of_verdict_error {reading : Option Program × Reader} {e : CompileError}
    (h : verdict reading = .error e) : e = .grammar reading.2.errors := by
  rcases reading with ⟨_ | p, r⟩
  · exact (Except.error.inj h).symm
  · rw [verdict] at h
    split at h
    · cases h
    · exact (Except.error.inj h).symm

namespace Source

variable {source : Source} {listings : Listings}

theorem error_of_compile [Alphabet] {e : CompileError} (h : (source.compile listings).outcome = .error e) :
    e = .lexical (scan source.text).errors ∨ e = .grammar source.reading.2.errors ∨
      ∃ p error, (source.parse listings).outcome = .ok p ∧ p.analyze.outcome = .error error ∧
        e = .semantic error := by
  simp only [compile, analyze, Logged.outcome_bind, Logged.outcome_mapError, Logged.outcome_onError] at h
  cases hparse : (source.parse listings).outcome with
  | error parseError =>
    rw [hparse] at h
    obtain rfl : parseError = e := Except.error.inj h
    rw [outcome_parse] at hparse
    split at hparse
    · exact .inl (Except.error.inj hparse).symm
    · exact .inr (.inl (Reader.eq_of_verdict_error hparse))
  | ok p =>
    rw [hparse] at h
    change (p.analyze.outcome.mapError CompileError.semantic >>= _) = _ at h
    cases hanalyze : p.analyze.outcome with
    | ok t =>
      rw [hanalyze] at h
      cases h
    | error error =>
      rw [hanalyze] at h
      exact .inr (.inr ⟨p, error, rfl, hanalyze, (Except.error.inj h).symm⟩)

/-- The diagnostic reports text that no token can hold, or that opens a comment. -/
def ReportsText [Alphabet] (source : Source) (d : Diagnostic) (span : Span) (part : String) : Prop :=
  ∃ e ∈ (scan source.text).errors, d = e.diagnostic source ∧ span = e.span ∧ part = e.cause.text

/-- The diagnostic reports the token at which a class was refused, or a number that does not fit. Its text is empty
just at the end of the file. -/
def ReportsToken [Alphabet] (source : Source) (d : Diagnostic) (span : Span) (part : String) : Prop :=
  ∃ e : SyntaxError, e.Reports (tokensOf source.text) (Token.endOfFile (byteSize source.text.toList)) ∧
    d = e.diagnostic source ∧ span = e.found.span ∧ part = e.found.lexeme ∧
    (part = "" ↔ e.found.kind = .endOfFile)

/-- If a compilation fails, then every error shows the line, the column and the length of a part of the
source. It is text that was left out or that opens a comment, or the token at which a class was refused, or a
name, a type or an expression of the program. The code of the error tells which. -/
theorem diagnostics_point_at_text [Alphabet] {e : CompileError} (h : (source.compile listings).outcome = .error e) :
    ∀ d ∈ e.diagnostics source, d.level = .error →
      ∃ span part, span.slice? source.text = some part ∧ d.PointsAt source span ∧
        ((isCodeOf '0' d.code = true ∧ source.ReportsText d span part) ∨
          (isCodeOf '1' d.code = true ∧ source.ReportsToken d span part) ∨
          ((isCodeOf '2' d.code = true ∨ isCodeOf '3' d.code = true) ∧ part ≠ "" ∧
            ∃ p, (source.parse listings).outcome = .ok p ∧ p.IsTextAt span part)) := by
  rcases error_of_compile h with rfl | rfl | ⟨p, error, hparse, hanalyze, rfl⟩
  · refine List.forall_mem_map.2 fun error herror _ => ?_
    have hslice := error.slice? herror
    exact ⟨error.span, error.cause.text, hslice, Diagnostic.pointsAt_pointAt hslice rfl _,
      .inl ⟨error.cause.isCodeOf_code, error, herror, rfl, rfl, rfl⟩⟩
  · refine List.forall_mem_map.2 fun error herror _ => ?_
    rw [reading, Reader.ofTokens_scan] at herror
    have hreports := (Reader.readsFrom_readProgram rfl).2.errors error herror
    have hmem := hreports.found_mem
    have hslice := Token.slice?_of_scan hmem
    exact ⟨error.found.span, error.found.lexeme, hslice, Diagnostic.pointsAt_pointAt hslice rfl _,
      .inr (.inl ⟨error.isCodeOf_code, error, hreports, rfl, rfl, rfl, Token.lexeme_eq_empty_iff hmem⟩)⟩
  · intro d hd hlevel
    obtain ⟨part, hslice, hne, htext⟩ := isTextAt_of_parse hparse (p.failsIn_analyze error hanalyze)
    simp only [CompileError.diagnostics, List.mem_cons, List.not_mem_nil, or_false] at hd
    rcases hd with rfl | rfl
    · exact ⟨error.span, part, hslice, Diagnostic.pointsAt_pointAt hslice rfl _,
        .inr (.inr ⟨error.cause.isCodeOf_code, hne, p, hparse, htext⟩)⟩
    · cases hlevel

/-- The value on the third line has the wrong type. Lines end with a carriage return and a line feed, and both
comments have more bytes than characters. -/
def wrongValue : Source where
  file := "A.java"
  text := "class A \x7b // ü\r\n public static void main(String[] a) \x7b int[ ] x;\r\n" ++
    " /* é */ x = true; \x7d \x7d\r\n"

theorem diagnostics_point_at_text_wrongValue :
    ∃ e d, (wrongValue.compile .none).outcome = .error e ∧ d ∈ e.diagnostics wrongValue ∧
      d.level = .error ∧ d.code = "E301" ∧ d.location = some ⟨"A.java", 3, 15, 4⟩ ∧
      d.sourceLine = some " /* é */ x = true; \x7d \x7d" ∧
      ∃ span part p, span.slice? wrongValue.text = some part ∧ d.PointsAt wrongValue span ∧ part ≠ "" ∧
        (wrongValue.parse .none).outcome = .ok p ∧ p.IsTextAt span part := by
  have hrun : ((Outcome.error? (wrongValue.compile .none).outcome).any fun e =>
      (e.diagnostics wrongValue).any fun d => decide (d.level = .error ∧ d.code = "E301" ∧
        d.location = some ⟨"A.java", 3, 15, 4⟩ ∧
        d.sourceLine = some " /* é */ x = true; \x7d \x7d")) = true := by
    decide +kernel
  obtain ⟨e, he, hfound⟩ := (Option.any_eq_true _ _).1 hrun
  obtain ⟨d, hd, hd'⟩ := List.any_eq_true.1 hfound
  obtain ⟨hlevel, hcode, hlocation, hline⟩ := of_decide_eq_true hd'
  have hcompile := Outcome.error?_eq_some.1 he
  obtain ⟨span, part, hslice, hpoints, habout⟩ := diagnostics_point_at_text hcompile d hd hlevel
  simp only [hcode, show isCodeOf '0' "E301" = false by decide, show isCodeOf '1' "E301" = false by decide,
    Bool.false_eq_true, false_and, false_or] at habout
  obtain ⟨-, hne, p, hparse, htext⟩ := habout
  exact ⟨e, d, hcompile, hd, hlevel, hcode, hlocation, hline, span, part, p, hslice, hpoints, hne, hparse,
    htext⟩

end Source

end ClassCheck
