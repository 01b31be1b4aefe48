import ClassCheck.Proofs.Pointing
import ClassCheck.Proofs.Text.Offsets
import ClassCheck.Proofs.Token.Printing

/-!
# Underlines and the line above them

A diagnostic shows the line on which a stretch of the source begins, and underlines as many bytes as the stretch has.
Nothing cuts the underline off at the end of the line. Main statement: it stays below the line if and only if the text
that it marks has no line feed. Only types and expressions of several tokens can have one.
-/

namespace ClassCheck

open Text

/-! ## Text without white space around it -/

/-- The text begins and ends with a character that is no white space. -/
structure Trimmed (cs : List Char) : Prop where
  first : ∃ c ∈ cs.head?, isBlank c = false
  last : ∃ c ∈ cs.getLast?, isBlank c = false

theorem trimmed_of_forall {cs : List Char} (hne : cs ≠ []) (h : ∀ c ∈ cs, isBlank c = false) : Trimmed cs where
  first := ⟨cs.head hne, List.head?_eq_some_head hne, h _ (List.head_mem hne)⟩
  last := ⟨cs.getLast hne, List.getLast?_eq_some_getLast hne, h _ (List.getLast_mem hne)⟩

theorem lineFeed_not_mem {cs : List Char} (h : ∀ c ∈ cs, isBlank c = false) : '\n' ∉ cs := by
  intro hmem
  exact absurd (h _ hmem) (by decide)

namespace Trimmed

open Source

variable {part : List Char}

theorem lt_byteSize_lineAround (h : Trimmed part) (before after : List Char) :
    byteSize (lastLine before) < byteSize (lineAround before (part ++ after)).toList := by
  obtain ⟨c, hc, hblank⟩ := h.first
  obtain ⟨rest, rfl⟩ := List.head?_eq_some_iff.1 hc
  have hfeed : c ≠ '\n' := by
    rintro rfl
    exact absurd hblank (by decide)
  have hreturn : c ≠ '\r' := by
    rintro rfl
    exact absurd hblank (by decide)
  have hline : lastLine before ++ firstLine (c :: rest ++ after) =
      (lastLine before ++ [c]) ++ firstLine (rest ++ after) := by
    rw [List.cons_append, firstLine, List.takeWhile_cons_of_pos (by simpa using hfeed), List.append_assoc]
    rfl
  have hpos := c.utf8Size_pos
  rw [lineAround, String.toList_ofList, hline, withoutReturns_append (by simpa using hreturn), byteSize_append,
    byteSize_append, byteSize_cons]
  omega

theorem le_byteSize_lineAround_iff (h : Trimmed part) (before after : List Char) :
    byteSize (lastLine before) + byteSize part ≤ byteSize (lineAround before (part ++ after)).toList ↔
      '\n' ∉ part := by
  rw [lineAround, String.toList_ofList]
  constructor
  · -- The line feed is marked, but the line ends before it.
    intro hle hmem
    obtain ⟨here, below, rfl, hhere⟩ := List.eq_append_cons_of_mem hmem
    have hline : firstLine (here ++ '\n' :: below ++ after) = here := by
      rw [List.append_assoc, firstLine, takeWhile_line hhere]
      simp
    have hsize := byteSize_withoutReturns_le (lastLine before ++ here)
    have hfeed : '\n'.utf8Size = 1 := by decide
    rw [hline] at hle
    simp only [byteSize_append, byteSize_cons] at hle hsize
    omega
  · intro hnot
    obtain ⟨c, hc, hblank⟩ := h.last
    have hline : lastLine before ++ firstLine (part ++ after) = (lastLine before ++ part) ++ firstLine after := by
      rw [firstLine, takeWhile_line hnot, List.append_assoc]
      rfl
    have hlast : (lastLine before ++ part).getLast? ≠ some '\r' := by
      rw [List.getLast?_append, hc, Option.some_or]
      rintro ⟨⟩
      exact absurd hblank (by decide)
    rw [hline, withoutReturns_append hlast, byteSize_append, byteSize_append]
    omega

end Trimmed

/-! ## Tokens and text that is left out -/

theorem TokenKind.not_isBlank_of_writes [Alphabet] {kind : TokenKind} {text : List Char} (h : kind.Writes text) :
    ∀ c ∈ text, isBlank c = false := by
  have hsigns : ∀ entry ∈ signs, isBlank entry.1 = false := by decide
  have hfixed : ∀ c ∈ printWord ++ ['&', '&'], isBlank c = false := by
    simpa using List.all_eq_true.1 (by decide : (printWord ++ ['&', '&']).all fun c => !isBlank c)
  have hdigit : ∀ d : Char, d.isDigit = true → isBlank d = false :=
    fun _ hd => not_isBlank_of_isIdentContinue (ident_of_isDigit hd).1
  cases shape_of_writes h with
  | number hc hcs => exact List.forall_mem_cons.2 ⟨hdigit _ hc, fun d hd => hdigit d (hcs d hd)⟩
  | word hc hcs =>
    exact List.forall_mem_cons.2 ⟨not_isBlank_of_isIdentContinue (isIdentContinue_of_isIdentStart hc),
      fun d hd => not_isBlank_of_isIdentContinue (hcs d hd)⟩
  | print => exact fun c hc => hfixed c (List.mem_append_left _ hc)
  | andAnd => exact fun c hc => hfixed c (List.mem_append_right _ hc)
  | sign hmem => exact List.forall_mem_singleton.2 (hsigns _ hmem)

theorem Token.not_isBlank [Alphabet] {text : String} {t : Token}
    (h : t ∈ tokensOf text ++ [endOfFile (byteSize text.toList)]) : ∀ c ∈ t.lexeme.toList, isBlank c = false := by
  rcases List.mem_append.1 h with h | h
  · exact TokenKind.not_isBlank_of_writes (writes_of_mem_tokensOf h)
  · obtain rfl := List.mem_singleton.1 h
    exact List.forall_mem_nil _

theorem Piece.not_isBlank_of_error? [Alphabet] {c : Char} {cs : List Char} {offset : Nat} {e : LexicalError}
    (h : (first c cs).error? offset = some e) : ∀ d ∈ e.cause.text.toList, isBlank d = false := by
  rw [first_eq] at h
  split at h
  · cases h
  next hblank =>
  split at h
  · cases h
  split at h
  · unfold blockCommentOf at h
    split at h
    · cases h
    · cases h
      simpa [LexicalCause.text] using (by decide : isBlank '/' = false ∧ isBlank '*' = false)
  split at h
  · next hc =>
    unfold number at h
    split at h
    · cases h
    · cases h
      intro d hd
      simp only [LexicalCause.text, String.toList_ofList, List.mem_append, List.mem_cons] at hd
      apply not_isBlank_of_isIdentContinue
      rcases hd with (rfl | hd) | hd
      · exact (ident_of_isDigit hc).1
      · exact (ident_of_isDigit (List.all_eq_true.1 List.all_takeWhile d hd)).1
      · exact List.all_eq_true.1 List.all_takeWhile d hd
  split at h
  · unfold word at h
    split at h <;> cases h
  · unfold sign at h
    split at h
    · cases h
    split at h
    · cases h
    · cases h
      simpa [LexicalCause.text] using hblank

theorem LexicalError.not_isBlank [Alphabet] {text : String} {e : LexicalError} (h : e ∈ (scan text).errors) :
    ∀ c ∈ e.cause.text.toList, isBlank c = false := by
  obtain ⟨front, piece, back, hpieces, herror⟩ := Piece.exists_of_mem_errorsFrom h
  obtain ⟨c, cs, -, rfl, -⟩ := Piece.split_cons_iff.1 (Piece.split_texts_of_append hpieces)
  exact Piece.not_isBlank_of_error? herror

theorem Span.Covers.trimmed [Alphabet] {span : Span} {used : List Token} {text part : String} (h : span.Covers used)
    (hused : used ⊆ tokensOf text) (hslice : span.slice? text = some part) (hne : part.toList ≠ []) :
    Trimmed part.toList := by
  obtain ⟨⟨first, hfirst, hoffset⟩, last, hlast, hstop⟩ := h
  have hsolid : ∀ t ∈ used,
      t.span.slice? text = some t.lexeme ∧ t.lexeme.toList ≠ [] ∧ Trimmed t.lexeme.toList := by
    intro t ht
    have hwrites := writes_of_mem_tokensOf (hused ht)
    have hlexeme := TokenKind.ne_nil_of_writes hwrites
    exact ⟨slice?_of_mem_tokensOf (hused ht), hlexeme,
      trimmed_of_forall hlexeme (TokenKind.not_isBlank_of_writes hwrites)⟩
  obtain ⟨hslice', hne', htrimmed⟩ := hsolid first (List.mem_of_mem_head? hfirst)
  obtain ⟨hslice'', hne'', htrimmed'⟩ := hsolid last (List.mem_of_mem_getLast? hlast)
  constructor
  · rw [← Span.head?_slice? hslice' hslice hoffset hne' hne]
    exact htrimmed.first
  · rw [← Span.getLast?_slice? hslice'' hslice hstop hne'' hne]
    exact htrimmed'.last

/-! ## Types and expressions of several tokens -/

/-- Not a literal, a name or `this`. -/
def Expr.isCompound : Expr → Bool
  | .int .. | .bool .. | .ident .. | .this .. => false
  | _ => true

/-- An array type or a compound expression stands here. Only these are spelled by more than one token. -/
def Program.WideAt (p : Program) (span : Span) : Prop :=
  (∃ r ∈ p.typeRefs, r.span = span ∧ r.name = .intArray) ∨ ∃ e ∈ p.exprs, e.span = span ∧ e.isCompound = true

theorem Expr.Spells.alone_or {us : List Token} {e : Expr} (h : Expr.Spells us e) :
    (∃ t, us = [t]) ∨ e.isCompound = true := by
  cases e with
  | int | bool | ident | this =>
    obtain ⟨t, rfl, -⟩ := h
    exact .inl ⟨t, rfl⟩
  | binary | not | index | length | call | newArray | newObject | paren => exact .inr rfl

theorem TypeRef.Spells.alone_or {us : List Token} {r : TypeRef} (h : TypeRef.Spells us r) :
    (∃ t, us = [t]) ∨ r.name = .intArray := by
  have hlength := h.said.length_eq
  cases hname : r.name with
  | intArray => exact .inr rfl
  | int | boolean | named =>
    rw [hname] at hlength
    exact .inl (List.length_eq_one_iff.1 hlength)

namespace Source

variable {source : Source} {listings : Listings} {p : Program} {span : Span}

theorem exists_covered [Alphabet] (h : (source.parse listings).outcome = .ok p) (hspan : span ∈ p.spans) :
    ∃ used, used <:+: tokensOf source.text ∧ span.Covers used ∧ ((∃ t, used = [t]) ∨ p.WideAt span) := by
  obtain ⟨-, hnames, htypes, hexprs⟩ := spelled_of_parse h
  have horder := inOrder_tokensOf source.text
  simp only [Program.spans, List.mem_append, List.mem_map] at hspan
  rcases hspan with ⟨i, hi, rfl⟩ | ⟨r, hr, rfl⟩ | ⟨e, he, rfl⟩
  · obtain ⟨t, ht, hname⟩ := hnames i hi
    obtain ⟨before, after, htokens⟩ := List.append_of_mem ht
    refine ⟨[t], ⟨before, after, ?_⟩, ?_, .inl ⟨t, rfl⟩⟩
    · rw [htokens, List.append_assoc, List.singleton_append]
    · rw [hname.2]
      exact Span.Covers.singleton t
  · obtain ⟨used, hused, hspells⟩ := htypes r hr
    refine ⟨used, hused, hspells.covers (horder.sublist hused.sublist), hspells.alone_or.imp_right fun hname => ?_⟩
    exact .inl ⟨r, hr, rfl, hname⟩
  · obtain ⟨⟨used, hused, hspells⟩, -⟩ := hexprs e he
    refine ⟨used, hused, hspells.covers (horder.sublist hused.sublist), hspells.alone_or.imp_right fun hcompound => ?_⟩
    exact .inr ⟨e, he, rfl, hcompound⟩

theorem exists_trimmed [Alphabet] (h : (source.parse listings).outcome = .ok p) (hspan : span ∈ p.spans) :
    ∃ part, span.slice? source.text = some part ∧ (part.toList ≠ [] → Trimmed part.toList) ∧
      ('\n' ∈ part.toList → p.WideAt span) := by
  obtain ⟨used, ⟨before, after, htokens⟩, hcovers, hwide⟩ := exists_covered h hspan
  have hused : used ⊆ tokensOf source.text := by
    rw [← htokens, List.append_assoc]
    exact fun t ht => List.mem_append_right _ (List.mem_append_left _ ht)
  rw [List.append_assoc] at htokens
  obtain ⟨span', part, hcovers', hslice, -⟩ := exists_part htokens.symm hcovers.ne_nil
  obtain rfl := hcovers'.eq hcovers
  refine ⟨part, hslice, hcovers.trimmed hused hslice, fun hfeed => hwide.resolve_left ?_⟩
  rintro ⟨t, rfl⟩
  have ht : t ∈ tokensOf source.text := hused List.mem_cons_self
  obtain rfl := hcovers.eq (Span.Covers.singleton t)
  obtain rfl := Option.some.inj (hslice.symm.trans (slice?_of_mem_tokensOf ht))
  exact lineFeed_not_mem (Token.not_isBlank (List.mem_append_left _ ht)) hfeed

end Source

/-! ## Underlines -/

/-- The underline is not longer than the rest of the line. -/
def Label.Fits (label : Label) (line : String) : Prop :=
  label.column - 1 + label.length ≤ byteSize line.toList

instance (label : Label) (line : String) : Decidable (label.Fits line) :=
  inferInstanceAs (Decidable (_ ≤ _))

/-- The label of a diagnostic marks this stretch of the source, below the line on which the stretch begins. -/
structure Source.Underlines (source : Source) (d : Diagnostic) (label : Label) (span : Span) (part : String)
    (line : String) : Prop where
  slice : span.slice? source.text = some part
  length_eq : label.length = span.length
  location_eq : d.location =
    some ⟨source.file, (source.locate span.offset).line, label.column, label.length⟩
  column_eq : label.column = (source.locate span.offset).column
  line_eq : line = source.lineText (source.locate span.offset).line
  shown : d.sourceLine = some line
  begins : label.column ≤ byteSize line.toList
  fits_iff : label.Fits line ↔ '\n' ∉ part.toList

namespace Diagnostic.PointsAt

variable {source : Source} {d : Diagnostic} {span : Span} {part : String} {label : Label}

theorem underlines (h : d.PointsAt source span) (hslice : span.slice? source.text = some part)
    (htrimmed : part.toList ≠ [] → Trimmed part.toList) (hlabel : label ∈ d.labels) (hpos : 0 < label.length) :
    ∃ line, source.Underlines d label span part line := by
  obtain ⟨before, rest, htext, hoffset, hlocation, hline, message, hlabels⟩ := h.shown
  obtain ⟨before', after, htext', hoffset', hlength⟩ := Span.slice?_eq_some_iff.1 hslice
  obtain ⟨rfl, rfl⟩ := append_inj_of_byteSize (htext.symm.trans htext') (hoffset.trans hoffset'.symm)
  obtain ⟨hlocate, hshown⟩ := Source.locate_append htext
  rw [hoffset] at hlocate
  rw [hlabels, List.mem_singleton] at hlabel
  subst hlabel
  have hne : part.toList ≠ [] := by
    intro hnil
    rw [hnil] at hlength
    exact absurd hlength (Nat.ne_of_lt hpos)
  have htrim := htrimmed hne
  refine ⟨_, hslice, rfl, ?_, ?_, ?_, hline, htrim.lt_byteSize_lineAround before after, ?_⟩
  · rw [hlocation, hlocate, Source.positionAfter]
  · rw [hlocate, Source.positionAfter]
  · rw [hlocate, hshown]
  · rw [← htrim.le_byteSize_lineAround_iff before after, Label.Fits, hlength, Nat.add_sub_cancel]

theorem underlines_solid (h : d.PointsAt source span) (hslice : span.slice? source.text = some part)
    (hsolid : ∀ c ∈ part.toList, isBlank c = false) (hlabel : label ∈ d.labels) (hpos : 0 < label.length) :
    ∃ line, source.Underlines d label span part line ∧ label.Fits line := by
  obtain ⟨line, hunderlines⟩ := h.underlines hslice (trimmed_of_forall · hsolid) hlabel hpos
  exact ⟨line, hunderlines, hunderlines.fits_iff.2 (lineFeed_not_mem hsolid)⟩

end Diagnostic.PointsAt

namespace Source

variable {source : Source} {listings : Listings}

/-- If a compilation fails, then every underline of its errors begins on the line that is shown. It stays on it if and
only if the text that it marks has no line feed. If it does not, then the error is about an array type or a compound
expression of the program. -/
theorem underlines_fit_iff [Alphabet] {e : CompileError} (h : (source.compile listings).outcome = .error e) :
    ∀ d ∈ e.diagnostics source, ∀ label ∈ d.labels, 0 < label.length →
      ∃ span part line, source.Underlines d label span part line ∧
        (¬ label.Fits line →
          (isCodeOf '2' d.code = true ∨ isCodeOf '3' d.code = true) ∧
          ∃ p, (source.parse listings).outcome = .ok p ∧ p.WideAt span) := by
  rcases error_of_compile h with rfl | rfl | ⟨p, error, hparse, hanalyze, rfl⟩
  · refine List.forall_mem_map.2 fun error herror label hlabel hpos => ?_
    have hslice := error.slice? herror
    obtain ⟨line, hunderlines, hfits⟩ := (Diagnostic.pointsAt_pointAt hslice rfl _).underlines_solid hslice
      (error.not_isBlank herror) hlabel hpos
    exact ⟨_, _, line, hunderlines, absurd hfits⟩
  · refine List.forall_mem_map.2 fun error herror label hlabel hpos => ?_
    rw [reading, Reader.ofTokens_scan] at herror
    have hmem := ((Reader.readsFrom_readProgram rfl).2.errors error herror).found_mem
    have hslice := Token.slice?_of_scan hmem
    obtain ⟨line, hunderlines, hfits⟩ := (Diagnostic.pointsAt_pointAt hslice rfl _).underlines_solid hslice
      (Token.not_isBlank hmem) hlabel hpos
    exact ⟨_, _, line, hunderlines, absurd hfits⟩
  · intro d hd label hlabel hpos
    simp only [CompileError.diagnostics, List.mem_cons, List.not_mem_nil, or_false] at hd
    rcases hd with rfl | rfl
    · obtain ⟨part, hslice, htrimmed, hwide⟩ := exists_trimmed hparse (p.failsIn_analyze error hanalyze)
      obtain ⟨line, hunderlines⟩ :=
        (Diagnostic.pointsAt_pointAt hslice rfl _).underlines hslice htrimmed hlabel hpos
      refine ⟨_, part, line, hunderlines, fun hnot => ⟨error.cause.isCodeOf_code, p, hparse, hwide ?_⟩⟩
      rw [hunderlines.fits_iff] at hnot
      exact Decidable.not_not.1 hnot
    · cases hlabel

def brokenLine : String := "class A \x7b public static void main(String[] a) \x7b System.out.println(1 +"

theorem byteSize_brokenLine : byteSize brokenLine.toList = 70 := by decide +kernel

/-- A sum of a number and a truth value, with a line feed after the sign. -/
def brokenSum : Source where
  file := "A.java"
  text := brokenLine ++ "\ntrue); \x7d \x7d"

theorem exists_error_of_brokenSum :
    ∃ e d, (brokenSum.compile .none).outcome = .error e ∧ d ∈ e.diagnostics brokenSum ∧ d.level = .error ∧
      d.labels = [⟨68, 8, ""⟩] ∧ d.sourceLine = some brokenLine := by
  have hrun : ((Outcome.error? (brokenSum.compile .none).outcome).any fun e =>
      (e.diagnostics brokenSum).any fun d =>
        decide (d.level = .error ∧ d.labels = [⟨68, 8, ""⟩] ∧ d.sourceLine = some brokenLine)) = true := by
    decide +kernel
  obtain ⟨e, he, hrun⟩ := (Option.any_eq_true _ _).1 hrun
  obtain ⟨d, hd, hrun⟩ := List.any_eq_true.1 hrun
  exact ⟨e, d, Outcome.error?_eq_some.1 he, hd, of_decide_eq_true hrun⟩

/-- The line has 70 bytes, but the underline of the sum goes on to the 75th. -/
theorem underline_of_brokenSum :
    ∃ e d label line, (brokenSum.compile .none).outcome = .error e ∧ d ∈ e.diagnostics brokenSum ∧
      d.level = .error ∧ label ∈ d.labels ∧ 0 < label.length ∧ d.sourceLine = some line ∧
      byteSize line.toList = 70 ∧ label.column - 1 + label.length = 75 := by
  obtain ⟨e, d, he, hd, hlevel, hlabels, hline⟩ := exists_error_of_brokenSum
  refine ⟨e, d, ⟨68, 8, ""⟩, _, he, hd, hlevel, ?_, by decide, hline, byteSize_brokenLine, by decide⟩
  rw [hlabels]
  exact List.mem_cons_self

theorem underlines_fit_iff_brokenSum :
    ∃ e d label, (brokenSum.compile .none).outcome = .error e ∧ d ∈ e.diagnostics brokenSum ∧
      label ∈ d.labels ∧ 0 < label.length ∧
      ∃ span part line p, brokenSum.Underlines d label span part line ∧ '\n' ∈ part.toList ∧
        (brokenSum.parse .none).outcome = .ok p ∧ p.WideAt span := by
  obtain ⟨e, d, he, hd, -, hlabels, hline⟩ := exists_error_of_brokenSum
  have hlabel : ⟨68, 8, ""⟩ ∈ d.labels := hlabels ▸ List.mem_cons_self
  obtain ⟨span, part, line, hunderlines, hwide⟩ := underlines_fit_iff he d hd _ hlabel (by decide)
  have hnot : ¬ Label.Fits ⟨68, 8, ""⟩ line := by
    obtain rfl := Option.some.inj (hline.symm.trans hunderlines.shown)
    rw [Label.Fits, byteSize_brokenLine]
    decide
  obtain ⟨-, p, hparse, hp⟩ := hwide hnot
  rw [hunderlines.fits_iff, Decidable.not_not] at hnot
  exact ⟨e, d, _, he, hd, hlabel, by decide, span, part, line, p, hunderlines, hnot, hparse, hp⟩

end Source

end ClassCheck
