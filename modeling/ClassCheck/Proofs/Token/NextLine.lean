import ClassCheck.Proofs.Text.Lines
import ClassCheck.Proofs.Token.Account
import ClassCheck.Text.Unicode

/-!
# Scanning line by line

A line feed ends everything but a block comment. So unless the first of two texts ends in such a comment,
the scan of both, with a line feed between them, is the scan of the one and then that of the other.
-/

namespace ClassCheck

open Text

def LexicalError.shift (distance : Nat) (e : LexicalError) : LexicalError :=
  { e with span := e.span.shift distance }

namespace Piece

/-! ## Nothing looks past a line feed -/

theorem prefix_append_cons_iff {α : Type} {w xs ys : List α} {d : α} (h : d ∉ w) :
    w <+: xs ++ d :: ys ↔ w <+: xs := by
  refine ⟨fun hw => ?_, fun hw => hw.trans (List.prefix_append xs _)⟩
  by_cases hlen : w.length ≤ xs.length
  · exact List.prefix_of_prefix_length_le hw (List.prefix_append xs _) hlen
  · have hd : xs ++ [d] <+: w :=
      List.prefix_of_prefix_length_le ⟨ys, by simp⟩ hw (by simp; omega)
    exact absurd (hd.subset (by simp)) h

section

variable {c : Char} {cs : List Char} (ys : List Char)

theorem not_isIdentContinue_lineFeed [Alphabet] : ∀ d ∈ ('\n' :: ys).head?, isIdentContinue d = false := by
  simp only [List.head?_cons, Option.mem_some_iff, forall_eq']
  exact not_isIdentContinue_of_isBlank (by decide)

theorem lineCommentOf_append_lineFeed : lineCommentOf (cs ++ '\n' :: ys) = lineCommentOf cs := by
  unfold lineCommentOf
  rw [takeWhile_append_of_stop (by simp)]

theorem blockCommentOf_append (h : ∀ text, blockCommentOf cs ≠ .openComment text) :
    blockCommentOf (cs ++ ys) = blockCommentOf cs := by
  unfold blockCommentOf at h ⊢
  cases hclose : splitClose cs with
  | none => simp [hclose] at h
  | some found => rw [splitClose_append_right hclose]

theorem number_append_lineFeed [Alphabet] : number c (cs ++ '\n' :: ys) = number c cs := by
  have hdigit : ∀ d ∈ ('\n' :: ys).head?, Char.isDigit d = false := by simp
  unfold number
  rw [takeWhile_append_of_stop hdigit, dropWhile_append_of_stop hdigit,
    takeWhile_append_of_stop (not_isIdentContinue_lineFeed ys)]

theorem isPrintWord_append_lineFeed [Alphabet] : isPrintWord (cs ++ '\n' :: ys) = isPrintWord cs := by
  by_cases hw : TokenKind.printWord <+: cs
  · refine (isPrintWord_of_append hw.length_le fun hjoin => ?_).symm
    exact Bool.eq_false_iff.1 (not_isIdentContinue_lineFeed ys '\n' rfl) hjoin.2
  · have hw' : ¬ TokenKind.printWord <+: cs ++ '\n' :: ys := by
      rwa [prefix_append_cons_iff (by decide)]
    rw [← List.isPrefixOf_iff_prefix, Bool.not_eq_true] at hw hw'
    rw [isPrintWord, isPrintWord, hw, hw', Bool.false_and, Bool.false_and]

theorem word_append_lineFeed [Alphabet] : word c (cs ++ '\n' :: ys) = word c cs := by
  unfold word
  rw [← List.cons_append, isPrintWord_append_lineFeed,
    takeWhile_append_of_stop (not_isIdentContinue_lineFeed ys)]

theorem sign_append_lineFeed : sign c (cs ++ '\n' :: ys) = sign c cs := by
  cases cs <;> rfl

theorem first_append_lineFeed [Alphabet] (h : ∀ text, first c cs ≠ .openComment text) :
    first c (cs ++ '\n' :: ys) = first c cs := by
  have hhead : ∀ d, d ≠ '\n' → ((cs ++ '\n' :: ys).head? = some d ↔ cs.head? = some d) := by
    intro d hd
    cases cs <;> simp [hd.symm]
  have htail : ∀ d, cs.head? = some d → (cs ++ '\n' :: ys).tail = cs.tail ++ '\n' :: ys := by
    intro d hd
    cases cs <;> simp_all
  simp only [first_eq, hhead '/' (by decide), hhead '*' (by decide), number_append_lineFeed,
    word_append_lineFeed, sign_append_lineFeed] at h ⊢
  split
  · rfl
  split
  · next hline => rw [htail _ hline.2, lineCommentOf_append_lineFeed]
  split
  · next hblank hline hblock =>
    rw [htail _ hblock.2, blockCommentOf_append]
    intro text heq
    apply h text
    rw [if_neg hblank, if_neg hline, if_pos hblock, heq]
  · rfl

end

theorem split_append_lineFeed [Alphabet] {cs : List Char} (h : ∀ text, openComment text ∉ split cs)
    (ys : List Char) : split (cs ++ '\n' :: ys) = split cs ++ .blank '\n' :: split ys := by
  fun_induction split cs with
  | case1 =>
    rw [List.nil_append, split]
    rfl
  | case2 c cs piece ih =>
    simp only [List.mem_cons, not_or] at h
    have hfirst : first c (cs ++ '\n' :: ys) = piece :=
      first_append_lineFeed ys fun text heq => (h text).1 heq.symm
    obtain ⟨body, rest, htext, rfl⟩ := text_first c cs
    have hdrop : ∀ zs, (c :: (body ++ zs)).drop piece.text.length = zs := by
      intro zs
      rw [htext]
      exact List.drop_left
    rw [hdrop] at ih h ⊢
    rw [List.cons_append, split, hfirst, List.append_assoc, hdrop, ih fun text => (h text).2]
    rfl

/-! ## Errors -/

theorem errorsFrom_append (offset : Nat) (front back : List Piece) :
    errorsFrom offset (front ++ back) =
      errorsFrom offset front ++ errorsFrom (offset + byteSize (front.flatMap text)) back := by
  induction front generalizing offset with
  | nil => rfl
  | cons piece front ih =>
    simp only [List.cons_append, errorsFrom_cons, ih, List.append_assoc, List.flatMap_cons,
      byteSize_append, Nat.add_assoc]

theorem errorsFrom_shift (distance offset : Nat) (pieces : List Piece) :
    errorsFrom (offset + distance) pieces =
      (errorsFrom offset pieces).map (LexicalError.shift distance) := by
  induction pieces generalizing offset with
  | nil => rfl
  | cons piece pieces ih =>
    have herror : piece.error? (offset + distance) =
        (piece.error? offset).map (LexicalError.shift distance) := by
      cases piece <;> rfl
    rw [errorsFrom_cons, errorsFrom_cons, List.map_append, ← ih, herror, Nat.add_right_comm]
    cases piece.error? offset <;> rfl

theorem offset_le_of_mem_errorsFrom {offset : Nat} {pieces : List Piece} {e : LexicalError}
    (h : e ∈ errorsFrom offset pieces) :
    e.span.offset ≤ offset + byteSize (pieces.flatMap text) := by
  induction pieces generalizing offset with
  | nil => simp [errorsFrom, placeFrom] at h
  | cons piece pieces ih =>
    rw [errorsFrom_cons, List.mem_append, Option.mem_toList] at h
    rw [List.flatMap_cons, byteSize_append]
    rcases h with h | h
    · have : e.span.offset = offset := by
        cases piece <;> simp_all [error?] <;> simp [← h]
      omega
    · have := ih h
      omega

end Piece

/-! ## The scan of both texts -/

theorem not_mem_split_of_errors [Alphabet] {text : String} (h : ∀ e ∈ (scan text).errors, e.cause.code ≠ "E002")
    (body : List Char) : Piece.openComment body ∉ Piece.split text.toList := by
  intro hmem
  obtain ⟨front, back, hsplit⟩ := List.append_of_mem hmem
  have herrors : (scan text).errors = Piece.errorsFrom 0 (Piece.split text.toList) := rfl
  rw [herrors, hsplit, Piece.errorsFrom_append, Piece.errorsFrom_cons] at h
  exact h ⟨.openComment, _, 2⟩ (List.mem_append_right _ List.mem_cons_self) rfl

section

variable [Alphabet] {first second : String} (h : ∀ body, Piece.openComment body ∉ Piece.split first.toList)

include h

theorem split_onNextLine :
    Piece.split (first ++ "\n" ++ second).toList =
      Piece.split first.toList ++ .blank '\n' :: Piece.split second.toList := by
  rw [← Piece.split_append_lineFeed h]
  simp

theorem tokensOf_onNextLine :
    tokensOf (first ++ "\n" ++ second) =
      tokensOf first ++ (tokensOf second).map (Token.shift (byteSize first.toList + 1)) := by
  have hfeed : byteSize (Piece.blank '\n').text = 1 := by decide
  rw [tokensOf, split_onNextLine h, Piece.tokensFrom_append, Piece.tokensFrom_cons, Piece.texts_split,
    hfeed, Nat.add_assoc, Piece.tokensFrom_shift]
  rfl

theorem errors_onNextLine :
    (scan (first ++ "\n" ++ second)).errors =
      (scan first).errors ++
        (scan second).errors.map (LexicalError.shift (byteSize first.toList + 1)) := by
  have hfeed : byteSize (Piece.blank '\n').text = 1 := by decide
  change Piece.errorsFrom 0 (Piece.split _) = _
  rw [split_onNextLine h, Piece.errorsFrom_append, Piece.errorsFrom_cons, Piece.texts_split, hfeed,
    Nat.add_assoc, Piece.errorsFrom_shift]
  rfl

end

/-! ## The diagnostics of both texts -/

/-- Shows a diagnostic some lines further down. -/
def Diagnostic.moveDown (lines : Nat) (d : Diagnostic) : Diagnostic :=
  { d with location := d.location.map fun l => { l with line := l.line + lines } }

section

variable (file first second : String)

theorem diagnostic_onNextLine_left {e : LexicalError} (h : e.span.offset ≤ byteSize first.toList) :
    e.diagnostic (Source.onNextLine file first second) = e.diagnostic ⟨file, first⟩ := by
  have hline := (Source.locate_line_bounds ⟨file, first⟩ e.span.offset).2
  unfold LexicalError.diagnostic Diagnostic.pointAt
  simp only [Source.locate_onNextLine_left file first second h,
    Source.lineText_onNextLine_left file first second hline]
  rfl

theorem diagnostic_onNextLine_right (e : LexicalError) :
    (e.shift (byteSize first.toList + 1)).diagnostic (Source.onNextLine file first second) =
      (e.diagnostic ⟨file, second⟩).moveDown (first.toList.count '\n' + 1) := by
  have hline := (Source.locate_line_bounds ⟨file, second⟩ e.span.offset).1
  unfold LexicalError.diagnostic Diagnostic.pointAt LexicalError.shift Span.shift
  simp only [Source.locate_onNextLine_right, Source.lineText_onNextLine_right file first second hline]
  rfl

end

/-- Unless the first text ends in a comment that is not closed, what is scanned after a line feed does not
depend on it. The tokens of the second text only stand further on, and its diagnostics further down. -/
theorem scan_onNextLine [Alphabet] (file first second : String)
    (h : ∀ e ∈ (scan first).errors, e.cause.code ≠ "E002") :
    (scan (first ++ "\n" ++ second)).tokens =
      (scan first).tokens.dropLast ++
        (scan second).tokens.map (Token.shift (byteSize first.toList + 1)) ∧
    (scan (first ++ "\n" ++ second)).errors.map
        (LexicalError.diagnostic ⟨file, first ++ "\n" ++ second⟩) =
      (scan first).errors.map (LexicalError.diagnostic ⟨file, first⟩) ++
        ((scan second).errors.map (LexicalError.diagnostic ⟨file, second⟩)).map
          (Diagnostic.moveDown (first.toList.count '\n' + 1)) := by
  have hopen := not_mem_split_of_errors h
  constructor
  · have hsize : byteSize (first ++ "\n" ++ second).toList =
        byteSize second.toList + (byteSize first.toList + 1) := by
      have : '\n'.utf8Size = 1 := by decide
      simp
      omega
    rw [tokens_scan_eq, tokens_scan_eq, tokens_scan_eq, tokensOf_onNextLine hopen, List.dropLast_concat,
      List.map_append, hsize, List.append_assoc]
    rfl
  · rw [errors_onNextLine hopen, List.map_append, List.map_map, List.map_map]
    congr 1
    · apply List.map_congr_left
      intro e he
      have he' : e ∈ Piece.errorsFrom 0 (Piece.split first.toList) := he
      have hoffset := Piece.offset_le_of_mem_errorsFrom he'
      rw [Piece.texts_split, Nat.zero_add] at hoffset
      exact diagnostic_onNextLine_left file first second hoffset
    · apply List.map_congr_left
      intro e _
      exact diagnostic_onNextLine_right file first second e

/-- A line comment is open at the end of the first text, and a block comment at the end of the second. -/
theorem scan_onNextLine_openComments :
    (∀ e ∈ (scan "ü & // a").errors, e.cause.code ≠ "E002") ∧
      (scan ("ü & // a" ++ "\n" ++ "12ab c /* d")).tokens =
        [⟨.identifier, "ü", 0, 2⟩, ⟨.identifier, "c", 15, 1⟩, Token.endOfFile 21] ∧
      ((scan ("ü & // a" ++ "\n" ++ "12ab c /* d")).errors.map
          (LexicalError.diagnostic ⟨"A.java", "ü & // a" ++ "\n" ++ "12ab c /* d"⟩)).map
        (fun d => (d.code, d.location)) =
        [("E001", some ⟨"A.java", 1, 4, 1⟩), ("E003", some ⟨"A.java", 2, 1, 4⟩),
          ("E002", some ⟨"A.java", 2, 8, 2⟩)] := by
  have hclosed : ∀ e ∈ (scan "ü & // a").errors, e.cause.code ≠ "E002" := by decide +kernel
  obtain ⟨htokens, hdiagnostics⟩ := scan_onNextLine "A.java" "ü & // a" "12ab c /* d" hclosed
  rw [htokens, hdiagnostics]
  exact ⟨hclosed, by decide +kernel, by decide +kernel⟩

end ClassCheck
