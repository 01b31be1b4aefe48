import ClassCheck.Proofs.Token.Comments
import ClassCheck.Proofs.Token.Places

/-!
# Every byte of a text is accounted for

A scan gives tokens and errors. Between the tokens there is nothing but white space, whole comments and
the text that the errors are about; a block comment that is not closed can only be the end of the text.
-/

namespace ClassCheck

open Text

/-! ## What may stand between tokens -/

namespace LexicalError

/-- The error is about text that was dropped: a stray character or a malformed number. -/
def isDrop (e : LexicalError) : Bool := e.cause.code == "E001" || e.cause.code == "E003"

/-- The error is about a block comment that is not closed. -/
def isOpen (e : LexicalError) : Bool := e.cause.code == "E002"

end LexicalError

/-- Text without tokens from byte `offset` on, with `after` behind it. The errors say, in this order,
which parts of it were dropped; the other parts are white space and comments. -/
inductive Filler (after : List Char) : Nat → List Char → List LexicalError → Prop
  | nil {offset : Nat} : Filler after offset [] []
  | trivium {offset : Nat} {part cs : List Char} {errors : List LexicalError} :
      Piece.IsTrivium (cs ++ after) part → Filler after (offset + byteSize part) cs errors →
      Filler after offset (part ++ cs) errors
  | dropped {offset : Nat} {part cs : List Char} {e : LexicalError} {errors : List LexicalError} :
      e.isDrop = true → e.span = ⟨offset, byteSize part⟩ → part ≠ [] →
      Filler after (offset + byteSize part) cs errors → Filler after offset (part ++ cs) (e :: errors)

/-- The text `cs` from byte `offset` on is these tokens, each at its place, and filler before, between and
after them, up to `tail`. The errors are used up in the filler. -/
def Accounts (tail : List Char) : Nat → List Char → List Token → List LexicalError → Prop
  | offset, cs, [], errors => ∃ gap, cs = gap ++ tail ∧ Filler tail offset gap errors
  | offset, cs, t :: ts, errors =>
    ∃ gap rest here later, cs = gap ++ (t.lexeme.toList ++ rest) ∧ errors = here ++ later ∧
      Filler (t.lexeme.toList ++ rest) offset gap here ∧
      t.span = ⟨offset + byteSize gap, byteSize t.lexeme.toList⟩ ∧
      Accounts tail t.span.stop rest ts later

namespace Accounts

variable {tail part cs : List Char} {offset : Nat} {ts : List Token} {errors : List LexicalError}

theorem trivium (hpart : Piece.IsTrivium cs part)
    (h : Accounts tail (offset + byteSize part) cs ts errors) :
    Accounts tail offset (part ++ cs) ts errors := by
  cases ts with
  | nil =>
    obtain ⟨gap, rfl, hgap⟩ := h
    exact ⟨part ++ gap, by simp, .trivium hpart hgap⟩
  | cons t ts =>
    obtain ⟨gap, rest, here, later, rfl, herrors, hgap, hspan, hrest⟩ := h
    refine ⟨part ++ gap, rest, here, later, by simp, herrors, .trivium hpart hgap, ?_, hrest⟩
    rw [hspan, byteSize_append, Nat.add_assoc]

theorem dropped {e : LexicalError} (he : e.isDrop = true) (hspan : e.span = ⟨offset, byteSize part⟩)
    (hpart : part ≠ []) (h : Accounts tail (offset + byteSize part) cs ts errors) :
    Accounts tail offset (part ++ cs) ts (e :: errors) := by
  cases ts with
  | nil =>
    obtain ⟨gap, rfl, hgap⟩ := h
    exact ⟨part ++ gap, by simp, .dropped he hspan hpart hgap⟩
  | cons t ts =>
    obtain ⟨gap, rest, here, later, rfl, rfl, hgap, htspan, hrest⟩ := h
    refine ⟨part ++ gap, rest, e :: here, later, by simp, rfl, .dropped he hspan hpart hgap, ?_, hrest⟩
    rw [htspan, byteSize_append, Nat.add_assoc]

theorem token {kind : TokenKind} (h : Accounts tail (offset + byteSize part) cs ts errors) :
    Accounts tail offset (part ++ cs) (⟨kind, String.ofList part, offset, byteSize part⟩ :: ts) errors :=
  ⟨[], cs, [], errors, by simp, rfl, .nil, by simp [Token.span], h⟩

end Accounts

/-! ## The pieces of a text -/

namespace Piece

/-- A piece is what it is taken for, if `after` is the text behind it. -/
def Sound (after : List Char) : Piece → Prop
  | .blank c => IsTrivium after [c]
  | .lineComment text | .blockComment text => IsTrivium after text
  | .openComment text => Unclosed text ∧ after = []
  | .token _ text | .badNumber text => text ≠ []
  | .stray _ => True

variable {c : Char} {cs after : List Char}

theorem sound_number [Alphabet] (c : Char) (cs after : List Char) : (number c cs).Sound after := by
  unfold number
  split <;> simp [Sound]

theorem sound_word [Alphabet] (c : Char) (cs after : List Char) : (word c cs).Sound after := by
  unfold word
  split
  · exact (by decide : TokenKind.printWord ≠ [])
  · exact List.cons_ne_nil _ _

theorem sound_sign (c : Char) (cs after : List Char) : (sign c cs).Sound after := by
  unfold sign
  split
  · simp [Sound]
  · split <;> simp [Sound]

theorem sound_first [Alphabet] (h : c :: cs = (first c cs).text ++ after) : (first c cs).Sound after := by
  rw [first_eq] at h ⊢
  split
  · next hblank => exact .blank hblank
  next hblank =>
  rw [if_neg hblank] at h
  split
  · next hline =>
    obtain ⟨rfl, hhead⟩ := hline
    obtain ⟨rest, rfl⟩ := List.head?_eq_some_iff.1 hhead
    exact isTrivium_lineCommentOf (by simpa using h)
  next hline =>
  rw [if_neg hline] at h
  split
  · next hblock =>
    obtain ⟨rfl, hhead⟩ := hblock
    obtain ⟨rest, rfl⟩ := List.head?_eq_some_iff.1 hhead
    rw [List.tail_cons] at h ⊢
    rcases blockCommentOf_cases (by simpa using h) with ⟨text, heq, htext⟩ | ⟨heq, hopen⟩
    · rw [heq]
      exact htext
    · rw [heq]
      exact hopen
  split
  · exact sound_number c cs after
  split
  · exact sound_word c cs after
  · exact sound_sign c cs after

/-! ## The errors among the pieces -/

/-- The errors among these pieces, if the first piece begins at `offset`. -/
def errorsFrom (offset : Nat) (pieces : List Piece) : List LexicalError :=
  (placeFrom offset pieces).filterMap fun (offset, piece) => piece.error? offset

theorem errorsFrom_cons (offset : Nat) (piece : Piece) (pieces : List Piece) :
    errorsFrom offset (piece :: pieces) =
      (piece.error? offset).toList ++ errorsFrom (offset + byteSize piece.text) pieces := by
  rw [errorsFrom, placeFrom, List.filterMap_cons]
  dsimp only
  cases piece.error? offset <;> rfl

/-- What is left at the end of a text, with all else accounted for: nothing, or a comment that is not
closed and that the last error is about. -/
def Ends (tail : List Char) (stop : Nat) (opens : List LexicalError) : Prop :=
  (tail = [] ∧ opens = []) ∨
    (Unclosed tail ∧ ∃ e, opens = [e] ∧ e.span.offset + byteSize tail = stop)

/-- By induction over the pieces: each of them is filler, a token, or the end of the text. -/
theorem accounts_split [Alphabet] (cs : List Char) (offset : Nat) :
    ∃ tail, Accounts tail offset cs (tokensFrom offset (split cs))
        ((errorsFrom offset (split cs)).filter LexicalError.isDrop) ∧
      Ends tail (offset + byteSize cs) ((errorsFrom offset (split cs)).filter LexicalError.isOpen) := by
  fun_induction split cs generalizing offset with
  | case1 => exact ⟨[], ⟨[], rfl, .nil⟩, .inl ⟨rfl, rfl⟩⟩
  | case2 c cs piece ih =>
    obtain ⟨body, rest, htext, rfl⟩ := text_first c cs
    have hcs : c :: (body ++ rest) = piece.text ++ rest := by rw [htext, List.cons_append]
    have hsound : piece.Sound rest := sound_first hcs
    rw [hcs] at ih ⊢
    rw [List.drop_left] at ih ⊢
    rw [tokensFrom_cons, errorsFrom_cons, byteSize_append, ← Nat.add_assoc]
    obtain ⟨tail, haccounts, hends⟩ := ih (offset + byteSize piece.text)
    generalize piece = piece at *
    cases piece with
    | blank | lineComment | blockComment => exact ⟨tail, haccounts.trivium hsound, hends⟩
    | token kind text => exact ⟨tail, haccounts.token, hends⟩
    | badNumber text => exact ⟨tail, haccounts.dropped rfl rfl hsound, hends⟩
    | stray c => exact ⟨tail, haccounts.dropped rfl rfl (by simp [text]), hends⟩
    | openComment text =>
      obtain ⟨hopen, rfl⟩ := hsound
      rw [split, List.append_nil]
      exact ⟨text, ⟨[], rfl, .nil⟩, .inr ⟨hopen, _, rfl, rfl⟩⟩

end Piece

/-! ## The scan of a text -/

theorem length_pos_of_mem_tokensOf [Alphabet] {text : String} {t : Token} (h : t ∈ tokensOf text) :
    0 < t.length := by
  obtain ⟨_, _, _, _, hlength⟩ := Span.slice?_eq_some_iff.1 (slice?_of_mem_tokensOf h)
  have hpos := byteSize_pos (TokenKind.ne_nil_of_writes (writes_of_mem_tokensOf h))
  rwa [hlength] at hpos

/-- The tokens of a text stand in order and each is the text at its span. Around them there is only filler,
in which the errors about dropped text are used up one by one; what may be left is a comment that is not
closed, just if there is one error about such a comment, which stands where the comment begins. -/
theorem scan_accounts_for_text [Alphabet] (text : String) :
    ∃ ts tail, (scan text).tokens = ts ++ [Token.endOfFile (byteSize text.toList)] ∧
      (∀ t ∈ ts, t.kind ≠ .endOfFile ∧ 0 < t.length ∧ t.span.slice? text = some t.lexeme) ∧
      ts.Pairwise (fun a b => a.offset < b.offset ∧ a.span.stop ≤ b.offset) ∧
      Accounts tail 0 text.toList ts ((scan text).errors.filter LexicalError.isDrop) ∧
      Piece.Ends tail (byteSize text.toList) ((scan text).errors.filter LexicalError.isOpen) := by
  obtain ⟨tail, haccounts, hends⟩ := Piece.accounts_split text.toList 0
  rw [Nat.zero_add] at hends
  refine ⟨tokensOf text, tail, tokens_scan_eq text, fun t ht => ?_, ?_, haccounts, hends⟩
  · exact ⟨kind_ne_endOfFile t ht, length_pos_of_mem_tokensOf ht, slice?_of_mem_tokensOf ht⟩
  · refine (inOrder_tokensOf text).imp_of_mem fun {a b} ha _ hab => ⟨?_, hab⟩
    have := length_pos_of_mem_tokensOf ha
    simp only [Token.span, Span.stop] at hab
    omega

end ClassCheck
