import ClassCheck.Token.Scan

/-!
# The texts of tokens

A scanned token is written as its kind asks: a number in digits, an identifier in the characters of
identifiers, and every other kind in the one way in which it can be written.
-/

namespace ClassCheck

open Text

namespace TokenKind

/-- A text that a token of this kind can have. The end of the file has none. -/
def Writes [Alphabet] : TokenKind → List Char → Prop
  | .number, text => text ≠ [] ∧ ∀ c ∈ text, c.isDigit = true
  | .identifier, text =>
    keywords.lookup text = none ∧
      ∃ c cs, text = c :: cs ∧ isIdentStart c = true ∧ ∀ d ∈ cs, isIdentContinue d = true
  | .endOfFile, _ => False
  | kind, text => kind.spelling? = some text

/-- The kinds that are not all written alike, and the one that is not written at all. -/
def loose : List TokenKind := [.number, .identifier, .endOfFile]

theorem writes_of_not_loose [Alphabet] {k : TokenKind} (hk : k ∉ loose) (text : List Char) :
    k.Writes text ↔ k.spelling? = some text := by
  unfold Writes
  split
  · simp [loose] at hk
  · simp [loose] at hk
  · simp [loose] at hk
  · rfl

theorem ne_endOfFile_of_writes [Alphabet] {kind : TokenKind} {text : List Char} (h : kind.Writes text) :
    kind ≠ .endOfFile := by
  rintro rfl
  exact h

theorem ne_nil_of_writes [Alphabet] {kind : TokenKind} {text : List Char} (h : kind.Writes text) : text ≠ [] := by
  rintro rfl
  have hspelled : ∀ k : TokenKind, k.spelling? = some [] → k = .endOfFile := by
    intro k
    cases k <;> decide
  unfold Writes at h
  split at h
  · exact h.1 rfl
  · simp at h
  · exact h
  · next hk => exact hk (hspelled _ h)

theorem writes_keyword [Alphabet] : ∀ entry ∈ keywords, entry.2.Writes entry.1 := by
  have hspelling : ∀ entry ∈ keywords, entry.2 ∉ loose ∧ entry.2.spelling? = some entry.1 := by
    decide
  intro entry h
  exact (writes_of_not_loose (hspelling entry h).1 _).2 (hspelling entry h).2

theorem writes_sign [Alphabet] : ∀ entry ∈ signs, entry.2.Writes [entry.1] := by
  have hspelling : ∀ entry ∈ signs, entry.2 ∉ loose ∧ entry.2.spelling? = some [entry.1] := by
    decide
  intro entry h
  exact (writes_of_not_loose (hspelling entry h).1 _).2 (hspelling entry h).2

end TokenKind

namespace Piece

/-- A token among the pieces is written as its kind asks. -/
def Written [Alphabet] : Piece → Prop
  | .token kind text => kind.Writes text
  | _ => True

theorem written_number [Alphabet] {c : Char} (hc : c.isDigit = true) (cs : List Char) :
    (number c cs).Written := by
  unfold number
  split
  · refine ⟨by simp, List.forall_mem_cons.2 ⟨hc, fun d hd => ?_⟩⟩
    exact List.all_eq_true.1 List.all_takeWhile d hd
  · trivial

theorem mem_of_lookup {α β : Type} [BEq α] [LawfulBEq α] {entries : List (α × β)} {a : α} {b : β}
    (h : entries.lookup a = some b) : (a, b) ∈ entries := by
  obtain ⟨before, after, rfl, -⟩ := List.lookup_eq_some_iff.1 h
  simp

theorem written_word [Alphabet] {c : Char} (hc : isIdentStart c = true) (cs : List Char) :
    (word c cs).Written := by
  unfold word
  split
  · exact (TokenKind.writes_of_not_loose (k := .print) (by decide) _).2 rfl
  · change (TokenKind.ofWord _).Writes _
    rw [TokenKind.ofWord]
    cases hk : TokenKind.keywords.lookup (c :: cs.takeWhile isIdentContinue) with
    | none => exact ⟨hk, c, _, rfl, hc, fun d hd => List.all_eq_true.1 List.all_takeWhile d hd⟩
    | some kind => exact TokenKind.writes_keyword (_, kind) (mem_of_lookup hk)

theorem written_sign [Alphabet] (c : Char) (cs : List Char) : (sign c cs).Written := by
  unfold sign
  split
  · exact (TokenKind.writes_of_not_loose (k := .andAnd) (by decide) _).2 rfl
  · split
    · next kind hk => exact TokenKind.writes_sign (c, kind) (mem_of_lookup hk)
    · trivial

theorem written_first [Alphabet] (c : Char) (cs : List Char) : (first c cs).Written := by
  unfold first
  split
  · trivial
  split
  · trivial
  · unfold blockCommentOf
    split <;> trivial
  split
  · next hc => exact written_number hc cs
  split
  · next hc => exact written_word hc cs
  · exact written_sign c cs

theorem written_split [Alphabet] (cs : List Char) : ∀ piece ∈ split cs, piece.Written := by
  fun_induction split cs with
  | case1 => simp
  | case2 c cs piece ih => exact List.forall_mem_cons.2 ⟨written_first c cs, ih⟩

end Piece

theorem tokens_scan [Alphabet] (text : String) :
    ∃ ts, (scan text).tokens = ts ++ [Token.endOfFile (byteSize text.toList)] ∧
      ∀ t ∈ ts, t.kind.Writes t.lexeme.toList := by
  refine ⟨_, rfl, fun t ht => ?_⟩
  obtain ⟨⟨offset, piece⟩, hmem, hpiece⟩ := List.mem_filterMap.1 ht
  have hsplit : piece ∈ Piece.split text.toList := by
    rw [← Piece.map_snd_placeFrom 0 (Piece.split text.toList)]
    exact List.mem_map_of_mem (f := Prod.snd) hmem
  have hwritten := Piece.written_split text.toList piece hsplit
  cases piece with
  | token kind cs =>
    obtain rfl := Option.some.inj hpiece
    rw [String.toList_ofList]
    exact hwritten
  | blank | lineComment | blockComment | openComment | badNumber | stray =>
    simp [Piece.token?] at hpiece

end ClassCheck
