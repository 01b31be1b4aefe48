import ClassCheck.Text.Blank
import ClassCheck.Text.Alphabet
import ClassCheck.Token.Basic

/-!
# Cutting a text into pieces

Every character of a text belongs to exactly one piece: white space, a comment, a token, or text
that no token can hold. Put end to end, the pieces give the text back (`texts_split`).
-/

namespace ClassCheck

open Text

inductive Piece where
  | blank (c : Char)
  /-- From two slashes to the end of the line, which is not part of it. -/
  | lineComment (text : List Char)
  | blockComment (text : List Char)
  /-- A block comment that is never closed: it runs to the end of the text. -/
  | openComment (text : List Char)
  | token (kind : TokenKind) (text : List Char)
  /-- Digits that run into letters. -/
  | badNumber (text : List Char)
  /-- A character that begins nothing. -/
  | stray (c : Char)
  deriving DecidableEq

namespace Piece

/-- The text that a piece covers. -/
def text : Piece → List Char
  | .blank c | .stray c => [c]
  | .lineComment text | .blockComment text | .openComment text | .badNumber text => text
  | .token _ text => text

/-! ## The first piece of a text -/

/-- The text up to the first `*/` and with it, and the text after it. -/
def splitClose : List Char → Option (List Char × List Char)
  | [] => none
  | '*' :: '/' :: cs => some (['*', '/'], cs)
  | c :: cs => (splitClose cs).map fun (body, rest) => (c :: body, rest)

/-- What `//` begins, where `cs` stands after the two slashes. -/
def lineCommentOf (cs : List Char) : Piece := .lineComment ('/' :: '/' :: cs.takeWhile (· != '\n'))

/-- What `/*` begins, where `cs` stands after the two characters. -/
def blockCommentOf (cs : List Char) : Piece :=
  match splitClose cs with
  | some (body, _) => .blockComment ('/' :: '*' :: body)
  | none => .openComment ('/' :: '*' :: cs)

/-- The print word counts only if no identifier goes on after it. -/
def isPrintWord [Alphabet] (cs : List Char) : Bool :=
  TokenKind.printWord.isPrefixOf cs && !(cs.drop TokenKind.printWord.length).head?.any isIdentContinue

/-- An identifier, a keyword or the print word. It begins at `c`. -/
def word [Alphabet] (c : Char) (cs : List Char) : Piece :=
  if isPrintWord (c :: cs) then .token .print TokenKind.printWord
  else
    let text := c :: cs.takeWhile isIdentContinue
    .token (TokenKind.ofWord text) text

/-- A decimal number, which must not run into an identifier. It begins at the digit `c`. -/
def number [Alphabet] (c : Char) (cs : List Char) : Piece :=
  let digits := c :: cs.takeWhile Char.isDigit
  match (cs.dropWhile Char.isDigit).takeWhile isIdentContinue with
  | [] => .token .number digits
  | tail => .badNumber (digits ++ tail)

def sign (c : Char) (cs : List Char) : Piece :=
  if c == '&' && cs.head? == some '&' then .token .andAnd ['&', '&']
  else
    match TokenKind.ofSign? c with
    | some kind => .token kind [c]
    | none => .stray c

/-- The piece at the front of a text that begins with `c`. -/
def first [Alphabet] (c : Char) (cs : List Char) : Piece :=
  if isBlank c then .blank c
  else
    match c, cs with
    | '/', '/' :: rest => lineCommentOf rest
    | '/', '*' :: rest => blockCommentOf rest
    | _, _ =>
      if c.isDigit then number c cs
      else if isIdentStart c then word c cs
      else sign c cs

/-! ## A piece is a non-empty part of the text -/

theorem splitClose_append {cs body rest : List Char} (h : splitClose cs = some (body, rest)) :
    body ++ rest = cs := by
  fun_induction splitClose cs generalizing body rest with
  | case1 => simp at h
  | case2 cs => simp at h; simp [← h.1, ← h.2]
  | case3 c cs _ ih =>
    obtain ⟨⟨b, r⟩, hb, he⟩ := Option.map_eq_some_iff.1 h
    simp only [Prod.mk.injEq] at he
    simp [← he.1, ← he.2, ih hb]

theorem text_blockCommentOf (cs : List Char) :
    ∃ body rest, (blockCommentOf cs).text = '/' :: '*' :: body ∧ body ++ rest = cs := by
  unfold blockCommentOf
  split
  · next body rest h => exact ⟨body, rest, rfl, splitClose_append h⟩
  · exact ⟨cs, [], rfl, by simp⟩

theorem text_number [Alphabet] (c : Char) (cs : List Char) :
    ∃ body rest, (number c cs).text = c :: body ∧ body ++ rest = cs := by
  unfold number
  split
  · exact ⟨_, _, rfl, List.takeWhile_append_dropWhile⟩
  · refine ⟨cs.takeWhile Char.isDigit ++ (cs.dropWhile Char.isDigit).takeWhile isIdentContinue,
      (cs.dropWhile Char.isDigit).dropWhile isIdentContinue, rfl, ?_⟩
    rw [List.append_assoc, List.takeWhile_append_dropWhile, List.takeWhile_append_dropWhile]

theorem text_word [Alphabet] (c : Char) (cs : List Char) :
    ∃ body rest, (word c cs).text = c :: body ∧ body ++ rest = cs := by
  unfold word
  split
  · next h =>
    simp only [isPrintWord, Bool.and_eq_true, List.isPrefixOf_iff_prefix] at h
    obtain ⟨rest, hr⟩ := h.1
    obtain ⟨hc, hcs⟩ := List.cons.inj hr
    exact ⟨_, rest, by rw [← hc]; rfl, hcs⟩
  · exact ⟨_, _, rfl, List.takeWhile_append_dropWhile⟩

theorem text_sign (c : Char) (cs : List Char) :
    ∃ body rest, (sign c cs).text = c :: body ∧ body ++ rest = cs := by
  unfold sign
  split
  · next h =>
    simp only [Bool.and_eq_true, beq_iff_eq] at h
    obtain ⟨ds, rfl⟩ := List.head?_eq_some_iff.1 h.2
    exact ⟨['&'], ds, by rw [h.1]; rfl, rfl⟩
  · split <;> exact ⟨[], cs, rfl, rfl⟩

theorem text_first [Alphabet] (c : Char) (cs : List Char) :
    ∃ body rest, (first c cs).text = c :: body ∧ body ++ rest = cs := by
  unfold first
  split
  · exact ⟨[], cs, rfl, rfl⟩
  split
  · next after _ =>
    exact ⟨_, after.dropWhile (· != '\n'), rfl, by simp⟩
  · next after _ =>
    obtain ⟨body, rest, hb, rfl⟩ := text_blockCommentOf after
    exact ⟨_, rest, hb, by simp⟩
  split
  · exact text_number c cs
  split
  · exact text_word c cs
  · exact text_sign c cs

/-! ## All pieces of a text -/

/-- The pieces of a text, in order. -/
def split [Alphabet] : List Char → List Piece
  | [] => []
  | c :: cs =>
    let piece := first c cs
    piece :: split ((c :: cs).drop piece.text.length)
  termination_by cs => cs.length
  decreasing_by
    obtain ⟨body, _, h, _⟩ := text_first c cs
    simp only [h, List.length_drop, List.length_cons]
    omega

theorem texts_split [Alphabet] (cs : List Char) : (split cs).flatMap text = cs := by
  fun_induction split cs with
  | case1 => rfl
  | case2 c cs piece ih =>
    obtain ⟨body, rest, h, rfl⟩ := text_first c cs
    rw [List.flatMap_cons, ih, h]
    simp

end Piece

end ClassCheck
