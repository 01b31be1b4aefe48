import ClassCheck.Diagnostic.Basic
import ClassCheck.Token.Piece

/-!
# The tokens of a source

Text that no token can hold is reported and left out, so one scan finds every lexical error.
-/

namespace ClassCheck

/-! ## Lexical errors -/

inductive LexicalCause where
  | strayCharacter (c : Char)
  | openComment
  | badNumber (text : String)
  deriving DecidableEq

structure LexicalError where
  cause : LexicalCause
  span : Span
  deriving DecidableEq

namespace LexicalCause

def code : LexicalCause → String
  | .strayCharacter _ => "E001"
  | .openComment => "E002"
  | .badNumber _ => "E003"

def message : LexicalCause → String
  | .strayCharacter c => "unexpected character '" ++ String.singleton c ++ "'"
  | .openComment => "unterminated block comment"
  | .badNumber text => "invalid integer literal '" ++ text ++ "'"

def help? : LexicalCause → Option String
  | .openComment => some "add a closing '*/'"
  | _ => none

end LexicalCause

def LexicalError.diagnostic (source : Source) (e : LexicalError) : Diagnostic :=
  Diagnostic.pointAt source e.span ""
    { level := .error, code := e.cause.code, message := e.cause.message, help := e.cause.help? }

/-! ## Tokens and errors, piece by piece -/

namespace Piece

def token? (offset : Nat) : Piece → Option Token
  | .token kind text => some ⟨kind, String.ofList text, offset, byteSize text⟩
  | _ => none

/-- Of an open comment only the two characters that open it are marked. -/
def error? (offset : Nat) : Piece → Option LexicalError
  | .stray c => some ⟨.strayCharacter c, offset, c.utf8Size⟩
  | .badNumber text => some ⟨.badNumber (String.ofList text), offset, byteSize text⟩
  | .openComment _ => some ⟨.openComment, offset, 2⟩
  | _ => none

/-- Each piece with the offset at which it begins, if the first begins at `offset`. -/
def placeFrom (offset : Nat) : List Piece → List (Nat × Piece)
  | [] => []
  | piece :: rest => (offset, piece) :: placeFrom (offset + byteSize piece.text) rest

theorem map_snd_placeFrom (offset : Nat) (pieces : List Piece) :
    (placeFrom offset pieces).map Prod.snd = pieces := by
  induction pieces generalizing offset with
  | nil => rfl
  | cons piece rest ih => rw [placeFrom, List.map_cons, ih]

/-- The pieces of a text, each with its offset. -/
def placed [Alphabet] (text : List Char) : List (Nat × Piece) := placeFrom 0 (split text)

end Piece

structure Scan where
  tokens : List Token
  errors : List LexicalError
  deriving DecidableEq

/-- The tokens of a text, with `endOfFile` after the last one, and the errors. Both are in the order
of the text. -/
def scan [Alphabet] (text : String) : Scan :=
  let pieces := Piece.placed text.toList
  { tokens := pieces.filterMap (fun (offset, piece) => piece.token? offset) ++
      [Token.endOfFile (byteSize text.toList)]
    errors := pieces.filterMap fun (offset, piece) => piece.error? offset }

end ClassCheck
