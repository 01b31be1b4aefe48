import ClassCheck.Text.Blank

/-!
# Characters of identifiers

An identifier is a start character and then continuing ones, where the low line may stand for either. Which other
characters these are is left open, up to what a scanner relies on: the words of the language must be identifiers, and
nothing that stands between words may be in one.
-/

namespace ClassCheck

open Text

/-- The characters that begin an identifier, and those that continue it. -/
class Alphabet where
  isStart : Char → Bool
  isContinue : Char → Bool
  isContinue_of_isStart : ∀ c, isStart c = true → isContinue c = true
  isStart_of_isAlpha : ∀ c : Char, c.isAlpha = true → isStart c = true
  isContinue_of_isDigit : ∀ c : Char, c.isDigit = true → isContinue c = true
  not_isStart_of_isDigit : ∀ c : Char, c.isDigit = true → isStart c = false
  not_isContinue_of_isBlank : ∀ c, isBlank c = true → isContinue c = false
  /-- No sign of ASCII but the low line is in an identifier. -/
  isAlphanum_of_isContinue : ∀ c : Char, c.toNat < 0x80 → isContinue c = true → c.isAlphanum = true ∨ c = '_'

namespace Text

def isIdentStart [Alphabet] (c : Char) : Bool := c == '_' || Alphabet.isStart c

def isIdentContinue [Alphabet] (c : Char) : Bool := c == '_' || Alphabet.isContinue c

end Text

end ClassCheck
