/-!
# Numbers as they are written

A number is a row of decimal digits, with or without a sign before it, and fits in 32 bits.
-/

namespace ClassCheck.Literal

def digitsValue (digits : List Char) : Nat :=
  digits.foldl (fun n c => 10 * n + (c.toNat - '0'.toNat)) 0

/-- The value of a row of digits, which must not be empty. -/
def readDigits? (cs : List Char) : Option Nat :=
  if cs ≠ [] ∧ cs.all Char.isDigit then some (digitsValue cs) else none

def readSigned? : List Char → Option Int
  | '-' :: cs => (readDigits? cs).map fun n => -(n : Int)
  | '+' :: cs => (readDigits? cs).map Int.ofNat
  | cs => (readDigits? cs).map Int.ofNat

/-- Whether a value fits in 32 bits. -/
def Fits (n : Int) : Prop := -2147483648 ≤ n ∧ n ≤ 2147483647

instance (n : Int) : Decidable (Fits n) := inferInstanceAs (Decidable (_ ∧ _))

def read? (lexeme : String) : Option Int :=
  (readSigned? lexeme.toList).filter fun n => decide (Fits n)

end ClassCheck.Literal
