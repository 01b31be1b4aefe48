import ClassCheck.Grammar.Reader

/-!
# Parsers

A parser is what a routine does to the tokens, without the reader around them: it takes tokens from the front of a list
that ends where the file ends. At the first token that does not fit it stops and says what it expected. There are no
reports and no state but the tokens, so what is read is easier to follow here.
-/

namespace ClassCheck

/-- Where a parser stopped, and why. -/
structure Stop where
  expected : Expected
  rest : List Token
  deriving DecidableEq

abbrev Parser := StateT (List Token) (Except Stop)

namespace Parser

def fail {α : Type} (expected : Expected) : Parser α := fun ts => .error ⟨expected, ts⟩

/-- Takes the next token if `f` knows its kind. -/
def takeIf? {α : Type} (f : Token → Option α) : Parser (Option α)
  | [] => .ok (none, [])
  | t :: ts =>
    match f t with
    | some a => .ok (some a, ts)
    | none => .ok (none, t :: ts)

/-- Takes the next token if it is of this kind. -/
def accept (kind : TokenKind) : Parser (Option Token) :=
  takeIf? fun t => if t.kind = kind then some t else none

def expect (kind : TokenKind) (what : String) : Parser Token := do
  match ← accept kind with
  | some t => return t
  | none => fail (.token what)

def expectIdent (what : String) : Parser Ident := do
  match ← accept .identifier with
  | some t => return ⟨t.lexeme, t.span⟩
  | none => fail (.identifier what)

/-- At most `bound` items, up to where `item` finds none. -/
def manyWithin {α : Type} (item : Parser (Option α)) : Nat → Parser (List α)
  | 0 => return []
  | bound + 1 => do
    match ← item with
    | none => return []
    | some a => return a :: (← manyWithin item bound)

/-- All items up to where `item` finds none. An item takes at least one token, so there are no more
items than tokens. -/
def many {α : Type} (item : Parser (Option α)) : Parser (List α) := fun ts =>
  manyWithin item ts.length ts

/-- All items up to a place where `more` does not hold. -/
def manyWhile {α : Type} (more : List Token → Bool) (item : Parser α) : Parser (List α) :=
  many fun ts => if more ts then (some <$> item) ts else .ok (none, ts)

/-- One item or more, with commas between them. -/
def commaSeparated {α : Type} (item : Parser α) : Parser (List α) := do
  let first ← item
  let others ← many do
    match ← accept .comma with
    | none => return none
    | some _ => return some (← item)
  return first :: others

end Parser

end ClassCheck
