import ClassCheck.Diagnostic.Basic
import ClassCheck.Program.Basic
import ClassCheck.Token.Basic

/-!
# Readers and routines

A reader keeps its place in the tokens of a file, and the errors that it has reported. After an error it is lost: it
reports no further errors until it finds its way again. A number that does not fit is reported all the same, and does
not make the reader lost.

A routine reads something from where the reader is, or refuses. To refuse and to report are two things: a routine that
refuses says so before, and what it is part of is refused without another word.
-/

namespace ClassCheck

/-! ## Syntax errors -/

/-- What is expected at a place. -/
inductive Expected where
  | token (what : String)
  | identifier (what : String)
  | type
  | statement
  | expression
  /-- A number that fits in 32 bits. The literal has been taken already. -/
  | smallNumber (literal : Token)
  deriving DecidableEq

/-- What was expected, and the token that stands there instead. -/
structure SyntaxError where
  expected : Expected
  found : Token
  deriving DecidableEq

namespace SyntaxError

def code (e : SyntaxError) : String :=
  match e.expected with
  | .token _ => "E100"
  | .expression => "E101"
  | .statement => "E102"
  | .type => "E103"
  | .identifier _ => "E104"
  | .smallNumber _ => "E105"

def message (e : SyntaxError) : String :=
  match e.expected with
  | .token what | .identifier what => "expected " ++ what
  | .expression => "expected expression, found '" ++ e.found.lexeme ++ "'"
  | .statement => "expected statement, found '" ++ e.found.lexeme ++ "'"
  | .type => "expected type, found '" ++ e.found.lexeme ++ "'"
  | .smallNumber literal => "integer literal '" ++ literal.lexeme ++ "' does not fit in an int"

/-- The message at the underline. -/
def label (e : SyntaxError) : String :=
  match e.expected with
  | .smallNumber _ => ""
  | _ => if e.found.kind = .endOfFile then "found end of file" else "found '" ++ e.found.lexeme ++ "'"

def diagnostic (source : Source) (e : SyntaxError) : Diagnostic :=
  Diagnostic.pointAt source e.found.span e.label
    { level := .error, code := e.code, message := e.message }

end SyntaxError

/-! ## Readers -/

structure Reader where
  /-- The tokens that have not been taken. -/
  rest : List Token
  /-- The end of the file. -/
  stop : Token
  lost : Bool := false
  errors : List SyntaxError := []

namespace Reader

/-- A reader at the start of a list of tokens. Nothing after the first `endOfFile` is read. A list without one ends
where its last token ends, whatever natural number that is. -/
def ofTokens (tokens : List Token) : Reader :=
  { rest := tokens.takeWhile (·.kind != .endOfFile)
    stop :=
      match tokens.find? (·.kind == .endOfFile) with
      | some t => t
      | none => Token.endOfFile ((tokens.getLast?.map (·.span.stop)).getD 0) }

/-- The next token, or the end of the file. -/
def next (r : Reader) : Token := r.rest.headD r.stop

/-- Reports that something else is expected here, and makes the reader lost. If it is lost already, nothing happens. -/
def complain (r : Reader) (expected : Expected) : Reader :=
  if r.lost then r else { r with lost := true, errors := r.errors ++ [⟨expected, r.next⟩] }

/-- Reports a number that does not fit. -/
def complainOfNumber (r : Reader) (literal : Token) : Reader :=
  { r with errors := r.errors ++ [⟨.smallNumber literal, literal⟩] }

end Reader

/-! ## Routines -/

/-- Whether the next token is of this kind. -/
def ahead (kind : TokenKind) (ts : List Token) : Bool := ts.head?.any (·.kind == kind)

/-- Gives what it has read, if it does not refuse, and the reader after it. -/
abbrev Routine := OptionT (StateM Reader)

namespace Routine

variable {α β : Type}

def peek : Routine (Option Token) := return (← get).rest.head?

/-- Goes past the next token. At the end of the file there is none. -/
def advance : Routine Unit := modify fun r => { r with rest := r.rest.tail }

def report (expected : Expected) : Routine Unit := modify (·.complain expected)

def reportNumber (literal : Token) : Routine Unit := modify (·.complainOfNumber literal)

/-- Takes the next token if `f` knows its kind. -/
def takeIf? (f : Token → Option α) : Routine (Option α) := do
  match (← peek).bind f with
  | none => return none
  | some a =>
    advance
    return some a

/-- Takes the next token if it is of this kind. -/
def accept (kind : TokenKind) : Routine (Option Token) :=
  takeIf? fun t => if t.kind = kind then some t else none

def expect (kind : TokenKind) (what : String) : Routine Token := do
  match ← accept kind with
  | some t => return t
  | none =>
    report (.token what)
    failure

def expectIdent (what : String) : Routine Ident := do
  match ← accept .identifier with
  | some t => return ⟨t.lexeme, t.span⟩
  | none =>
    report (.identifier what)
    failure

/-! ### Loops -/

/-- Puts items onto what there is, in at most `bound` rounds, up to where `item` finds none. -/
def foldWithin (item : Routine (Option α)) (f : β → α → β) : Nat → β → Routine β
  | 0, b => return b
  | bound + 1, b => do
    match ← item with
    | none => return b
    | some a => foldWithin item f bound (f b a)

/-- Puts all items onto what there is. An item takes at least one token, so there are no more rounds than tokens. -/
def fold (item : Routine (Option α)) (f : β → α → β) (b : β) : Routine β := do
  foldWithin item f (← get).rest.length b

def push (items : List α) (item : α) : List α := items ++ [item]

/-- An item, if `more` holds. -/
def itemWhile (more : List Token → Bool) (item : Routine α) : Routine (Option α) := do
  if more (← get).rest then return some (← item) else return none

/-- All items up to a place where `more` does not hold. -/
def manyWhile (more : List Token → Bool) (item : Routine α) : Routine (List α) :=
  fold (itemWhile more item) push []

/-- An item, if there is a comma before it. -/
def itemAfterComma (item : Routine α) : Routine (Option α) := do
  match ← accept .comma with
  | none => return none
  | some _ => return some (← item)

/-- One item or more, with commas between them. -/
def commaSeparated (item : Routine α) : Routine (List α) := do
  let first ← item
  fold (itemAfterComma item) push [first]

end Routine

end ClassCheck
