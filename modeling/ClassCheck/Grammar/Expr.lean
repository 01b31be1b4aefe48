import ClassCheck.Grammar.Literal
import ClassCheck.Grammar.Reader

/-!
# Reading expressions

From loose to tight: `&&`, `<`, `+` and `-`, `*`, `!`, then indexing, `.length` and calls, then what
needs no operator. Binary operators group to the left. A nested expression always stands in
brackets, so routines for the levels take the routine for nested expressions as an argument, and
depth bounds the recursion.
-/

namespace ClassCheck

/-! ## Operators and suffixes -/

namespace Expr

/-- An index, `.length` or a call, and the last token of each. -/
inductive Suffix where
  | index (position : Expr) (close : Span)
  | length (close : Span)
  | call (method : Ident) (args : List Expr) (close : Span)

def attach (e : Expr) : Suffix → Expr
  | .index position close => .index (e.span.merge close) e position
  | .length close => .length (e.span.merge close) e
  | .call method args close => .call (e.span.merge close) e method args

def join (left : Expr) (op : BinaryOp) (right : Expr) : Expr :=
  .binary (left.span.merge right.span) op left right

/-- Joins the next operand to what there is, by the operator before it. -/
def joinNext (left : Expr) (next : BinaryOp × Expr) : Expr := join left next.1 next.2

def productOp? : TokenKind → Option BinaryOp
  | .star => some .mul
  | _ => none

def sumOp? : TokenKind → Option BinaryOp
  | .plus => some .add
  | .minus => some .sub
  | _ => none

def comparisonOp? : TokenKind → Option BinaryOp
  | .less => some .less
  | _ => none

def conjunctionOp? : TokenKind → Option BinaryOp
  | .andAnd => some .and
  | _ => none

end Expr

namespace Routine

open ClassCheck.Expr

/-! ## Operands -/

/-- What follows `new`, which stands at `start`. -/
def allocation (nested : Routine Expr) (start : Span) : Routine Expr := do
  match ← accept .int with
  | some _ =>
    let _ ← expect .leftBracket "'[' after 'new int'"
    let size ← nested
    let close ← expect .rightBracket "']' after array size"
    return .newArray (start.merge close.span) size
  | none =>
    let className ← expectIdent "class name or 'int' after 'new'"
    let _ ← expect .leftParen "'(' after class name"
    let close ← expect .rightParen "')' in object allocation"
    return .newObject (start.merge close.span) className

/-- What follows an opening parenthesis, which stands at `start`. -/
def parenthesized (nested : Routine Expr) (start : Span) : Routine Expr := do
  let inner ← nested
  let close ← expect .rightParen "')' after expression"
  return .paren (start.merge close.span) inner

/-- The value of a number, which has been taken. -/
def number (literal : Token) : Routine Expr := do
  match Literal.read? literal.lexeme with
  | some value => return .int literal.span value
  | none =>
    reportNumber literal
    failure

/-- A literal, a name, `this`, an allocation or an expression in parentheses. -/
def primary (nested : Routine Expr) : Routine Expr := do
  match ← peek with
  | none =>
    report .expression
    failure
  | some t =>
    match t.kind with
    | .number =>
      advance
      number t
    | .trueWord =>
      advance
      return .bool t.span true
    | .falseWord =>
      advance
      return .bool t.span false
    | .identifier =>
      advance
      return .ident t.span t.lexeme
    | .thisWord =>
      advance
      return .this t.span
    | .newWord =>
      advance
      allocation nested t.span
    | .leftParen =>
      advance
      parenthesized nested t.span
    | _ =>
      report .expression
      failure

/-! ## What may follow an operand -/

def arguments (nested : Routine Expr) : Routine (List Expr) := do
  if ahead .rightParen (← get).rest then return [] else commaSeparated nested

def suffix? (nested : Routine Expr) : Routine (Option Suffix) := do
  if let some _ ← accept .leftBracket then
    let position ← nested
    let close ← expect .rightBracket "']' after index"
    return some (.index position close.span)
  else if let some _ ← accept .dot then
    if let some word ← accept .lengthWord then
      return some (.length word.span)
    let method ← expectIdent "method name or 'length' after '.'"
    let _ ← expect .leftParen "'(' after method name"
    let args ← arguments nested
    let close ← expect .rightParen "')' after arguments"
    return some (.call method args close.span)
  else
    return none

/-- An operand with all that follows it. -/
def access (nested : Routine Expr) : Routine Expr := do
  fold (suffix? nested) attach (← primary nested)

/-! ## Operators -/

/-- At most `bound` signs, and what they negate. -/
def negationWithin (nested : Routine Expr) : Nat → Routine Expr
  | 0 => access nested
  | bound + 1 => do
    match ← accept .bang with
    | some sign =>
      let operand ← negationWithin nested bound
      return .not (sign.span.merge operand.span) operand
    | none => access nested

/-- There are no more signs than tokens. -/
def negation (nested : Routine Expr) : Routine Expr := do
  negationWithin nested (← get).rest.length

/-- An operator of one level and the operand after it. -/
def operation? (op? : TokenKind → Option BinaryOp) (operand : Routine Expr) : Routine (Option (BinaryOp × Expr)) := do
  match ← takeIf? fun t => op? t.kind with
  | none => return none
  | some op => return some (op, ← operand)

/-- Operands with operators of one level between them. -/
def chain (op? : TokenKind → Option BinaryOp) (operand : Routine Expr) : Routine Expr := do
  fold (operation? op? operand) joinNext (← operand)

def product (nested : Routine Expr) : Routine Expr := chain productOp? (negation nested)

def sum (nested : Routine Expr) : Routine Expr := chain sumOp? (product nested)

def comparison (nested : Routine Expr) : Routine Expr := chain comparisonOp? (sum nested)

def conjunction (nested : Routine Expr) : Routine Expr := chain conjunctionOp? (comparison nested)

/-- An expression whose brackets nest less than `depth` deep. -/
def expressionWithin : Nat → Routine Expr
  | 0 => do
    report .expression
    failure
  | depth + 1 => conjunction (expressionWithin depth)

/-- An expression. Brackets cannot nest deeper than there are tokens. -/
def expression : Routine Expr := do
  expressionWithin ((← get).rest.length + 1)

end Routine

end ClassCheck
