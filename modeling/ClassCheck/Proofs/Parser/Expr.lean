import ClassCheck.Grammar.Expr
import ClassCheck.Proofs.Parser.Basic

/-! # Parsers for expressions -/

namespace ClassCheck.Expr

open ClassCheck.Parser

/-! ## Operands -/

/-- What follows `new`, which stands at `start`. -/
def allocation (nested : Parser Expr) (start : Span) : Parser Expr := do
  match ← accept .int with
  | some _ =>
    let _ ← expect .leftBracket "'[' after 'new int'"
    let size ← nested
    let close ← expect .rightBracket "']' after array size"
    return .newArray (start.merge close.span) size
  | none =>
    let className ← expectIdent "class name or 'int' after 'new'"
    let _ ← expect .leftParen "'(' after class name"
    let close ← expect .rightParen "')' in object allocation"
    return .newObject (start.merge close.span) className

/-- What follows an opening parenthesis, which stands at `start`. -/
def parenthesized (nested : Parser Expr) (start : Span) : Parser Expr := do
  let inner ← nested
  let close ← expect .rightParen "')' after expression"
  return .paren (start.merge close.span) inner

/-- A literal, a name, `this`, an allocation or an expression in parentheses. -/
def primary (nested : Parser Expr) : Parser Expr
  | [] => fail .expression []
  | t :: ts =>
    match t.kind with
    | .number =>
      match Literal.read? t.lexeme with
      | some value => .ok (.int t.span value, ts)
      | none => fail (.smallNumber t) ts
    | .trueWord => .ok (.bool t.span true, ts)
    | .falseWord => .ok (.bool t.span false, ts)
    | .identifier => .ok (.ident t.span t.lexeme, ts)
    | .thisWord => .ok (.this t.span, ts)
    | .newWord => allocation nested t.span ts
    | .leftParen => parenthesized nested t.span ts
    | _ => fail .expression (t :: ts)

/-! ## What may follow an operand -/

def arguments (nested : Parser Expr) : Parser (List Expr) := fun ts =>
  if ahead .rightParen ts then .ok ([], ts) else commaSeparated nested ts

def suffix? (nested : Parser Expr) : Parser (Option Suffix) := do
  if let some _ ← accept .leftBracket then
    let position ← nested
    let close ← expect .rightBracket "']' after index"
    return some (.index position close.span)
  else if let some _ ← accept .dot then
    if let some word ← accept .lengthWord then
      return some (.length word.span)
    let method ← expectIdent "method name or 'length' after '.'"
    let _ ← expect .leftParen "'(' after method name"
    let args ← arguments nested
    let close ← expect .rightParen "')' after arguments"
    return some (.call method args close.span)
  else
    return none

/-- An operand with all that follows it. -/
def access (nested : Parser Expr) : Parser Expr := do
  let operand ← primary nested
  let suffixes ← many (suffix? nested)
  return suffixes.foldl attach operand

/-! ## Operators -/

def negation (nested : Parser Expr) : Parser Expr
  | [] => access nested []
  | t :: ts =>
    if t.kind = .bang then do
      let (operand, rest) ← negation nested ts
      return (.not (t.span.merge operand.span) operand, rest)
    else access nested (t :: ts)

section

variable {nested : Parser Expr} {t : Token} {ts : List Token}

theorem negation_cons (ht : t.kind = .bang) :
    negation nested (t :: ts) = (do
      let operand ← negation nested
      return .not (t.span.merge operand.span) operand : Parser Expr) ts := by
  rw [negation, if_pos ht]
  rfl

theorem negation_of_not_ahead (h : ahead .bang ts = false) : negation nested ts = access nested ts := by
  cases ts with
  | nil => rfl
  | cons t ts =>
    rw [negation, if_neg]
    simpa [ahead] using h

end

/-- An operator and its right operand. -/
def operation? (op? : TokenKind → Option BinaryOp) (operand : Parser Expr) :
    Parser (Option (BinaryOp × Expr)) := do
  match ← takeIf? fun t => op? t.kind with
  | none => return none
  | some op => return some (op, ← operand)

/-- Operands with operators of one level between them. -/
def chain (op? : TokenKind → Option BinaryOp) (operand : Parser Expr) : Parser Expr := do
  let first ← operand
  let others ← many (operation? op? operand)
  return others.foldl joinNext first

def product (nested : Parser Expr) : Parser Expr := chain productOp? (negation nested)

def sum (nested : Parser Expr) : Parser Expr := chain sumOp? (product nested)

def comparison (nested : Parser Expr) : Parser Expr := chain comparisonOp? (sum nested)

def conjunction (nested : Parser Expr) : Parser Expr := chain conjunctionOp? (comparison nested)

/-- An expression whose brackets nest less than `depth` deep. -/
def parseWithin : Nat → Parser Expr
  | 0 => fail .expression
  | depth + 1 => conjunction (parseWithin depth)

/-- An expression. Brackets cannot nest deeper than there are tokens. -/
def parse : Parser Expr := fun ts => parseWithin (ts.length + 1) ts

end ClassCheck.Expr
