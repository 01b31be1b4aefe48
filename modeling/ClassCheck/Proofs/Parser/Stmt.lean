import ClassCheck.Grammar.Stmt
import ClassCheck.Proofs.Parser.Expr

/-! # Parsers for statements -/

namespace ClassCheck.Stmt

open ClassCheck.Parser

/-- Statements up to a token at which `ends` holds, or to the end of the file. -/
def sequence (statement : Parser Stmt) (ends : List Token → Bool) : Parser (List Stmt) :=
  manyWhile (fun ts => !ts.isEmpty && !ends ts) statement

/-- What follows the opening brace. -/
def blockBody (nested : Parser Stmt) : Parser Stmt := do
  let body ← sequence nested (ahead .rightBrace)
  let _ ← expect .rightBrace "'\x7d' after block"
  return .block body

/-- What follows the name in `x = e;` or `x[i] = e;`. -/
def assignment (target : Ident) : Parser Stmt := do
  match ← accept .leftBracket with
  | some _ =>
    let position ← Expr.parse
    let _ ← expect .rightBracket "']' after index"
    let _ ← expect .equal "'=' in array assignment"
    let value ← Expr.parse
    let _ ← expect .semicolon "';' after assignment"
    return .arrayAssign target position value
  | none =>
    let _ ← expect .equal "'=' after variable name"
    let value ← Expr.parse
    let _ ← expect .semicolon "';' after assignment"
    return .assign target value

/-- What follows `if`. The else branch must be there. -/
def conditional (nested : Parser Stmt) : Parser Stmt := do
  let _ ← expect .leftParen "'(' after 'if'"
  let condition ← Expr.parse
  let _ ← expect .rightParen "')' after if condition"
  let thenBranch ← nested
  let _ ← expect .elseWord "'else' after if branch"
  let elseBranch ← nested
  return .ifElse condition thenBranch elseBranch

/-- What follows `while`. -/
def whileLoop (nested : Parser Stmt) : Parser Stmt := do
  let _ ← expect .leftParen "'(' after 'while'"
  let condition ← Expr.parse
  let _ ← expect .rightParen "')' after while condition"
  let body ← nested
  return .loop condition body

/-- What follows the print word. -/
def printStmt : Parser Stmt := do
  let _ ← expect .leftParen "'(' after 'System.out.println'"
  let value ← Expr.parse
  let _ ← expect .rightParen "')' after print argument"
  let _ ← expect .semicolon "';' after print statement"
  return .print value

/-- The first token of a statement says which one it is. -/
def ofFirst (nested : Parser Stmt) : Parser Stmt
  | [] => fail .statement []
  | t :: ts =>
    match t.kind with
    | .leftBrace => blockBody nested ts
    | .ifWord => conditional nested ts
    | .whileWord => whileLoop nested ts
    | .print => printStmt ts
    | .identifier => assignment ⟨t.lexeme, t.span⟩ ts
    | _ => fail .statement (t :: ts)

/-- A statement that nests others less than `depth` deep. -/
def parseWithin : Nat → Parser Stmt
  | 0 => fail .statement
  | depth + 1 => ofFirst (parseWithin depth)

/-- A statement. Statements cannot nest deeper than there are tokens. -/
def parse : Parser Stmt := fun ts => parseWithin (ts.length + 1) ts

end ClassCheck.Stmt
