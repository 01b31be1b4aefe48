import ClassCheck.Grammar.Expr

/-! # Reading statements -/

namespace ClassCheck.Routine

/-- Statements up to a token at which `ends` holds, or to the end of the file. -/
def sequence (statement : Routine Stmt) (ends : List Token → Bool) : Routine (List Stmt) :=
  manyWhile (fun ts => !ts.isEmpty && !ends ts) statement

/-- What follows the opening brace. -/
def blockBody (nested : Routine Stmt) : Routine Stmt := do
  let body ← sequence nested (ahead .rightBrace)
  let _ ← expect .rightBrace "'\x7d' after block"
  return .block body

/-- What follows the name in `x = e;` or `x[i] = e;`. -/
def assignment (target : Ident) : Routine Stmt := do
  match ← accept .leftBracket with
  | some _ =>
    let position ← expression
    let _ ← expect .rightBracket "']' after index"
    let _ ← expect .equal "'=' in array assignment"
    let value ← expression
    let _ ← expect .semicolon "';' after assignment"
    return .arrayAssign target position value
  | none =>
    let _ ← expect .equal "'=' after variable name"
    let value ← expression
    let _ ← expect .semicolon "';' after assignment"
    return .assign target value

/-- What follows `if`. The else branch must be there. -/
def conditional (nested : Routine Stmt) : Routine Stmt := do
  let _ ← expect .leftParen "'(' after 'if'"
  let condition ← expression
  let _ ← expect .rightParen "')' after if condition"
  let thenBranch ← nested
  let _ ← expect .elseWord "'else' after if branch"
  let elseBranch ← nested
  return .ifElse condition thenBranch elseBranch

/-- What follows `while`. -/
def whileLoop (nested : Routine Stmt) : Routine Stmt := do
  let _ ← expect .leftParen "'(' after 'while'"
  let condition ← expression
  let _ ← expect .rightParen "')' after while condition"
  let body ← nested
  return .loop condition body

/-- What follows the print word. -/
def printStmt : Routine Stmt := do
  let _ ← expect .leftParen "'(' after 'System.out.println'"
  let value ← expression
  let _ ← expect .rightParen "')' after print argument"
  let _ ← expect .semicolon "';' after print statement"
  return .print value

/-- The first token of a statement says which one it is. -/
def statementFrom (nested : Routine Stmt) : Routine Stmt := do
  match ← peek with
  | none =>
    report .statement
    failure
  | some t =>
    match t.kind with
    | .leftBrace =>
      advance
      blockBody nested
    | .ifWord =>
      advance
      conditional nested
    | .whileWord =>
      advance
      whileLoop nested
    | .print =>
      advance
      printStmt
    | .identifier =>
      advance
      assignment ⟨t.lexeme, t.span⟩
    | _ =>
      report .statement
      failure

/-- A statement that nests others less than `depth` deep. -/
def statementWithin : Nat → Routine Stmt
  | 0 => do
    report .statement
    failure
  | depth + 1 => statementFrom (statementWithin depth)

/-- A statement. Statements cannot nest deeper than there are tokens. -/
def statement : Routine Stmt := do
  statementWithin ((← get).rest.length + 1)

end ClassCheck.Routine
