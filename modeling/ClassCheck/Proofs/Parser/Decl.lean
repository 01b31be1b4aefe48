import ClassCheck.Grammar.Decl
import ClassCheck.Proofs.Parser.Stmt

/-! # Parsers for declarations -/

namespace ClassCheck

open ClassCheck.Parser

/-- One of `int`, `int[]` and `boolean`, or the name of a class. -/
def TypeRef.parse : Parser TypeRef
  | [] => fail .type []
  | t :: ts =>
    match t.kind with
    | .int =>
      (do
        match ← accept .leftBracket with
        | some _ =>
          let close ← expect .rightBracket "']' in 'int[]'"
          return ⟨.intArray, t.span.merge close.span⟩
        | none => return ⟨.int, t.span⟩ : Parser TypeRef) ts
    | .boolean => .ok (⟨.boolean, t.span⟩, ts)
    | .identifier => .ok (⟨.named t.lexeme, t.span⟩, ts)
    | _ => fail .type (t :: ts)

namespace VarDecl

def parse (what : String) : Parser VarDecl := do
  let type ← TypeRef.parse
  let name ← expectIdent what
  return ⟨type, name⟩

/-- A declaration and the semicolon after it. -/
def parseEnded : Parser VarDecl := do
  let decl ← parse "variable name"
  let _ ← expect .semicolon "';' after variable declaration"
  return decl

/-- Declarations, up to where something else begins. -/
def parseAll : Parser (List VarDecl) := manyWhile startsAt parseEnded

/-- Parameters, with commas between them, up to the closing parenthesis. -/
def parseParams : Parser (List VarDecl) := fun ts =>
  if ahead .rightParen ts then .ok ([], ts) else commaSeparated (parse "parameter name") ts

end VarDecl

def MethodDecl.parse : Parser MethodDecl := do
  let _ ← expect .publicWord "'public'"
  let returnType ← TypeRef.parse
  let name ← expectIdent "method name"
  let _ ← expect .leftParen "'(' after method name"
  let params ← VarDecl.parseParams
  let _ ← expect .rightParen "')' after parameters"
  let _ ← expect .leftBrace "'\x7b' for method body"
  let locals ← VarDecl.parseAll
  let body ← Stmt.sequence Stmt.parse fun ts => ahead .returnWord ts || ahead .rightBrace ts
  let _ ← expect .returnWord "'return' at the end of the method"
  let returned ← Expr.parse
  let _ ← expect .semicolon "';' after return expression"
  let _ ← expect .rightBrace "'\x7d' after method body"
  return { returnType, name, params, locals, body, returned }

namespace ClassDecl

def superclass? : Parser (Option Ident) := do
  match ← accept .extendsWord with
  | some _ => return some (← expectIdent "superclass name after 'extends'")
  | none => return none

def parse : Parser ClassDecl := do
  let _ ← expect .classWord "'class'"
  let name ← expectIdent "class name"
  let superclass ← superclass?
  let _ ← expect .leftBrace "'\x7b' for class body"
  let fields ← VarDecl.parseAll
  let methods ← manyWhile (ahead .publicWord) MethodDecl.parse
  let _ ← expect .rightBrace "'\x7d' after class body"
  return { name, superclass, fields, methods }

end ClassDecl

/-- The class that holds `main`, and nothing else. -/
def MainClass.parse : Parser MainClass := do
  let _ ← expect .classWord "'class' to begin the main class"
  let name ← expectIdent "main class name"
  let _ ← expect .leftBrace "'\x7b' after class name"
  let _ ← expect .publicWord "'public static void main'"
  let _ ← expect .staticWord "'static' after 'public'"
  let _ ← expect .void "'void' after 'static'"
  let _ ← expect .mainWord "'main'"
  let _ ← expect .leftParen "'(' after 'main'"
  let _ ← expect .string "'String'"
  let _ ← expect .leftBracket "'[' after 'String'"
  let _ ← expect .rightBracket "']'"
  let args ← expectIdent "parameter name"
  let _ ← expect .rightParen "')' after parameter"
  let _ ← expect .leftBrace "'\x7b' to begin main"
  let locals ← VarDecl.parseAll
  let body ← Stmt.sequence Stmt.parse (ahead .rightBrace)
  let _ ← expect .rightBrace "'\x7d' to close main"
  let _ ← expect .rightBrace "'\x7d' to close the main class"
  return { name, args, locals, body }

end ClassCheck
