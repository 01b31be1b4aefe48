import ClassCheck.Grammar.Stmt

/-! # Reading declarations -/

namespace ClassCheck

/-- A type and a name. A declaration that begins with an identifier goes on with another one; a
statement does not. -/
def VarDecl.startsAt : List Token → Bool
  | [] => false
  | t :: ts =>
    match t.kind with
    | .int | .boolean => true
    | .identifier => ahead .identifier ts
    | _ => false

namespace Routine

/-- One of `int`, `int[]` and `boolean`, or the name of a class. -/
def typeRef : Routine TypeRef := do
  match ← peek with
  | none =>
    report .type
    failure
  | some t =>
    match t.kind with
    | .int =>
      advance
      match ← accept .leftBracket with
      | some _ =>
        let close ← expect .rightBracket "']' in 'int[]'"
        return ⟨.intArray, t.span.merge close.span⟩
      | none => return ⟨.int, t.span⟩
    | .boolean =>
      advance
      return ⟨.boolean, t.span⟩
    | .identifier =>
      advance
      return ⟨.named t.lexeme, t.span⟩
    | _ =>
      report .type
      failure

/-! ## Variables -/

def varDecl (what : String) : Routine VarDecl := do
  let type ← typeRef
  let name ← expectIdent what
  return ⟨type, name⟩

/-- A declaration and the semicolon after it. -/
def endedVarDecl : Routine VarDecl := do
  let decl ← varDecl "variable name"
  let _ ← expect .semicolon "';' after variable declaration"
  return decl

/-- Declarations, up to where something else begins. -/
def varDecls : Routine (List VarDecl) := manyWhile VarDecl.startsAt endedVarDecl

/-- Parameters, with commas between them, up to the closing parenthesis. -/
def params : Routine (List VarDecl) := do
  if ahead .rightParen (← get).rest then return [] else commaSeparated (varDecl "parameter name")

/-! ## Methods and classes -/

def methodDecl : Routine MethodDecl := do
  let _ ← expect .publicWord "'public'"
  let returnType ← typeRef
  let name ← expectIdent "method name"
  let _ ← expect .leftParen "'(' after method name"
  let params ← params
  let _ ← expect .rightParen "')' after parameters"
  let _ ← expect .leftBrace "'\x7b' for method body"
  let locals ← varDecls
  let body ← sequence statement fun ts => ahead .returnWord ts || ahead .rightBrace ts
  let _ ← expect .returnWord "'return' at the end of the method"
  let returned ← expression
  let _ ← expect .semicolon "';' after return expression"
  let _ ← expect .rightBrace "'\x7d' after method body"
  return { returnType, name, params, locals, body, returned }

def superclass? : Routine (Option Ident) := do
  match ← accept .extendsWord with
  | some _ => return some (← expectIdent "superclass name after 'extends'")
  | none => return none

def classDecl : Routine ClassDecl := do
  let _ ← expect .classWord "'class'"
  let name ← expectIdent "class name"
  let superclass ← superclass?
  let _ ← expect .leftBrace "'\x7b' for class body"
  let fields ← varDecls
  let methods ← manyWhile (ahead .publicWord) methodDecl
  let _ ← expect .rightBrace "'\x7d' after class body"
  return { name, superclass, fields, methods }

/-- The class that holds `main`, and nothing else. -/
def mainClass : Routine MainClass := do
  let _ ← expect .classWord "'class' to begin the main class"
  let name ← expectIdent "main class name"
  let _ ← expect .leftBrace "'\x7b' after class name"
  let _ ← expect .publicWord "'public static void main'"
  let _ ← expect .staticWord "'static' after 'public'"
  let _ ← expect .void "'void' after 'static'"
  let _ ← expect .mainWord "'main'"
  let _ ← expect .leftParen "'(' after 'main'"
  let _ ← expect .string "'String'"
  let _ ← expect .leftBracket "'[' after 'String'"
  let _ ← expect .rightBracket "']'"
  let args ← expectIdent "parameter name"
  let _ ← expect .rightParen "')' after parameter"
  let _ ← expect .leftBrace "'\x7b' to begin main"
  let locals ← varDecls
  let body ← sequence statement (ahead .rightBrace)
  let _ ← expect .rightBrace "'\x7d' to close main"
  let _ ← expect .rightBrace "'\x7d' to close the main class"
  return { name, args, locals, body }

end Routine

end ClassCheck
