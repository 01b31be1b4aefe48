import ClassCheck.ClassTable.Resolve
import ClassCheck.Declare.Members
import ClassCheck.Log
import ClassCheck.SemanticError
import ClassCheck.Text.Quoted

/-!
# Checking the bodies of methods

An expression is given a type, and a statement is accepted or not. Assigning to a variable makes it
initialized, which is all that checking changes in the class table.
-/

namespace ClassCheck

/-- A check that writes to the log and may find a semantic error. -/
abbrev Check := Logged SemanticError

namespace ClassTable

def reject {α : Type} (cause : SemanticCause) (span : Span) : Check α := Logged.fail ⟨cause, span⟩

/-! ## Names -/

/-- A place as the log shows it. -/
def placeText : Option Place → String
  | none => "None"
  | some (.inClass className) => "Some(Field \x7b class: " ++ Text.quoted className ++ " \x7d)"
  | some (.inMethod className method) =>
    "Some(Local \x7b class: " ++ Text.quoted className ++ ", method: " ++ Text.quoted method ++ " \x7d)"

/-- Looks a name up, and writes that down. -/
def lookUp (t : ClassTable) (cx : Context) (name : String) : Check (Option Resolved) := do
  let found := t.resolve cx name
  Logged.record .trace .resolve
    ("resolve '" ++ name ++ "' in " ++ cx.className ++ "." ++ cx.method ++ " -> " ++
      placeText (found.map (·.place)))
  return found

/-- The variable that is assigned to. -/
def target (t : ClassTable) (cx : Context) (name : Ident) : Check Resolved := do
  match ← t.lookUp cx name.name with
  | some found => return found
  | none => reject (.unknownName name.name) name.span

/-! ## Calls -/

/-- The method that is called on a receiver of this type, which stands at `span`. -/
def callee (t : ClassTable) (receiver : Ty) (span : Span) (method : Ident) : Check MethodInfo :=
  match receiver with
  | .object className =>
    if t.contains className then
      match t.method? className method.name with
      | some m => return m
      | none => reject (.unknownMethod className method.name) method.span
    else reject (.unknownClass className) span
  | other => reject (.unknownClass other.text) span

/-- The first argument that its parameter does not take. -/
def argumentError? (t : ClassTable) (method : String) :
    List Variable → List Ty → List Expr → Option SemanticError
  | param :: params, found :: founds, arg :: args =>
    if t.isAssignable param.type found then t.argumentError? method params founds args
    else some ⟨.argumentTypeMismatch method param.name param.type found, arg.span⟩
  | _, _, _ => none

/-- Compares the arguments of the call at `span` with the parameters. -/
def checkArguments (t : ClassTable) (m : MethodInfo) (span : Span) (args : List Expr)
    (types : List Ty) : Check Unit :=
  if types.length ≠ m.params.length then
    reject (.arityMismatch m.name m.params.length types.length) span
  else
    match t.argumentError? m.name m.params types args with
    | some e => Logged.fail e
    | none => return ()

/-! ## Expressions -/

/-- The type that the operands of an operator must have, and the type of the result. -/
def binaryTypes : BinaryOp → Ty × Ty
  | .and => (.boolean, .boolean)
  | .less => (.int, .boolean)
  | .add | .sub | .mul => (.int, .int)

/-- An operator with one operand. -/
def unaryType (op : Operator) (expected result found : Ty) (span : Span) : Check Ty :=
  if found = expected then return result else reject (.typeMismatch op found none) span

mutual
/-- The type of an expression. A name that stands for nothing is its own type. -/
def typeOf (t : ClassTable) (cx : Context) : Expr → Check Ty
  | .int _ _ => return .int
  | .bool _ _ => return .boolean
  | .ident _ name => do
    match ← t.lookUp cx name with
    | some found => return found.type
    | none => return .object name
  | .this _ => return .self
  | .paren _ inner => t.typeOf cx inner
  | .binary span op left right => do
    let leftType ← t.typeOf cx left
    let rightType ← t.typeOf cx right
    let (operand, result) := binaryTypes op
    if leftType = operand ∧ rightType = operand then return result
    else reject (.typeMismatch (.binary op) leftType (some rightType)) span
  | .not span operand => do
    unaryType .not .boolean .boolean (← t.typeOf cx operand) span
  | .length span array => do
    unaryType .length .intArray .int (← t.typeOf cx array) span
  | .index span array position => do
    let arrayType ← t.typeOf cx array
    let positionType ← t.typeOf cx position
    if arrayType = .intArray ∧ positionType = .int then return .int
    else reject (.typeMismatch .index arrayType (some positionType)) span
  | .newArray span size => do
    unaryType .newArray .int .intArray (← t.typeOf cx size) span
  | .newObject _ className =>
    if t.contains className.name then return .object className.name
    else reject (.unknownClass className.name) className.span
  | .call span receiver method args => do
    let receiverType ← t.typeOf cx receiver
    let m ← t.callee (receiverType.resolveSelf cx.className) receiver.span method
    -- A call without arguments is taken whatever the method's parameters are.
    if args.isEmpty then return m.returnType
    else if m.params.isEmpty then reject (.noParametersExpected m.name) span
    else
      let types ← t.typesOf cx args
      t.checkArguments m span args types
      return m.returnType

/-- The types of arguments. -/
def typesOf (t : ClassTable) (cx : Context) : List Expr → Check (List Ty)
  | [] => return []
  | e :: es => do
    let type ← t.typeOf cx e
    let types ← t.typesOf cx es
    return type.resolveSelf cx.className :: types
end

/-! ## Statements -/

def checkCondition (t : ClassTable) (cx : Context) (statement : Conditional) (condition : Expr) :
    Check Unit := do
  let found ← t.typeOf cx condition
  if found = .boolean then return ()
  else reject (.invalidConditionType statement found) condition.span

def checkAssign (t : ClassTable) (cx : Context) (name : Ident) (value : Expr) : Check ClassTable := do
  let assigned ← t.target cx name
  let found := (← t.typeOf cx value).resolveSelf cx.className
  if t.isAssignable assigned.type found then return t.markInitialized assigned.place name.name
  else reject (.incompatibleTypes assigned.type found) value.span

def checkArrayAssign (t : ClassTable) (cx : Context) (name : Ident) (position value : Expr) :
    Check Unit := do
  let array ← t.target cx name
  if array.type ≠ .intArray then reject (.invalidArrayType array.type) name.span
  else
    let positionType ← t.typeOf cx position
    if positionType ≠ .int then reject (.invalidIndexType positionType) position.span
    else
      let found ← t.typeOf cx value
      if found ≠ .int then reject (.incompatibleTypes .int found) value.span
      else return ()

mutual
/-- Checks a statement, and gives the table with the variables that it assigns to marked. -/
def checkStmt (t : ClassTable) (cx : Context) : Stmt → Check ClassTable
  | .block body => t.checkStmts cx body
  | .assign name value => t.checkAssign cx name value
  | .arrayAssign name position value => do
    t.checkArrayAssign cx name position value
    return t
  | .ifElse condition thenBranch elseBranch => do
    t.checkCondition cx .ifElse condition
    let t ← t.checkStmt cx thenBranch
    t.checkStmt cx elseBranch
  | .loop condition body => do
    t.checkCondition cx .loop condition
    t.checkStmt cx body
  | .print value => do
    let _ ← t.typeOf cx value
    return t

def checkStmts (t : ClassTable) (cx : Context) : List Stmt → Check ClassTable
  | [] => return t
  | s :: ss => do
    let t ← t.checkStmt cx s
    t.checkStmts cx ss
end

/-! ## Methods and programs -/

/-- Checks what a method returns. -/
def checkReturn (t : ClassTable) (cx : Context) (d : MethodDecl) : Check Unit := do
  let expected := Ty.ofName d.returnType.name
  let found := (← t.typeOf cx d.returned).resolveSelf cx.className
  if t.isAssignable expected found then return ()
  else reject (.incompatibleReturnType cx.method expected found) d.returned.span

def checkMethod (t : ClassTable) (className : String) (d : MethodDecl) : Check ClassTable := do
  let cx : Context := ⟨className, d.name.name⟩
  Logged.record .trace .check ("checking " ++ cx.className ++ "." ++ cx.method)
  let t ← t.checkStmts cx d.body
  t.checkReturn cx d
  return t

def checkMethods (t : ClassTable) (className : String) : List MethodDecl → Check ClassTable
  | [] => return t
  | d :: ds => do
    let t ← t.checkMethod className d
    t.checkMethods className ds

def checkClasses (t : ClassTable) : List ClassDecl → Check ClassTable
  | [] => return t
  | d :: ds => do
    let t ← t.checkMethods d.name.name d.methods
    t.checkClasses ds

end ClassTable

/-- Checks the body of every method of a program. -/
def Program.check (p : Program) (t : ClassTable) : Check ClassTable := do
  let t ← t.checkStmts ⟨p.main.name.name, ClassTable.mainMethod⟩ p.main.body
  let t ← t.checkClasses p.classes
  Logged.record .debug .check ("type checked " ++ toString (p.classes.length + 1) ++ " classes")
  return t

end ClassCheck
