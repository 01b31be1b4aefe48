import ClassCheck.ClassTable.Ancestors
import ClassCheck.Log
import ClassCheck.SemanticError

/-!
# Declaring fields, methods and their variables

A method that overrides another one repeats its return type and the types of its parameters.
-/

namespace ClassCheck

namespace ClassTable

/-! ## Types and variables -/

/-- The type that is written for `name`, which must be known. -/
def knownType (t : ClassTable) (ref : TypeRef) (name : String) : Except SemanticError Ty :=
  let ty := Ty.ofName ref.name
  if t.isKnownType ty then .ok ty else .error ⟨.unknownType ty.text name, ref.span⟩

def declareFields (t : ClassTable) (c : ClassInfo) : List VarDecl → Except SemanticError ClassInfo
  | [] => .ok c
  | d :: ds => do
    let type ← t.knownType d.type d.name.name
    if (c.field? d.name.name).isSome then
      .error ⟨.duplicateField c.name d.name.name, d.name.span⟩
    else
      -- The fields of a class that extends another one count as initialized.
      let field : Variable := { name := d.name.name, type, initialized := c.parent.isSome }
      t.declareFields { c with fields := c.fields ++ [field] } ds

def declareParams (t : ClassTable) (m : MethodInfo) : List VarDecl → Except SemanticError MethodInfo
  | [] => .ok m
  | d :: ds => do
    let type ← t.knownType d.type d.name.name
    if m.hasParam d.name.name then .error ⟨.duplicateParameter m.name d.name.name, d.name.span⟩
    else t.declareParams (m.addParam { name := d.name.name, type, initialized := true }) ds

def declareLocals (t : ClassTable) (m : MethodInfo) : List VarDecl → Except SemanticError MethodInfo
  | [] => .ok m
  | d :: ds => do
    let type ← t.knownType d.type d.name.name
    if m.hasVariable d.name.name then .error ⟨.duplicateLocal m.name d.name.name, d.name.span⟩
    else t.declareLocals (m.addLocal { name := d.name.name, type, initialized := false }) ds

/-! ## Overriding -/

/-- The first parameter whose type differs from that of the overridden method. Positions are counted
from `position`. -/
def paramMismatch? (method superclass : String) (position : Nat) :
    List Variable → List Variable → List VarDecl → Option SemanticError
  | expected :: expecteds, found :: founds, d :: ds =>
    if expected.type = found.type then
      paramMismatch? method superclass (position + 1) expecteds founds ds
    else
      some ⟨.parameterTypeMismatch method superclass position expected.type found.type, d.type.span⟩
  | _, _, _ => none

/-- What is wrong with overriding `inherited` by `m`, which was declared by `d`. -/
def overrideError? (inherited m : MethodInfo) (d : MethodDecl) : Option SemanticError :=
  if inherited.returnType ≠ m.returnType then
    some ⟨.returnTypeMismatch m.name inherited.owner inherited.returnType m.returnType,
      d.returnType.span⟩
  else if inherited.params.length ≠ m.params.length then
    some ⟨.arityMismatch m.name inherited.params.length m.params.length, d.name.span⟩
  else paramMismatch? m.name inherited.owner 1 inherited.params m.params d.params

/-- A method is compared with the nearest ancestor's method of its name, if there is one. -/
def checkOverride (t : ClassTable) (m : MethodInfo) (d : MethodDecl) : Except SemanticError Unit :=
  match (t.inheritedMethod? m.owner m.name).bind (overrideError? · m d) with
  | some e => .error e
  | none => .ok ()

/-! ## Methods and classes -/

def declareMethod (t : ClassTable) (c : ClassInfo) (d : MethodDecl) :
    Except SemanticError ClassInfo := do
  let returnType ← t.knownType d.returnType d.name.name
  if (c.method? d.name.name).isSome then
    .error ⟨.duplicateMethod c.name d.name.name, d.name.span⟩
  else if d.name.name = c.name then
    .error ⟨.methodNamedLikeClass c.name, d.name.span⟩
  else
    let m ← t.declareParams { name := d.name.name, owner := c.name, returnType } d.params
    t.checkOverride m d
    let m ← t.declareLocals m d.locals
    return { c with methods := c.methods ++ [m] }

def declareMethods (t : ClassTable) (c : ClassInfo) :
    List MethodDecl → Except SemanticError ClassInfo
  | [] => .ok c
  | d :: ds => do t.declareMethods (← t.declareMethod c d) ds

/-- Fills in the members of a class. While they are declared, the table holds the class as it was
before. -/
def fillClass (t : ClassTable) (d : ClassDecl) : Except SemanticError ClassTable := do
  let c : ClassInfo := { name := d.name.name, parent := d.superclass.map (·.name) }
  let c ← t.declareFields c d.fields
  let c ← t.declareMethods c d.methods
  return t.store c

def fillClasses (t : ClassTable) : List ClassDecl → Except SemanticError ClassTable
  | [] => .ok t
  | d :: ds => do (← t.fillClass d).fillClasses ds

/-- The name of the method in which a program begins. -/
def mainMethod : String := "main"

/-- Fills in the main class: it has one method, which takes a `String[]` and returns nothing. -/
def fillMain (t : ClassTable) (d : MainClass) : Except SemanticError ClassTable := do
  let m : MethodInfo := { name := mainMethod, owner := d.name.name, returnType := .void }
  let m := m.addParam { name := d.args.name, type := .stringArray, initialized := true }
  let m ← t.declareLocals m d.locals
  return t.store { name := d.name.name, parent := none, methods := [m] }

end ClassTable

/-- Fills in the members of all classes of a program. -/
def Program.declareMembers (p : Program) (t : ClassTable) : Logged SemanticError ClassTable := do
  let t ← Logged.silent do (← t.fillMain p.main).fillClasses p.classes
  Logged.record .debug .declareMembers
    ("declared members of " ++ toString t.order.length ++ " classes")
  return t

end ClassCheck
