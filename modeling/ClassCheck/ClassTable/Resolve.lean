import ClassCheck.ClassTable.Ancestors

/-!
# What a name stands for

In a method a name stands for a variable of the method, or else for a field of its class, or else
for a field of the nearest ancestor that has one.
-/

namespace ClassCheck

/-- The method in which a name is used. -/
structure Context where
  className : String
  method : String
  deriving DecidableEq

inductive Scope where
  | method
  | ownFields
  | inheritedFields
  deriving DecidableEq

/-- Where a variable is kept. -/
inductive Place where
  | inMethod (className method : String)
  | inClass (className : String)
  deriving DecidableEq

structure Resolved where
  scope : Scope
  place : Place
  type : Ty
  initialized : Bool
  deriving DecidableEq

namespace ClassTable

def resolved (scope : Scope) (place : Place) (v : Variable) : Resolved :=
  ⟨scope, place, v.type, v.initialized⟩

def methodVariable? (t : ClassTable) (cx : Context) (name : String) : Option Resolved := do
  let c ← t.get? cx.className
  let m ← c.method? cx.method
  let v ← m.findVar? name
  return resolved .method (.inMethod cx.className cx.method) v

def ownField? (t : ClassTable) (cx : Context) (name : String) : Option Resolved := do
  let c ← t.get? cx.className
  let v ← c.field? name
  return resolved .ownFields (.inClass cx.className) v

def inheritedField? (t : ClassTable) (cx : Context) (name : String) : Option Resolved :=
  (t.ancestors cx.className).findSome? fun c =>
    (c.field? name).map (resolved .inheritedFields (.inClass c.name))

def resolve (t : ClassTable) (cx : Context) (name : String) : Option Resolved :=
  (t.methodVariable? cx name).or ((t.ownField? cx name).or (t.inheritedField? cx name))

/-! ## Variables by place -/

def variableAt? (t : ClassTable) (place : Place) (name : String) : Option Variable :=
  match place with
  | .inMethod className method => do
    let c ← t.get? className
    let m ← c.method? method
    m.findVar? name
  | .inClass className => do
    let c ← t.get? className
    c.field? name

theorem methodVariable?_eq (t : ClassTable) (cx : Context) (name : String) :
    t.methodVariable? cx name =
      (t.variableAt? (.inMethod cx.className cx.method) name).map
        (resolved .method (.inMethod cx.className cx.method)) := by
  simp only [methodVariable?, variableAt?, Option.bind_eq_bind, Option.pure_def, Option.map_eq_bind,
    Option.bind_assoc, Function.comp_def]

theorem ownField?_eq (t : ClassTable) (cx : Context) (name : String) :
    t.ownField? cx name =
      (t.variableAt? (.inClass cx.className) name).map
        (resolved .ownFields (.inClass cx.className)) := by
  simp only [ownField?, variableAt?, Option.bind_eq_bind, Option.pure_def, Option.map_eq_bind,
    Option.bind_assoc, Function.comp_def]

def modifyVariableAt (t : ClassTable) (place : Place) (name : String) (f : Variable → Variable) :
    ClassTable :=
  match place with
  | .inMethod className method =>
    t.modify className fun c => c.modifyMethod method fun m => m.modifyVariable name f
  | .inClass className => t.modify className fun c => c.modifyField name f

/-- Takes note that a variable has been assigned to. -/
def markInitialized (t : ClassTable) (place : Place) (name : String) : ClassTable :=
  t.modifyVariableAt place name fun v => { v with initialized := true }

end ClassTable

end ClassCheck
