import ClassCheck.Program.Basic

/-! # The types that are checked -/

namespace ClassCheck

inductive Ty where
  | int
  | boolean
  | intArray
  /-- The objects of a class. A name that is no variable has this type too, whether or not there is
  such a class. -/
  | object (className : String)
  /-- The type of `this`, before it is known in which class it stands. -/
  | self
  /-- What `main` returns. -/
  | void
  /-- What `main` takes. -/
  | stringArray
  deriving DecidableEq

namespace Ty

def ofName : TypeName → Ty
  | .int => .int
  | .boolean => .boolean
  | .intArray => .intArray
  | .named name => .object name

def text : Ty → String
  | .int => "int"
  | .boolean => "boolean"
  | .intArray => "int[]"
  | .object className => className
  | .self => "this"
  | .void => "void"
  | .stringArray => "String[]"

def className? : Ty → Option String
  | .object className => some className
  | _ => none

/-- The type of `this` inside a class is that class. -/
def resolveSelf (enclosing : String) : Ty → Ty
  | .self => .object enclosing
  | ty => ty

/-- The bytes that a field takes. -/
def size : Ty → Nat
  | .int => 4
  | .boolean => 1
  | _ => 8

end Ty

end ClassCheck
