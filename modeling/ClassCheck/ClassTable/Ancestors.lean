import ClassCheck.ClassTable.Basic

/-! # Ancestors, and what is inherited from them -/

namespace ClassCheck.ClassTable

/-- The class of this name, its parent, the parent of that one and so on, at most `bound` of them. -/
def chainWithin (t : ClassTable) : Nat → Option String → List ClassInfo
  | 0, _ => []
  | bound + 1, next =>
    match next.bind t.get? with
    | none => []
    | some c => c :: chainWithin t bound c.parent

/-- The ancestors of a class, the nearest first. The class itself is not among them. No class comes
twice, so there are no more of them than classes in the table. -/
def ancestors (t : ClassTable) (name : String) : List ClassInfo :=
  chainWithin t t.entries.length ((t.get? name).bind (·.parent))

/-- A method of an ancestor, the nearest one that has it. -/
def inheritedMethod? (t : ClassTable) (className method : String) : Option MethodInfo :=
  (t.ancestors className).findSome? (·.method? method)

/-- A method of the class itself, or else of an ancestor. -/
def method? (t : ClassTable) (className method : String) : Option MethodInfo := do
  let c ← t.get? className
  (c.method? method).or (t.inheritedMethod? className method)

/-- Whether `ancestor` is one of the ancestors of `className`. -/
def isSubclass (t : ClassTable) (className ancestor : String) : Bool :=
  (t.ancestors className).any (·.name == ancestor)

/-- Whether a value of type `value` may stand where a `target` is wanted: the types are the same, or
one class descends from the other. -/
def isAssignable (t : ClassTable) (target value : Ty) : Bool :=
  target == value ||
    match target, value with
    | .object targetClass, .object valueClass => t.isSubclass valueClass targetClass
    | _, _ => false

end ClassCheck.ClassTable
