import ClassCheck.ClassTable.Basic
import ClassCheck.Log
import ClassCheck.SemanticError

/-! # Declaring the classes of a program

A superclass has to be declared before the classes that extend it. The main class counts as the
first one.
-/

namespace ClassCheck

/-- The name of a class, and of its superclass if it names one. -/
structure ClassHeader where
  name : Ident
  superclass : Option Ident
  deriving DecidableEq

def ClassDecl.header (c : ClassDecl) : ClassHeader := ⟨c.name, c.superclass⟩

/-- The headers of all classes, in the order of the program. -/
def Program.headers (p : Program) : List ClassHeader :=
  ⟨p.main.name, none⟩ :: p.classes.map ClassDecl.header

namespace ClassTable

/-- What is wrong with declaring a class, given those declared before it. -/
def headerError? (t : ClassTable) (h : ClassHeader) : Option SemanticError :=
  if t.contains h.name.name then some ⟨.duplicateClass h.name.name, h.name.span⟩
  else
    match h.superclass with
    | none => none
    | some parent =>
      if parent.name = h.name.name then some ⟨.selfInheritance h.name.name, parent.span⟩
      else if t.contains parent.name then none
      else some ⟨.unknownSuperclass h.name.name parent.name, parent.span⟩

def declareHeaders (t : ClassTable) : List ClassHeader → Logged SemanticError ClassTable
  | [] => return t
  | h :: hs =>
    match t.headerError? h with
    | some e => Logged.fail e
    | none => do
      Logged.record .debug .declareClasses ("registered class '" ++ h.name.name ++ "'")
      let parent := h.superclass.map (·.name)
      declareHeaders (t.declare { name := h.name.name, parent }) hs

end ClassTable

/-- The table of all classes of a program, which have no members yet. -/
def Program.declareClasses (p : Program) : Logged SemanticError ClassTable := do
  let t ← ClassTable.empty.declareHeaders p.headers
  Logged.record .debug .declareClasses ("declared " ++ toString t.order.length ++ " classes")
  return t

end ClassCheck
