import ClassCheck.ClassTable.Basic
import ClassCheck.Log

/-!
# Laying out objects and method tables

The fields of a class follow those of its parent, but a class without fields passes on none: below
it offsets begin at zero again. Methods take slots of one size. A method that the parent itself
declares too takes the parent's slot.
-/

namespace ClassCheck

/-- The bytes that a method takes in a method table. -/
def slotSize : Nat := 8

namespace ClassInfo

/-! ## Fields -/

/-- Places fields one after another from `cursor` on, and gives the next free offset. -/
def placeFields (cursor : Nat) : List Variable → List Variable × Nat
  | [] => ([], cursor)
  | f :: fs =>
    let (placed, next) := placeFields (cursor + f.type.size) fs
    ({ f with offset := cursor } :: placed, next)

/-- The fields of a class begin where those of its parent end, if it has any. -/
def firstField (parent : Option ClassInfo) (c : ClassInfo) : Nat :=
  match parent with
  | some p => if c.fields.isEmpty then c.fieldCursor else p.fieldCursor
  | none => c.fieldCursor

/-! ## Methods -/

/-- The slot of a method that the class itself declares. Of two methods of one name the last
counts. -/
def slotOf? (c : ClassInfo) (method : String) : Option Nat :=
  (c.methods.reverse.find? (·.name == method)).map (·.offset)

def parentSlot? (parent : Option ClassInfo) (method : String) : Option Nat :=
  parent.bind (·.slotOf? method)

/-- Gives each method the slot of the parent's method of its name, or else the next free one. -/
def placeMethods (parent : Option ClassInfo) (cursor : Nat) :
    List MethodInfo → List MethodInfo × Nat
  | [] => ([], cursor)
  | m :: ms =>
    match parentSlot? parent m.name with
    | some slot =>
      let (placed, next) := placeMethods parent cursor ms
      ({ m with offset := slot } :: placed, next)
    | none =>
      let (placed, next) := placeMethods parent (cursor + slotSize) ms
      ({ m with offset := cursor } :: placed, next)

/-- The slots of a class begin where those of its parent end, if its first method is new. -/
def firstSlot (parent : Option ClassInfo) (c : ClassInfo) : Nat :=
  match parent, c.methods.head? with
  | some p, some m => if (p.slotOf? m.name).isSome then c.methodCursor else p.methodCursor
  | _, _ => c.methodCursor

/-- Lays out a class, given its parent as it has been laid out. -/
def layOut (parent : Option ClassInfo) (c : ClassInfo) : ClassInfo :=
  let (fields, fieldCursor) := placeFields (c.firstField parent) c.fields
  let (methods, methodCursor) := placeMethods parent (c.firstSlot parent) c.methods
  { c with fields, methods, fieldCursor, methodCursor }

end ClassInfo

namespace ClassTable

def layOutClass (t : ClassTable) (name : String) : ClassTable :=
  match t.get? name with
  | some c => t.store (c.layOut (c.parent.bind t.get?))
  | none => t

/-- Lays out the declared classes in order. A parent comes before the classes that extend it. -/
def layOut (t : ClassTable) : ClassTable := t.order.foldl layOutClass t

/-- What the log says about a laid out table. -/
def layoutEntries (t : ClassTable) : List LogEntry :=
  let record (message : String) : LogEntry := .record ⟨.debug, .layOut, message⟩
  t.classes.map (fun c => record ("laid out class '" ++ c.name ++ "': field cursor " ++
      toString c.fieldCursor ++ ", method cursor " ++ toString c.methodCursor)) ++
    [record ("assigned offsets for " ++ toString t.order.length ++ " classes")]

end ClassTable

end ClassCheck
