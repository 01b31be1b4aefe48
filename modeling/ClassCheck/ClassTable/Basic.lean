import ClassCheck.Ty

/-!
# Class tables

A class table holds what is known of the classes of a program: their fields, their methods and the
variables of those.
-/

namespace ClassCheck

/-- Changes the first element at which `p` holds. -/
def modifyFirst {α : Type} (p : α → Bool) (f : α → α) : List α → List α
  | [] => []
  | a :: as => if p a then f a :: as else a :: modifyFirst p f as

theorem find?_modifyFirst {α : Type} (p : α → Bool) (f : α → α) (hf : ∀ a, p a → p (f a))
    (as : List α) : (modifyFirst p f as).find? p = (as.find? p).map f := by
  induction as with
  | nil => rfl
  | cons a as ih =>
    by_cases ha : p a
    · simp [modifyFirst, ha, hf a ha]
    · simp [modifyFirst, ha, ih]

theorem find?_modifyFirst_of_disjoint {α : Type} (p q : α → Bool) (f : α → α)
    (h : ∀ a, p a → q a = false ∧ q (f a) = false) (as : List α) :
    (modifyFirst p f as).find? q = as.find? q := by
  induction as with
  | nil => rfl
  | cons a as ih =>
    by_cases ha : p a
    · simp [modifyFirst, ha, h a ha]
    · rw [modifyFirst, if_neg ha, List.find?_cons, List.find?_cons, ih]

/-! ## Variables -/

/-- A field, a parameter or a local variable. Only the offset of a field means anything. -/
structure Variable where
  name : String
  type : Ty
  initialized : Bool
  offset : Nat := 0
  deriving DecidableEq

/-! ## Methods -/

/-- Where a method keeps a variable: the position among its parameters or among its locals. -/
inductive Slot where
  | param (index : Nat)
  | localVar (index : Nat)
  deriving DecidableEq

/-- A method. `slots` tells where the variable of a name is kept, the newest one first. -/
structure MethodInfo where
  name : String
  owner : String
  returnType : Ty
  params : List Variable := []
  locals : List Variable := []
  slots : List (String × Slot) := []
  offset : Nat := 0
  deriving DecidableEq

namespace MethodInfo

def addParam (m : MethodInfo) (v : Variable) : MethodInfo :=
  { m with params := m.params ++ [v], slots := (v.name, .param m.params.length) :: m.slots }

def addLocal (m : MethodInfo) (v : Variable) : MethodInfo :=
  { m with locals := m.locals ++ [v], slots := (v.name, .localVar m.locals.length) :: m.slots }

def slot? (m : MethodInfo) (name : String) : Option Slot := m.slots.lookup name

theorem slot?_addParam (m : MethodInfo) (v : Variable) (name : String) :
    (m.addParam v).slot? name =
      if name = v.name then some (.param m.params.length) else m.slot? name := by
  by_cases h : name = v.name
  · simp [slot?, addParam, h]
  · have hb : (name == v.name) = false := by simp [h]
    simp [slot?, addParam, List.lookup_cons, h, hb]

theorem slot?_addLocal (m : MethodInfo) (v : Variable) (name : String) :
    (m.addLocal v).slot? name =
      if name = v.name then some (.localVar m.locals.length) else m.slot? name := by
  by_cases h : name = v.name
  · simp [slot?, addLocal, h]
  · have hb : (name == v.name) = false := by simp [h]
    simp [slot?, addLocal, List.lookup_cons, h, hb]

/-- The variable of a name that was added last. -/
def findVar? (m : MethodInfo) (name : String) : Option Variable :=
  match m.slot? name with
  | some (.param i) => m.params[i]?
  | some (.localVar i) => m.locals[i]?
  | none => none

/-- Whether the variable of a name that was added last is a parameter. -/
def hasParam (m : MethodInfo) (name : String) : Bool :=
  match m.slot? name with
  | some (.param _) => true
  | _ => false

def hasVariable (m : MethodInfo) (name : String) : Bool := (m.slot? name).isSome

/-- Changes the variable of a name that was added last. -/
def modifyVariable (m : MethodInfo) (name : String) (f : Variable → Variable) : MethodInfo :=
  match m.slot? name with
  | some (.param i) => { m with params := m.params.modify i f }
  | some (.localVar i) => { m with locals := m.locals.modify i f }
  | none => m

end MethodInfo

/-! ## Classes -/

/-- A class. The cursors are the next free field offset and method offset, once there are any. -/
structure ClassInfo where
  name : String
  parent : Option String
  fields : List Variable := []
  methods : List MethodInfo := []
  fieldCursor : Nat := 0
  methodCursor : Nat := 0
  deriving DecidableEq

namespace ClassInfo

/-- Of two fields of one name the first counts. -/
def field? (c : ClassInfo) (name : String) : Option Variable := c.fields.find? (·.name == name)

/-- Of two methods of one name the first counts. -/
def method? (c : ClassInfo) (name : String) : Option MethodInfo := c.methods.find? (·.name == name)

def modifyField (c : ClassInfo) (name : String) (f : Variable → Variable) : ClassInfo :=
  { c with fields := modifyFirst (·.name == name) f c.fields }

def modifyMethod (c : ClassInfo) (name : String) (f : MethodInfo → MethodInfo) : ClassInfo :=
  { c with methods := modifyFirst (·.name == name) f c.methods }

end ClassInfo

/-! ## Tables -/

/-- What is known of a program: the types, the names of the declared classes in the order of
declaration, and one entry for each class. -/
structure ClassTable where
  types : List Ty := [.int, .boolean, .intArray]
  order : List String := []
  entries : List ClassInfo := []
  deriving DecidableEq

namespace ClassTable

/-- The table that knows no class. -/
def empty : ClassTable := {}

def get? (t : ClassTable) (name : String) : Option ClassInfo := t.entries.find? (·.name == name)

def contains (t : ClassTable) (name : String) : Bool := (t.get? name).isSome

/-- Puts a class in the place of the one that has its name, or at the end. -/
def put (c : ClassInfo) : List ClassInfo → List ClassInfo
  | [] => [c]
  | d :: ds => if d.name = c.name then c :: ds else d :: put c ds

/-- Keeps what is known of a class, without declaring it. -/
def store (t : ClassTable) (c : ClassInfo) : ClassTable := { t with entries := put c t.entries }

/-- Declares a class. -/
def declare (t : ClassTable) (c : ClassInfo) : ClassTable :=
  { types := t.types ++ [.object c.name]
    order := t.order ++ [c.name]
    entries := put c t.entries }

def modify (t : ClassTable) (name : String) (f : ClassInfo → ClassInfo) : ClassTable :=
  { t with entries := modifyFirst (·.name == name) f t.entries }

theorem find?_put (c : ClassInfo) (ds : List ClassInfo) (name : String) :
    (put c ds).find? (·.name == name) =
      if c.name = name then some c else ds.find? (·.name == name) := by
  induction ds with
  | nil => by_cases h : c.name = name <;> simp [put, h]
  | cons d ds ih =>
    unfold put
    split
    · next hd => by_cases h : c.name = name <;> simp [h, hd]
    · next hd =>
      by_cases h : c.name = name
      · subst h
        simp [hd, ih]
      · rw [List.find?_cons, List.find?_cons, ih, if_neg h, if_neg h]

@[simp] theorem get?_store (t : ClassTable) (c : ClassInfo) (name : String) :
    (t.store c).get? name = if c.name = name then some c else t.get? name :=
  find?_put c t.entries name

@[simp] theorem get?_declare (t : ClassTable) (c : ClassInfo) (name : String) :
    (t.declare c).get? name = if c.name = name then some c else t.get? name :=
  find?_put c t.entries name

theorem get?_modify (t : ClassTable) (name : String) (f : ClassInfo → ClassInfo)
    (hf : ∀ c, (f c).name = c.name) (other : String) :
    (t.modify name f).get? other = if name = other then (t.get? other).map f else t.get? other := by
  unfold modify get?
  split
  · next h =>
    subst h
    exact find?_modifyFirst _ f (by simp [hf]) _
  · next h =>
    apply find?_modifyFirst_of_disjoint
    intro c hc
    rw [beq_iff_eq] at hc
    simp [hf, hc, h]

def isKnownType (t : ClassTable) (ty : Ty) : Bool := t.types.contains ty

/-- The declared classes, in the order of declaration. -/
def classes (t : ClassTable) : List ClassInfo := t.order.filterMap t.get?

/-- The class that was declared first. -/
def mainClass? (t : ClassTable) : Option ClassInfo := t.order.head?.bind t.get?

end ClassTable

end ClassCheck
