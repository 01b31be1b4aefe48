import ClassCheck.ClassTable.Ancestors

/-!
# The report on a laid out program

For each class but the main one the report lists the offsets of its fields, and of those methods
that override none.
-/

namespace ClassCheck

/-- A line of the report: a field or a method, and its offset. -/
structure OffsetLine where
  owner : String
  name : String
  offset : Nat
  deriving DecidableEq

structure ClassReport where
  name : String
  fields : List OffsetLine
  methods : List OffsetLine
  deriving DecidableEq

def OffsetLine.text (line : OffsetLine) : String :=
  line.owner ++ "." ++ line.name ++ " : " ++ toString line.offset

def ClassReport.lines (r : ClassReport) : List String :=
  ["-----------Class " ++ r.name ++ "-----------", "---Variables---"] ++
    r.fields.map OffsetLine.text ++ ["---Methods---"] ++ r.methods.map OffsetLine.text ++ [""]

namespace ClassTable

/-- A method that overrides another one is listed with the ancestor only. -/
def classReport (t : ClassTable) (c : ClassInfo) : ClassReport :=
  { name := c.name
    fields := c.fields.map fun f => ⟨c.name, f.name, f.offset⟩
    methods := (c.methods.filter fun m => (t.inheritedMethod? c.name m.name).isNone).map
      fun m => ⟨m.owner, m.name, m.offset⟩ }

def report (t : ClassTable) : List ClassReport := (t.classes.drop 1).map t.classReport

def reportText (t : ClassTable) : String :=
  String.join ((t.report.flatMap ClassReport.lines).map (· ++ "\n"))

end ClassTable

end ClassCheck
