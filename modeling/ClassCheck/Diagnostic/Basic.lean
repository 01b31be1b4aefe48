import ClassCheck.Source

/-! # Diagnostics -/

namespace ClassCheck

inductive Level where
  | error
  | note
  deriving DecidableEq

/-- Where a diagnostic points, as it is shown. -/
structure Location where
  file : String
  line : Nat
  column : Nat
  length : Nat
  deriving DecidableEq

def Location.text (location : Location) : String :=
  location.file ++ ":" ++ toString location.line ++ ":" ++ toString location.column

/-- An underline below part of the shown line, with a message that may be empty. -/
structure Label where
  column : Nat
  length : Nat
  message : String
  deriving DecidableEq

/-- What is wrong, and where. A diagnostic about no place in particular has no location. -/
structure Diagnostic where
  level : Level
  code : String
  message : String
  location : Option Location := none
  sourceLine : Option String := none
  labels : List Label := []
  help : Option String := none
  deriving DecidableEq

namespace Diagnostic

def isError (d : Diagnostic) : Bool := d.level == .error

def errorCount (ds : List Diagnostic) : Nat := ds.countP isError

def hasErrors (ds : List Diagnostic) : Bool := ds.any isError

/-- Points a diagnostic at a stretch of the source: it gets the location, the text of the line where
the stretch begins, and one more label. -/
def pointAt (source : Source) (span : Span) (label : String) (d : Diagnostic) : Diagnostic :=
  let position := source.locate span.offset
  { d with
    location := some ⟨source.file, position.line, position.column, span.length⟩
    sourceLine := some (source.lineText position.line)
    labels := d.labels ++ [⟨position.column, span.length, label⟩] }

end Diagnostic

end ClassCheck
