import ClassCheck.Grammar.Decl

/-!
# Reading on after an error

A class that cannot be read does not keep the later ones from being read. The reader goes on to the next class, where it
is not lost any more.
-/

namespace ClassCheck.Reader

/-- Goes on to the next class, or to the end of the file. -/
def recover (r : Reader) : Reader :=
  { r with rest := r.rest.dropWhile (·.kind != .classWord), lost := false }

/-- Reads a class. What cannot be read is skipped. -/
def readClass (r : Reader) : Option ClassDecl × Reader :=
  let (class?, r) := Routine.classDecl r
  (class?, if class?.isSome then r else r.recover)

/-- The classes that can be read in at most `bound` attempts. -/
def readClassesWithin : Nat → Reader → List ClassDecl × Reader
  | 0, r => ([], r)
  | bound + 1, r =>
    if r.rest.isEmpty then ([], r)
    else
      let (class?, r) := r.readClass
      let (classes, r) := readClassesWithin bound r
      (class?.toList ++ classes, r)

/-- The classes in the rest of the file. Each attempt takes at least one token. -/
def readClasses (r : Reader) : List ClassDecl × Reader := readClassesWithin r.rest.length r

/-- Reads a whole program. A class that cannot be read is left out, so that errors in later classes
show up too. Without its main class there is no program. -/
def readProgram (r : Reader) : Option Program × Reader :=
  let (main?, r) := Routine.mainClass r
  let r := if main?.isSome then r else r.recover
  let (classes, r) := r.readClasses
  (main?.map fun main => { main, classes }, r)

def readStatement (r : Reader) : Option Stmt × Reader := Routine.statement r

def readExpression (r : Reader) : Option Expr × Reader := Routine.expression r

end ClassCheck.Reader
