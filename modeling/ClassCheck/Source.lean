import ClassCheck.Span

/-!
# Source files and their lines

A line ends at a line feed. Lines and columns are counted from 1.
-/

namespace ClassCheck

/-- A source file: the name shown in messages, and the text. -/
structure Source where
  file : String
  text : String

namespace Source

/-! ## Lines -/

/-- The lines of a text, without the line feeds between them. There is always at least one. -/
def splitLines : List Char → List (List Char)
  | [] => [[]]
  | '\n' :: cs => [] :: splitLines cs
  | c :: cs => (splitLines cs).modifyHead (c :: ·)

theorem splitLines_ne_nil (cs : List Char) : splitLines cs ≠ [] := by
  fun_induction splitLines cs with
  | case1 => simp
  | case2 => simp
  | case3 c cs _ ih => simpa [List.modifyHead_eq_nil_iff] using ih

theorem intercalate_splitLines (cs : List Char) : ['\n'].intercalate (splitLines cs) = cs := by
  fun_induction splitLines cs with
  | case1 => rfl
  | case2 cs ih =>
    obtain ⟨line, lines, h⟩ := List.exists_cons_of_ne_nil (splitLines_ne_nil cs)
    rw [h] at ih ⊢
    rw [List.intercalate_cons_cons, ih]
    rfl
  | case3 c cs _ ih =>
    obtain ⟨line, lines, h⟩ := List.exists_cons_of_ne_nil (splitLines_ne_nil cs)
    rw [h] at ih ⊢
    rw [List.modifyHead_cons]
    cases lines with
    | nil => simpa using ih
    | cons l ls =>
      rw [List.intercalate_cons_cons] at ih ⊢
      rw [← ih]
      rfl

/-- The offset at which each line begins, if the first begins at `offset`. -/
def startsFrom (offset : Nat) : List (List Char) → List Nat
  | [] => []
  | line :: lines => offset :: startsFrom (offset + byteSize line + 1) lines

def lines (source : Source) : List (List Char) := splitLines source.text.toList

def lineStarts (source : Source) : List Nat := startsFrom 0 source.lines

/-- The text of a line, without the carriage returns at its end. It is empty for a line that is
not there. -/
def lineText (source : Source) : Nat → String
  | 0 => ""
  | n + 1 =>
    let line := source.lines.getD n []
    String.ofList (line.reverse.dropWhile (· == '\r')).reverse

/-! ## Positions -/

structure Position where
  line : Nat
  column : Nat
  deriving DecidableEq

/-- The position of a byte. An offset past the end stays on the last line. There is no largest offset or column. -/
def locate (source : Source) (offset : Nat) : Position :=
  let before := source.lineStarts.takeWhile (· ≤ offset)
  ⟨before.length, offset - before.getLastD 0 + 1⟩

end Source

end ClassCheck
