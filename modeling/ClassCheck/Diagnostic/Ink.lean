/-! # Coloured text for terminals -/

namespace ClassCheck

inductive Hue where
  | red
  | green
  | blue
  | cyan

structure Ink where
  hue : Hue
  bold : Bool := false

namespace Ink

def hueCode : Hue → String
  | .red => "31"
  | .green => "32"
  | .blue => "34"
  | .cyan => "36"

/-- The numbers that a terminal takes for this ink. -/
def codes (ink : Ink) : String :=
  (if ink.bold then "1;" else "") ++ hueCode ink.hue

/-- Switches the ink on. -/
def start (ink : Ink) : String := "\x1b[" ++ ink.codes ++ "m"

/-- Switches everything off. -/
def stop : String := "\x1b[0m"

/-- Where the text itself switches everything off, `start` comes again. -/
def resume (start : List Char) : List Char → List Char
  | '\x1b' :: '[' :: '0' :: 'm' :: cs => stop.toList ++ start ++ resume start cs
  | c :: cs => c :: resume start cs
  | [] => []

/-- Switches the ink on before the text and everything off after it, also if the text is empty. The
whole text is in this ink, also what follows a switch inside it. Without colour the text stands
alone. -/
def paint (color : Bool) (ink : Ink) (text : String) : String :=
  if color then
    ink.start ++ String.ofList (resume ink.start.toList text.toList) ++ stop
  else text

end Ink

end ClassCheck
