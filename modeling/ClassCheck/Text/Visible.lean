/-!
# Text without terminal codes

A log is kept as plain text, so the codes that steer a terminal are left out of it. They are read as
a terminal reads them: an escape begins a sequence, and nothing in a sequence is shown.
-/

namespace ClassCheck.Text

/-- White space that breaks off a sequence: tab, line feed, form feed, carriage return. -/
def isLayout (c : Char) : Bool := c == '\t' || c == '\n' || c == '\x0c' || c == '\r'

/-- Characters for a reader. The others below U+0020, and U+007F, are for the terminal. -/
def isVisible (c : Char) : Bool := isLayout c || (' ' ≤ c && c != '\x7f')

/-- What a terminal is reading. -/
inductive Reading where
  /-- Text to be shown. -/
  | text
  /-- An escape. -/
  | escape
  /-- An escape with marks after it. -/
  | markedEscape
  /-- A control sequence, which ends at a character from `@` to `~`. -/
  | control
  /-- The beginning of a device control string. -/
  | device
  /-- The numbers of a device control string. -/
  | deviceNumbers
  /-- The marks of a device control string. -/
  | deviceMarks
  /-- The body of a string, which ends at the byte 0x9C. -/
  | string
  /-- A command to the system, which ends at a bell. -/
  | command
  deriving DecidableEq

namespace Reading

def isMark (c : Char) : Bool := ' ' ≤ c && c ≤ '/'

/-- What a terminal reads after a character inside a sequence. A character that has no place there
changes nothing. -/
def next (c : Char) : Reading → Reading
  | .text => .text
  | .escape =>
    if isMark c then .markedEscape
    else if c == '[' then .control
    else if c == ']' then .command
    else if c == 'P' then .device
    else if c == 'X' || c == '^' || c == '_' then .string
    else if '0' ≤ c && c ≤ '~' then .text
    else .escape
  | .markedEscape => if '0' ≤ c && c ≤ '~' then .text else .markedEscape
  | .control => if '@' ≤ c && c ≤ '~' then .text else .control
  | .device =>
    if isMark c then .deviceMarks
    else if '0' ≤ c && c ≤ '?' then .deviceNumbers
    else if '@' ≤ c && c ≤ '~' then .string
    else .device
  | .deviceNumbers =>
    if isMark c then .deviceMarks
    else if '<' ≤ c && c ≤ '~' then .string
    else .deviceNumbers
  | .deviceMarks => if '0' ≤ c && c ≤ '~' then .string else .deviceMarks
  | .string => if (String.utf8EncodeChar c).contains 0x9C then .text else .string
  | .command => if c == '\x07' then .text else .command

/-- Strings and commands hold their white space, other sequences give way to it. -/
def shows (c : Char) : Reading → Bool
  | .text => isVisible c
  | .escape | .markedEscape | .control => isLayout c
  | .device | .deviceNumbers | .deviceMarks | .string | .command => false

/-- An escape begins anew, cancel (U+0018) and substitute (U+001A) end any sequence, and so does
what is shown. -/
def after (c : Char) (reading : Reading) : Reading :=
  if c == '\x1b' then .escape
  else if c == '\x18' || c == '\x1a' || reading.shows c then .text
  else reading.next c

end Reading

def visibleFrom (reading : Reading) : List Char → List Char
  | [] => []
  | c :: cs =>
    let rest := visibleFrom (reading.after c) cs
    if reading.shows c then c :: rest else rest

/-- What a reader sees of a text. -/
def visible (text : String) : String := String.ofList (visibleFrom .text text.toList)

end ClassCheck.Text
