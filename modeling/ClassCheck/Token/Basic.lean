import ClassCheck.Span
import ClassCheck.Text.Align

/-! # Tokens -/

namespace ClassCheck

/-- What a token is. `endOfFile` stands after the last token of a file. -/
inductive TokenKind where
  | number
  | identifier
  | int
  | boolean
  | void
  | string
  | classWord
  | publicWord
  | staticWord
  | mainWord
  | extendsWord
  | ifWord
  | elseWord
  | whileWord
  | returnWord
  | print
  | trueWord
  | falseWord
  | thisWord
  | newWord
  | lengthWord
  | andAnd
  | less
  | plus
  | minus
  | star
  | bang
  | equal
  | dot
  | comma
  | semicolon
  | leftParen
  | rightParen
  | leftBrace
  | rightBrace
  | leftBracket
  | rightBracket
  | endOfFile
  deriving DecidableEq

namespace TokenKind

/-- The name of a kind in a token listing. -/
def name : TokenKind → String
  | .number => "IntLiteral"
  | .identifier => "Identifier"
  | .int => "Int"
  | .boolean => "Boolean"
  | .void => "Void"
  | .string => "String"
  | .classWord => "Class"
  | .publicWord => "Public"
  | .staticWord => "Static"
  | .mainWord => "Main"
  | .extendsWord => "Extends"
  | .ifWord => "If"
  | .elseWord => "Else"
  | .whileWord => "While"
  | .returnWord => "Return"
  | .print => "Print"
  | .trueWord => "True"
  | .falseWord => "False"
  | .thisWord => "This"
  | .newWord => "New"
  | .lengthWord => "Length"
  | .andAnd => "AmpersandAmpersand"
  | .less => "Less"
  | .plus => "Plus"
  | .minus => "Minus"
  | .star => "Star"
  | .bang => "Bang"
  | .equal => "Equal"
  | .dot => "Dot"
  | .comma => "Comma"
  | .semicolon => "Semicolon"
  | .leftParen => "LeftParen"
  | .rightParen => "RightParen"
  | .leftBrace => "LeftBrace"
  | .rightBrace => "RightBrace"
  | .leftBracket => "LeftBracket"
  | .rightBracket => "RightBracket"
  | .endOfFile => "Eof"

/-- The words that are no identifiers, and the kind of each. -/
def keywords : List (List Char × TokenKind) :=
  [("int".toList, .int), ("boolean".toList, .boolean), ("void".toList, .void),
    ("String".toList, .string), ("class".toList, .classWord), ("public".toList, .publicWord),
    ("static".toList, .staticWord), ("main".toList, .mainWord), ("extends".toList, .extendsWord),
    ("if".toList, .ifWord), ("else".toList, .elseWord), ("while".toList, .whileWord),
    ("return".toList, .returnWord), ("true".toList, .trueWord), ("false".toList, .falseWord),
    ("this".toList, .thisWord), ("new".toList, .newWord), ("length".toList, .lengthWord)]

/-- A word is a keyword or an identifier. -/
def ofWord (word : List Char) : TokenKind :=
  (keywords.lookup word).getD .identifier

/-- The signs of one character. -/
def signs : List (Char × TokenKind) :=
  [('(', .leftParen), (')', .rightParen), ('\x7b', .leftBrace), ('\x7d', .rightBrace),
    ('[', .leftBracket), (']', .rightBracket), (',', .comma), (';', .semicolon), ('.', .dot),
    ('<', .less), ('+', .plus), ('-', .minus), ('*', .star), ('!', .bang), ('=', .equal)]

def ofSign? (c : Char) : Option TokenKind := signs.lookup c

/-- The print statement begins with one word that has dots in it. -/
def printWord : List Char := "System.out.println".toList

/-- How a kind is written, if it is always written in one way. -/
def spelling? : TokenKind → Option (List Char)
  | .number | .identifier => none
  | .endOfFile => some []
  | .print => some printWord
  | .andAnd => some ['&', '&']
  | kind =>
    match keywords.find? (·.2 == kind) with
    | some (word, _) => some word
    | none => (signs.find? (·.2 == kind)).map fun (c, _) => [c]

end TokenKind

/-- A token, the text it was written as, and the bytes where it stands. -/
structure Token where
  kind : TokenKind
  lexeme : String
  offset : Nat
  length : Nat
  deriving DecidableEq

namespace Token

def span (t : Token) : Span := ⟨t.offset, t.length⟩

def endOfFile (offset : Nat) : Token := ⟨.endOfFile, "", offset, 0⟩

/-- The line of a token in a token listing. -/
def line (t : Token) : String :=
  Text.alignRight 5 (toString t.offset) ++ "  " ++ Text.alignLeft 18 t.kind.name ++ " " ++ t.lexeme

end Token

end ClassCheck
