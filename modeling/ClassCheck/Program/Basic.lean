import ClassCheck.Span

/-! # MiniJava programs as trees

Every name, type and expression carries the stretch of source text that it was read from.
-/

namespace ClassCheck

structure Ident where
  name : String
  span : Span
  deriving DecidableEq

/-! ## Types as they are written -/

inductive TypeName where
  | int
  | boolean
  | intArray
  | named (name : String)
  deriving DecidableEq

def TypeName.text : TypeName → String
  | .int => "int"
  | .boolean => "boolean"
  | .intArray => "int[]"
  | .named name => name

structure TypeRef where
  name : TypeName
  span : Span
  deriving DecidableEq

/-- A type and a name: a field, a parameter or a local variable. -/
structure VarDecl where
  type : TypeRef
  name : Ident
  deriving DecidableEq

/-! ## Expressions -/

inductive BinaryOp where
  | and
  | less
  | add
  | sub
  | mul
  deriving DecidableEq

def BinaryOp.symbol : BinaryOp → String
  | .and => "&&"
  | .less => "<"
  | .add => "+"
  | .sub => "-"
  | .mul => "*"

inductive Expr where
  | int (span : Span) (value : Int)
  | bool (span : Span) (value : Bool)
  | ident (span : Span) (name : String)
  | this (span : Span)
  | binary (span : Span) (op : BinaryOp) (left right : Expr)
  | not (span : Span) (operand : Expr)
  | index (span : Span) (array position : Expr)
  | length (span : Span) (array : Expr)
  | call (span : Span) (receiver : Expr) (method : Ident) (args : List Expr)
  | newArray (span : Span) (size : Expr)
  | newObject (span : Span) (className : Ident)
  | paren (span : Span) (inner : Expr)

def Expr.span : Expr → Span
  | .int span _ | .bool span _ | .ident span _ | .this span | .binary span _ _ _ | .not span _
  | .index span _ _ | .length span _ | .call span _ _ _ | .newArray span _ | .newObject span _
  | .paren span _ => span

/-! ## Statements -/

inductive Stmt where
  | block (body : List Stmt)
  | assign (target : Ident) (value : Expr)
  | arrayAssign (target : Ident) (index value : Expr)
  | ifElse (condition : Expr) (thenBranch elseBranch : Stmt)
  | loop (condition : Expr) (body : Stmt)
  | print (value : Expr)

/-! ## Declarations -/

structure MethodDecl where
  returnType : TypeRef
  name : Ident
  params : List VarDecl
  locals : List VarDecl
  body : List Stmt
  returned : Expr

structure ClassDecl where
  name : Ident
  superclass : Option Ident
  fields : List VarDecl
  methods : List MethodDecl

/-- The class that holds `main`. Of the argument only the name is kept: its type is always
`String[]`. -/
structure MainClass where
  name : Ident
  args : Ident
  locals : List VarDecl
  body : List Stmt

structure Program where
  main : MainClass
  classes : List ClassDecl

end ClassCheck
