import ClassCheck.Program.Basic
import ClassCheck.Text.Quoted

/-!
# Programs as indented outlines

An outline is a list of lines. A node opens on one line and closes on another, and its parts stand
between them, four spaces further in, with a comma after each.
-/

namespace ClassCheck

/-- The lines of an outline. -/
abbrev Outline := List String

namespace Outline

def indent (o : Outline) : Outline := o.map ("    " ++ ·)

/-- Puts a text before the first line. -/
def label (text : String) (o : Outline) : Outline := o.modifyHead (text ++ ·)

/-- Puts a comma after the last line. -/
def comma : Outline → Outline
  | [] => []
  | [line] => [line ++ ","]
  | line :: lines => line :: comma lines

def node (opening closing : String) (parts : List Outline) : Outline :=
  [opening] ++ parts.flatMap (fun part => part.comma.indent) ++ [closing]

/-- A node with named parts. -/
def record (name : String) (fields : List (String × Outline)) : Outline :=
  node (name ++ " \x7b") "\x7d" (fields.map fun (field, value) => value.label (field ++ ": "))

/-- A node with one part, which has no name. -/
def wrap (name : String) (part : Outline) : Outline := node (name ++ "(") ")" [part]

def list : List Outline → Outline
  | [] => ["[]"]
  | parts => node "[" "]" parts

def option : Option Outline → Outline
  | none => ["None"]
  | some part => wrap "Some" part

/-- The lines of an outline, with no line feed after the last one. -/
def text (o : Outline) : String := "\n".intercalate o

end Outline

open Outline

def Span.outline (s : Span) : Outline :=
  record "Span" [("offset", [toString s.offset]), ("length", [toString s.length])]

def Ident.outline (i : Ident) : Outline :=
  record "Ident" [("name", [Text.quoted i.name]), ("span", i.span.outline)]

def TypeName.outline : TypeName → Outline
  | .int => ["Int"]
  | .boolean => ["Boolean"]
  | .intArray => ["IntArray"]
  | .named name => wrap "Named" [Text.quoted name]

def TypeRef.outline (t : TypeRef) : Outline :=
  record "TypeSpec" [("kind", t.name.outline), ("span", t.span.outline)]

def VarDecl.outline (d : VarDecl) : Outline :=
  record "VarDecl" [("type_spec", d.type.outline), ("name", d.name.outline)]

def BinaryOp.outline : BinaryOp → Outline
  | .and => ["And"]
  | .less => ["Less"]
  | .add => ["Add"]
  | .sub => ["Sub"]
  | .mul => ["Mul"]

/-- An expression shows what it is and where it stands. -/
def Expr.outlineOf (span : Span) (kind : Outline) : Outline :=
  record "Expr" [("kind", kind), ("span", span.outline)]

mutual
def Expr.outline : Expr → Outline
  | .int span value => outlineOf span (wrap "IntLiteral" [toString value])
  | .bool span value => outlineOf span (wrap "BoolLiteral" [toString value])
  | .ident span name => outlineOf span (wrap "Identifier" [Text.quoted name])
  | .this span => outlineOf span ["This"]
  | .binary span op left right =>
    outlineOf span
      (record "Binary" [("left", left.outline), ("op", op.outline), ("right", right.outline)])
  | .not span operand => outlineOf span (wrap "Not" operand.outline)
  | .index span array position =>
    outlineOf span (record "Index" [("array", array.outline), ("index", position.outline)])
  | .length span array => outlineOf span (wrap "Length" array.outline)
  | .call span receiver method args =>
    outlineOf span
      (record "Call" [("receiver", receiver.outline), ("method", method.outline),
        ("args", list (Expr.outlines args))])
  | .newArray span size => outlineOf span (wrap "NewArray" size.outline)
  | .newObject span className => outlineOf span (wrap "NewObject" className.outline)
  | .paren span inner => outlineOf span (wrap "Paren" inner.outline)

def Expr.outlines : List Expr → List Outline
  | [] => []
  | e :: es => e.outline :: Expr.outlines es
end

mutual
def Stmt.outline : Stmt → Outline
  | .block body => wrap "Block" (list (Stmt.outlines body))
  | .assign target value =>
    record "Assign" [("target", target.outline), ("value", value.outline)]
  | .arrayAssign target index value =>
    record "ArrayAssign"
      [("target", target.outline), ("index", index.outline), ("value", value.outline)]
  | .ifElse condition thenBranch elseBranch =>
    record "If" [("condition", condition.outline), ("then_branch", thenBranch.outline),
      ("else_branch", elseBranch.outline)]
  | .loop condition body =>
    record "While" [("condition", condition.outline), ("body", body.outline)]
  | .print value => wrap "Print" value.outline

def Stmt.outlines : List Stmt → List Outline
  | [] => []
  | s :: ss => s.outline :: Stmt.outlines ss
end

def MethodDecl.outline (m : MethodDecl) : Outline :=
  record "MethodDecl" [("return_type", m.returnType.outline), ("name", m.name.outline),
    ("params", list (m.params.map VarDecl.outline)),
    ("locals", list (m.locals.map VarDecl.outline)), ("body", list (Stmt.outlines m.body)),
    ("return_expr", m.returned.outline)]

def ClassDecl.outline (c : ClassDecl) : Outline :=
  record "ClassDecl" [("name", c.name.outline),
    ("superclass", option (c.superclass.map Ident.outline)),
    ("fields", list (c.fields.map VarDecl.outline)),
    ("methods", list (c.methods.map MethodDecl.outline))]

def MainClass.outline (c : MainClass) : Outline :=
  record "MainClass" [("name", c.name.outline), ("args", c.args.outline),
    ("locals", list (c.locals.map VarDecl.outline)), ("body", list (Stmt.outlines c.body))]

def Program.outline (p : Program) : Outline :=
  record "Program" [("main_class", p.main.outline),
    ("classes", list (p.classes.map ClassDecl.outline))]

end ClassCheck
