import ClassCheck.Program.Basic

/-!
# Programs as trees: induction, the expressions, names and types inside, trees without places

An expression can hold a list of expressions, and a statement a list of statements. The induction
principles here give a hypothesis for every member of such a list.
-/

namespace ClassCheck

/-! ## Induction -/

@[elab_as_elim, induction_eliminator]
theorem Expr.induction {P : Expr → Prop}
    (int : ∀ span value, P (.int span value))
    (bool : ∀ span value, P (.bool span value))
    (ident : ∀ span name, P (.ident span name))
    (this : ∀ span, P (.this span))
    (binary : ∀ span op left right, P left → P right → P (.binary span op left right))
    (not : ∀ span operand, P operand → P (.not span operand))
    (index : ∀ span array position, P array → P position → P (.index span array position))
    (length : ∀ span array, P array → P (.length span array))
    (call : ∀ span receiver method args, P receiver → (∀ arg ∈ args, P arg) →
      P (.call span receiver method args))
    (newArray : ∀ span size, P size → P (.newArray span size))
    (newObject : ∀ span className, P (.newObject span className))
    (paren : ∀ span inner, P inner → P (.paren span inner)) (e : Expr) : P e :=
  @Expr.rec P (fun args => ∀ arg ∈ args, P arg) int bool ident this binary not index length call
    newArray newObject paren (by simp) (fun _ _ hd tl => List.forall_mem_cons.2 ⟨hd, tl⟩) e

@[elab_as_elim, induction_eliminator]
theorem Stmt.induction {P : Stmt → Prop}
    (block : ∀ body, (∀ s ∈ body, P s) → P (.block body))
    (assign : ∀ target value, P (.assign target value))
    (arrayAssign : ∀ target index value, P (.arrayAssign target index value))
    (ifElse : ∀ condition thenBranch elseBranch, P thenBranch → P elseBranch →
      P (.ifElse condition thenBranch elseBranch))
    (loop : ∀ condition body, P body → P (.loop condition body))
    (print : ∀ value, P (.print value)) (s : Stmt) : P s :=
  @Stmt.rec P (fun body => ∀ s ∈ body, P s) block assign arrayAssign ifElse loop print (by simp)
    (fun _ _ hd tl => List.forall_mem_cons.2 ⟨hd, tl⟩) s

/-! ## The expressions inside -/

namespace Expr

mutual
/-- An expression and all expressions inside it. -/
def nodes : Expr → List Expr
  | .int span value => [.int span value]
  | .bool span value => [.bool span value]
  | .ident span name => [.ident span name]
  | .this span => [.this span]
  | .binary span op left right => .binary span op left right :: (left.nodes ++ right.nodes)
  | .not span operand => .not span operand :: operand.nodes
  | .index span array position => .index span array position :: (array.nodes ++ position.nodes)
  | .length span array => .length span array :: array.nodes
  | .call span receiver method args =>
    .call span receiver method args :: (receiver.nodes ++ nodesOfAll args)
  | .newArray span size => .newArray span size :: size.nodes
  | .newObject span className => [.newObject span className]
  | .paren span inner => .paren span inner :: inner.nodes

def nodesOfAll : List Expr → List Expr
  | [] => []
  | e :: es => e.nodes ++ nodesOfAll es
end

@[simp] theorem nodesOfAll_eq (es : List Expr) : nodesOfAll es = es.flatMap nodes := by
  induction es with
  | nil => rfl
  | cons e es ih => rw [nodesOfAll, ih, List.flatMap_cons]

end Expr

namespace Stmt

mutual
/-- All expressions inside a statement. -/
def exprs : Stmt → List Expr
  | .block body => exprsOfAll body
  | .assign _ value => value.nodes
  | .arrayAssign _ index value => index.nodes ++ value.nodes
  | .ifElse condition thenBranch elseBranch =>
    condition.nodes ++ (thenBranch.exprs ++ elseBranch.exprs)
  | .loop condition body => condition.nodes ++ body.exprs
  | .print value => value.nodes

def exprsOfAll : List Stmt → List Expr
  | [] => []
  | s :: ss => s.exprs ++ exprsOfAll ss
end

@[simp] theorem exprsOfAll_eq (ss : List Stmt) : exprsOfAll ss = ss.flatMap exprs := by
  induction ss with
  | nil => rfl
  | cons s ss ih => rw [exprsOfAll, ih, List.flatMap_cons]

end Stmt

def MethodDecl.exprs (d : MethodDecl) : List Expr := d.body.flatMap Stmt.exprs ++ d.returned.nodes

def ClassDecl.exprs (d : ClassDecl) : List Expr := d.methods.flatMap MethodDecl.exprs

def MainClass.exprs (d : MainClass) : List Expr := d.body.flatMap Stmt.exprs

/-- All expressions of a program: those of `main`, then those of the methods. -/
def Program.exprs (p : Program) : List Expr := p.main.exprs ++ p.classes.flatMap ClassDecl.exprs

/-! ## The names inside -/

/-- The names in an expression that are not in an expression inside it. -/
def Expr.ownNames : Expr → List Ident
  | .ident span name => [⟨name, span⟩]
  | .call _ _ method _ => [method]
  | .newObject _ className => [className]
  | _ => []

namespace Stmt

mutual
/-- The names in a statement that are not in an expression: those it assigns to. -/
def names : Stmt → List Ident
  | .block body => namesOfAll body
  | .assign target _ | .arrayAssign target _ _ => [target]
  | .ifElse _ thenBranch elseBranch => thenBranch.names ++ elseBranch.names
  | .loop _ body => body.names
  | .print _ => []

def namesOfAll : List Stmt → List Ident
  | [] => []
  | s :: ss => s.names ++ namesOfAll ss
end

@[simp] theorem namesOfAll_eq (ss : List Stmt) : namesOfAll ss = ss.flatMap names := by
  induction ss with
  | nil => rfl
  | cons s ss ih => rw [namesOfAll, ih, List.flatMap_cons]

end Stmt

/-! The names in a declaration that are not in an expression. -/

def MethodDecl.names (d : MethodDecl) : List Ident :=
  d.name :: (d.params.map VarDecl.name ++ (d.locals.map VarDecl.name ++ d.body.flatMap Stmt.names))

def ClassDecl.names (d : ClassDecl) : List Ident :=
  d.name :: (d.superclass.toList ++ (d.fields.map VarDecl.name ++ d.methods.flatMap MethodDecl.names))

def MainClass.names (d : MainClass) : List Ident :=
  d.name :: d.args :: (d.locals.map VarDecl.name ++ d.body.flatMap Stmt.names)

/-- All names of a program: those that are declared, extended or assigned to, and those in its
expressions. -/
def Program.names (p : Program) : List Ident :=
  p.main.names ++ p.classes.flatMap ClassDecl.names ++ p.exprs.flatMap Expr.ownNames

/-! ## The types inside -/

def MethodDecl.typeRefs (d : MethodDecl) : List TypeRef :=
  d.returnType :: (d.params.map VarDecl.type ++ d.locals.map VarDecl.type)

def ClassDecl.typeRefs (d : ClassDecl) : List TypeRef :=
  d.fields.map VarDecl.type ++ d.methods.flatMap MethodDecl.typeRefs

def MainClass.typeRefs (d : MainClass) : List TypeRef := d.locals.map VarDecl.type

/-- All types that are written in a program. -/
def Program.typeRefs (p : Program) : List TypeRef :=
  p.main.typeRefs ++ p.classes.flatMap ClassDecl.typeRefs

/-! ## Trees without places -/

/-- The place of everything in a tree whose places do not matter. -/
def Span.nowhere : Span := ⟨0, 0⟩

@[simp] theorem Span.merge_nowhere : Span.nowhere.merge .nowhere = .nowhere := rfl

def Ident.bare (i : Ident) : Ident := ⟨i.name, .nowhere⟩

def TypeRef.bare (r : TypeRef) : TypeRef := ⟨r.name, .nowhere⟩

def VarDecl.bare (d : VarDecl) : VarDecl := ⟨d.type.bare, d.name.bare⟩

namespace Expr

mutual
def bare : Expr → Expr
  | .int _ value => .int .nowhere value
  | .bool _ value => .bool .nowhere value
  | .ident _ name => .ident .nowhere name
  | .this _ => .this .nowhere
  | .binary _ op left right => .binary .nowhere op left.bare right.bare
  | .not _ operand => .not .nowhere operand.bare
  | .index _ array position => .index .nowhere array.bare position.bare
  | .length _ array => .length .nowhere array.bare
  | .call _ receiver method args => .call .nowhere receiver.bare method.bare (bareAll args)
  | .newArray _ size => .newArray .nowhere size.bare
  | .newObject _ className => .newObject .nowhere className.bare
  | .paren _ inner => .paren .nowhere inner.bare

def bareAll : List Expr → List Expr
  | [] => []
  | e :: es => e.bare :: bareAll es
end

@[simp] theorem bareAll_eq (es : List Expr) : bareAll es = es.map bare := by
  induction es with
  | nil => rfl
  | cons e es ih => rw [bareAll, ih, List.map_cons]

@[simp] theorem span_bare (e : Expr) : e.bare.span = .nowhere := by
  cases e <;> rfl

end Expr

namespace Stmt

mutual
def bare : Stmt → Stmt
  | .block body => .block (bareAll body)
  | .assign target value => .assign target.bare value.bare
  | .arrayAssign target index value => .arrayAssign target.bare index.bare value.bare
  | .ifElse condition thenBranch elseBranch =>
    .ifElse condition.bare thenBranch.bare elseBranch.bare
  | .loop condition body => .loop condition.bare body.bare
  | .print value => .print value.bare

def bareAll : List Stmt → List Stmt
  | [] => []
  | s :: ss => s.bare :: bareAll ss
end

@[simp] theorem bareAll_eq (ss : List Stmt) : bareAll ss = ss.map bare := by
  induction ss with
  | nil => rfl
  | cons s ss ih => rw [bareAll, ih, List.map_cons]

end Stmt

def MethodDecl.bare (d : MethodDecl) : MethodDecl where
  returnType := d.returnType.bare
  name := d.name.bare
  params := d.params.map VarDecl.bare
  locals := d.locals.map VarDecl.bare
  body := d.body.map Stmt.bare
  returned := d.returned.bare

def ClassDecl.bare (d : ClassDecl) : ClassDecl where
  name := d.name.bare
  superclass := d.superclass.map Ident.bare
  fields := d.fields.map VarDecl.bare
  methods := d.methods.map MethodDecl.bare

def MainClass.bare (d : MainClass) : MainClass where
  name := d.name.bare
  args := d.args.bare
  locals := d.locals.map VarDecl.bare
  body := d.body.map Stmt.bare

/-- A program with all its stretches of source text forgotten. Two programs that are the same up to
places have the same bare program. -/
def Program.bare (p : Program) : Program := ⟨p.main.bare, p.classes.map ClassDecl.bare⟩

end ClassCheck
