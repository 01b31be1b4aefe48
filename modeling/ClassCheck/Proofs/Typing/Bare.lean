import ClassCheck.Declare.Classes
import ClassCheck.Proofs.Outcome
import ClassCheck.Proofs.Program.Trees
import ClassCheck.Typing

/-!
# Checking does not depend on where things stand

The class table holds names and types, but no places. So a program without its places is declared and checked
as the program itself: step by step the log and the table are the same, and an error has the same cause.
-/

namespace ClassCheck

open Logged

def SemanticError.bare (e : SemanticError) : SemanticError := ⟨e.cause, .nowhere⟩

theorem Ident.map_name_bare (i? : Option Ident) :
    (i?.map Ident.bare).map (·.name) = i?.map (·.name) := by
  cases i? <;> rfl

def ClassHeader.bare (c : ClassHeader) : ClassHeader := ⟨c.name.bare, c.superclass.map Ident.bare⟩

theorem Program.headers_bare (p : Program) : p.bare.headers = p.headers.map ClassHeader.bare := by
  simp [headers, bare, ClassHeader.bare, MainClass.bare, ClassDecl.header, ClassDecl.bare]

namespace ClassTable

variable (t : ClassTable)

/-! ## Classes -/

theorem headerError?_bare (c : ClassHeader) :
    t.headerError? c.bare = (t.headerError? c).map SemanticError.bare := by
  rcases c with ⟨name, _ | parent⟩
  all_goals
    simp only [headerError?, apply_ite (Option.map SemanticError.bare)]
    rfl

theorem declareHeaders_bare (cs : List ClassHeader) :
    t.declareHeaders (cs.map ClassHeader.bare) = (t.declareHeaders cs).mapError SemanticError.bare := by
  induction cs generalizing t with
  | nil => rfl
  | cons c cs ih =>
    have hparent : c.bare.superclass.map (·.name) = c.superclass.map (·.name) :=
      Ident.map_name_bare c.superclass
    rw [List.map_cons, declareHeaders, declareHeaders, headerError?_bare]
    cases t.headerError? c with
    | some e => rfl
    | none =>
      simp only [Option.map_none, mapError_bind, mapError_record, ih, hparent]
      rfl

/-! ## Members -/

theorem knownType_bare (ref : TypeRef) (name : String) :
    t.knownType ref.bare name = (t.knownType ref name).mapError SemanticError.bare := by
  simp only [knownType, apply_ite (Except.mapError SemanticError.bare)]
  rfl

theorem declareFields_bare (c : ClassInfo) (ds : List VarDecl) :
    t.declareFields c (ds.map VarDecl.bare) = (t.declareFields c ds).mapError SemanticError.bare := by
  induction ds generalizing c with
  | nil => rfl
  | cons d ds ih =>
    rw [List.map_cons, declareFields, declareFields, Outcome.mapError_bind]
    simp only [VarDecl.bare, Ident.bare, knownType_bare, ih]
    refine bind_congr fun type => ?_
    split <;> rfl

theorem declareParams_bare (m : MethodInfo) (ds : List VarDecl) :
    t.declareParams m (ds.map VarDecl.bare) = (t.declareParams m ds).mapError SemanticError.bare := by
  induction ds generalizing m with
  | nil => rfl
  | cons d ds ih =>
    rw [List.map_cons, declareParams, declareParams, Outcome.mapError_bind]
    simp only [VarDecl.bare, Ident.bare, knownType_bare, ih]
    refine bind_congr fun type => ?_
    split <;> rfl

theorem declareLocals_bare (m : MethodInfo) (ds : List VarDecl) :
    t.declareLocals m (ds.map VarDecl.bare) = (t.declareLocals m ds).mapError SemanticError.bare := by
  induction ds generalizing m with
  | nil => rfl
  | cons d ds ih =>
    rw [List.map_cons, declareLocals, declareLocals, Outcome.mapError_bind]
    simp only [VarDecl.bare, Ident.bare, knownType_bare, ih]
    refine bind_congr fun type => ?_
    split <;> rfl

theorem paramMismatch?_bare (method superclass : String) (position : Nat) (expected found : List Variable)
    (ds : List VarDecl) :
    paramMismatch? method superclass position expected found (ds.map VarDecl.bare) =
      (paramMismatch? method superclass position expected found ds).map SemanticError.bare := by
  induction ds generalizing position expected found with
  | nil => cases expected <;> cases found <;> rfl
  | cons d ds ih =>
    cases expected with
    | nil => rfl
    | cons e es =>
      cases found with
      | nil => rfl
      | cons f fs =>
        simp only [List.map_cons, paramMismatch?, apply_ite (Option.map SemanticError.bare), ih]
        rfl

theorem overrideError?_bare (inherited m : MethodInfo) (d : MethodDecl) :
    overrideError? inherited m d.bare = (overrideError? inherited m d).map SemanticError.bare := by
  simp only [overrideError?, apply_ite (Option.map SemanticError.bare), MethodDecl.bare,
    paramMismatch?_bare]
  rfl

theorem checkOverride_bare (m : MethodInfo) (d : MethodDecl) :
    t.checkOverride m d.bare = (t.checkOverride m d).mapError SemanticError.bare := by
  have hbind : (t.inheritedMethod? m.owner m.name).bind (overrideError? · m d.bare) =
      ((t.inheritedMethod? m.owner m.name).bind (overrideError? · m d)).map SemanticError.bare := by
    simp only [overrideError?_bare]
    cases t.inheritedMethod? m.owner m.name <;> rfl
  rw [checkOverride, checkOverride, hbind]
  cases (t.inheritedMethod? m.owner m.name).bind (overrideError? · m d) <;> rfl

theorem declareMethod_bare (c : ClassInfo) (d : MethodDecl) :
    t.declareMethod c d.bare = (t.declareMethod c d).mapError SemanticError.bare := by
  have htype : t.knownType d.bare.returnType d.bare.name.name =
      (t.knownType d.returnType d.name.name).mapError SemanticError.bare :=
    t.knownType_bare d.returnType d.name.name
  have hparams (m : MethodInfo) : t.declareParams m d.bare.params =
      (t.declareParams m d.params).mapError SemanticError.bare := t.declareParams_bare m d.params
  have hlocals (m : MethodInfo) : t.declareLocals m d.bare.locals =
      (t.declareLocals m d.locals).mapError SemanticError.bare := t.declareLocals_bare m d.locals
  simp only [declareMethod, Outcome.mapError_bind, apply_ite (Except.mapError SemanticError.bare),
    htype, hparams, hlocals, checkOverride_bare]
  rfl

theorem declareMethods_bare (c : ClassInfo) (ds : List MethodDecl) :
    t.declareMethods c (ds.map MethodDecl.bare) = (t.declareMethods c ds).mapError SemanticError.bare := by
  induction ds generalizing c with
  | nil => rfl
  | cons d ds ih =>
    simp only [List.map_cons, declareMethods, Outcome.mapError_bind, declareMethod_bare, ih]

theorem fillClass_bare (d : ClassDecl) :
    t.fillClass d.bare = (t.fillClass d).mapError SemanticError.bare := by
  simp only [fillClass, Outcome.mapError_bind, ClassDecl.bare, Ident.map_name_bare, declareFields_bare,
    declareMethods_bare]
  rfl

theorem fillClasses_bare (ds : List ClassDecl) :
    t.fillClasses (ds.map ClassDecl.bare) = (t.fillClasses ds).mapError SemanticError.bare := by
  induction ds generalizing t with
  | nil => rfl
  | cons d ds ih =>
    simp only [List.map_cons, fillClasses, Outcome.mapError_bind, fillClass_bare, ih]

theorem fillMain_bare (d : MainClass) : t.fillMain d.bare = (t.fillMain d).mapError SemanticError.bare := by
  simp only [fillMain, Outcome.mapError_bind, MainClass.bare, declareLocals_bare]
  rfl

/-! ## Expressions -/

variable (cx : Context)

theorem mapError_reject {α : Type} (cause : SemanticCause) (span : Span) :
    (reject cause span : Check α).mapError SemanticError.bare = reject cause .nowhere := rfl

theorem mapError_lookUp (name : String) :
    (t.lookUp cx name).mapError SemanticError.bare = t.lookUp cx name := rfl

theorem target_bare (name : Ident) :
    t.target cx name.bare = (t.target cx name).mapError SemanticError.bare := by
  simp only [target, mapError_bind, mapError_lookUp]
  refine bind_congr fun found => ?_
  cases found <;> rfl

theorem callee_bare (receiver : Ty) (span : Span) (method : Ident) :
    t.callee receiver .nowhere method.bare = (t.callee receiver span method).mapError SemanticError.bare := by
  cases receiver with
  | object className =>
    simp only [callee, apply_ite (Logged.mapError SemanticError.bare), mapError_reject, Ident.bare]
    cases t.method? className method.name <;> rfl
  | _ => rfl

theorem argumentError?_bare (method : String) (params : List Variable) (types : List Ty)
    (args : List Expr) :
    t.argumentError? method params types (args.map Expr.bare) =
      (t.argumentError? method params types args).map SemanticError.bare := by
  induction args generalizing params types with
  | nil => cases params <;> cases types <;> rfl
  | cons arg args ih =>
    cases params with
    | nil => rfl
    | cons param params =>
      cases types with
      | nil => rfl
      | cons type types =>
        simp only [List.map_cons, argumentError?, apply_ite (Option.map SemanticError.bare), ih,
          Expr.span_bare]
        rfl

theorem checkArguments_bare (m : MethodInfo) (span : Span) (args : List Expr) (types : List Ty) :
    t.checkArguments m .nowhere (args.map Expr.bare) types =
      (t.checkArguments m span args types).mapError SemanticError.bare := by
  simp only [checkArguments, apply_ite (Logged.mapError SemanticError.bare), mapError_reject,
    argumentError?_bare]
  cases t.argumentError? m.name m.params types args <;> rfl

theorem mapError_unaryType (op : Operator) (expected result found : Ty) (span : Span) :
    (unaryType op expected result found span).mapError SemanticError.bare =
      unaryType op expected result found .nowhere :=
  apply_ite (Logged.mapError SemanticError.bare) ..

theorem typesOf_bare {args : List Expr}
    (h : ∀ e ∈ args, t.typeOf cx e.bare = (t.typeOf cx e).mapError SemanticError.bare) :
    t.typesOf cx (args.map Expr.bare) = (t.typesOf cx args).mapError SemanticError.bare := by
  induction args with
  | nil => rfl
  | cons e es ih =>
    rw [List.forall_mem_cons] at h
    simp only [List.map_cons, typesOf, mapError_bind, h.1, ih h.2]
    rfl

theorem typeOf_bare (e : Expr) :
    t.typeOf cx e.bare = (t.typeOf cx e).mapError SemanticError.bare := by
  induction e with
  | int | bool | this => rfl
  | ident span name =>
    simp only [Expr.bare, typeOf, mapError_bind, mapError_lookUp]
    refine bind_congr fun found => ?_
    cases found <;> rfl
  | binary span op left right hl hr =>
    simp only [Expr.bare, typeOf, mapError_bind, hl, hr, apply_ite (Logged.mapError SemanticError.bare),
      mapError_reject]
    rfl
  | not span operand ih => simp only [Expr.bare, typeOf, mapError_bind, ih, mapError_unaryType]
  | index span array position ha hp =>
    simp only [Expr.bare, typeOf, mapError_bind, ha, hp, apply_ite (Logged.mapError SemanticError.bare),
      mapError_reject]
    rfl
  | length span array ih => simp only [Expr.bare, typeOf, mapError_bind, ih, mapError_unaryType]
  | call span receiver method args hr hargs =>
    simp only [Expr.bare, Expr.bareAll_eq, typeOf, mapError_bind, hr, Expr.span_bare, List.isEmpty_map,
      callee_bare t _ receiver.span, typesOf_bare t cx hargs, checkArguments_bare t _ span,
      apply_ite (Logged.mapError SemanticError.bare), mapError_reject]
    rfl
  | newArray span size ih => simp only [Expr.bare, typeOf, mapError_bind, ih, mapError_unaryType]
  | newObject span className =>
    simp only [Expr.bare, typeOf, apply_ite (Logged.mapError SemanticError.bare)]
    rfl
  | paren span inner ih => rw [Expr.bare, typeOf, typeOf, ih]

/-! ## Statements -/

theorem checkCondition_bare (statement : Conditional) (condition : Expr) :
    t.checkCondition cx statement condition.bare =
      (t.checkCondition cx statement condition).mapError SemanticError.bare := by
  simp only [checkCondition, mapError_bind, typeOf_bare, Expr.span_bare,
    apply_ite (Logged.mapError SemanticError.bare), mapError_reject]
  rfl

theorem checkAssign_bare (name : Ident) (value : Expr) :
    t.checkAssign cx name.bare value.bare =
      (t.checkAssign cx name value).mapError SemanticError.bare := by
  simp only [checkAssign, mapError_bind, target_bare, typeOf_bare, Expr.span_bare,
    apply_ite (Logged.mapError SemanticError.bare), mapError_reject]
  rfl

theorem checkArrayAssign_bare (name : Ident) (position value : Expr) :
    t.checkArrayAssign cx name.bare position.bare value.bare =
      (t.checkArrayAssign cx name position value).mapError SemanticError.bare := by
  simp only [checkArrayAssign, mapError_bind, target_bare, typeOf_bare, Expr.span_bare,
    apply_ite (Logged.mapError SemanticError.bare), mapError_reject]
  rfl

theorem checkStmts_bare_of_each {ss : List Stmt}
    (h : ∀ s ∈ ss, ∀ t : ClassTable,
      t.checkStmt cx s.bare = (t.checkStmt cx s).mapError SemanticError.bare) :
    t.checkStmts cx (ss.map Stmt.bare) = (t.checkStmts cx ss).mapError SemanticError.bare := by
  induction ss generalizing t with
  | nil => rfl
  | cons s ss ih =>
    rw [List.forall_mem_cons] at h
    simp only [List.map_cons, checkStmts, mapError_bind, h.1, (ih · h.2)]

theorem checkStmt_bare (s : Stmt) :
    t.checkStmt cx s.bare = (t.checkStmt cx s).mapError SemanticError.bare := by
  induction s generalizing t with
  | block body ih =>
    rw [Stmt.bare, Stmt.bareAll_eq, checkStmt, checkStmt]
    exact t.checkStmts_bare_of_each cx fun s hs t => ih s hs t
  | assign name value => exact t.checkAssign_bare cx name value
  | arrayAssign name position value =>
    simp only [Stmt.bare, checkStmt, mapError_bind, checkArrayAssign_bare]
    rfl
  | ifElse condition thenBranch elseBranch ht he =>
    simp only [Stmt.bare, checkStmt, mapError_bind, checkCondition_bare, ht, he]
  | loop condition body ih => simp only [Stmt.bare, checkStmt, mapError_bind, checkCondition_bare, ih]
  | print value =>
    simp only [Stmt.bare, checkStmt, mapError_bind, typeOf_bare]
    rfl

theorem checkStmts_bare (ss : List Stmt) :
    t.checkStmts cx (ss.map Stmt.bare) = (t.checkStmts cx ss).mapError SemanticError.bare :=
  t.checkStmts_bare_of_each cx fun s _ t => t.checkStmt_bare cx s

/-! ## Methods and programs -/

theorem checkMethod_bare (className : String) (d : MethodDecl) :
    t.checkMethod className d.bare = (t.checkMethod className d).mapError SemanticError.bare := by
  simp only [checkMethod, checkReturn, MethodDecl.bare, mapError_bind, checkStmts_bare, typeOf_bare,
    Expr.span_bare, apply_ite (Logged.mapError SemanticError.bare), mapError_reject]
  rfl

theorem checkMethods_bare (className : String) (ds : List MethodDecl) :
    t.checkMethods className (ds.map MethodDecl.bare) =
      (t.checkMethods className ds).mapError SemanticError.bare := by
  induction ds generalizing t with
  | nil => rfl
  | cons d ds ih => simp only [List.map_cons, checkMethods, mapError_bind, checkMethod_bare, ih]

theorem checkClasses_bare (ds : List ClassDecl) :
    t.checkClasses (ds.map ClassDecl.bare) = (t.checkClasses ds).mapError SemanticError.bare := by
  induction ds generalizing t with
  | nil => rfl
  | cons d ds ih =>
    simp only [List.map_cons, checkClasses, mapError_bind, ClassDecl.bare, checkMethods_bare, ih]
    rfl

end ClassTable

namespace Program

variable (p : Program)

theorem declareClasses_bare :
    p.bare.declareClasses = p.declareClasses.mapError SemanticError.bare := by
  simp only [declareClasses, headers_bare, ClassTable.declareHeaders_bare, mapError_bind, mapError_record]
  rfl

theorem declareMembers_bare (t : ClassTable) :
    p.bare.declareMembers t = (p.declareMembers t).mapError SemanticError.bare := by
  simp only [declareMembers, mapError_bind, mapError_silent, Outcome.mapError_bind, bare,
    ClassTable.fillMain_bare, ClassTable.fillClasses_bare]
  rfl

theorem check_bare (t : ClassTable) : p.bare.check t = (p.check t).mapError SemanticError.bare := by
  simp only [check, mapError_bind, bare, MainClass.bare, Ident.bare, ClassTable.checkStmts_bare,
    ClassTable.checkClasses_bare, List.length_map]
  rfl

end Program

end ClassCheck
