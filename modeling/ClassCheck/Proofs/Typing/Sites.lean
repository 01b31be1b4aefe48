import ClassCheck.Compile
import ClassCheck.Proofs.Outcome
import ClassCheck.Proofs.Program.Trees
import ClassCheck.Proofs.Typing.Blind

/-!
# Where semantic errors come from

A step of the analysis can fail in a few ways only, and an error stands at a name, a type or an expression of the
program. So what holds of the errors that these may give rise to holds of every error of a pass. First of all, the
error stands at a stretch that the program brings with it.
-/

namespace ClassCheck

open ClassCheck.Outcome

/-- The stretches of all names, types and expressions of a program. -/
def Program.spans (p : Program) : List Span :=
  p.names.map (·.span) ++ (p.typeRefs.map (·.span) ++ p.exprs.map (·.span))

/-- If the check fails, then with an error in one of these stretches. -/
def FailsIn {α : Type} (spans : List Span) (x : Except SemanticError α) : Prop :=
  ∀ e, x = .error e → e.span ∈ spans

/-! ## Errors that may arise -/

/-- Whether the error is about a declaration. All others are about statements and expressions. -/
def SemanticCause.isDeclaring : SemanticCause → Bool
  | .duplicateClass .. | .unknownSuperclass .. | .selfInheritance .. | .unknownType .. | .duplicateField ..
  | .duplicateMethod .. | .methodNamedLikeClass .. | .duplicateParameter .. | .duplicateLocal ..
  | .returnTypeMismatch .. | .arityMismatch .. | .parameterTypeMismatch .. => true
  | _ => false

/-- The expression calls a method with arguments that are not as many as the parameters of the method that it finds. A
call that has no arguments or needs none is not compared in this way. -/
inductive Expr.Miscounts (t : ClassTable) (cx : Context) : Expr → SemanticCause → Prop
  | call {span : Span} {receiver : Expr} {method : Ident} {args : List Expr} {type : Ty} {className : String}
      {m : MethodInfo} :
      (t.typeOf cx receiver).outcome = .ok type → type.resolveSelf cx.className = .object className →
      t.method? className method.name = some m → args ≠ [] → m.params ≠ [] → m.params.length ≠ args.length →
      Miscounts t cx (.call span receiver method args) (.arityMismatch method.name m.params.length args.length)

theorem Expr.mem_nodes_self (e : Expr) : e ∈ e.nodes := by
  cases e <;> simp [nodes]

variable {P : SemanticError → Prop} {declaring : Bool}

/-- The property holds of all errors at this stretch that are about declarations, or of all others. -/
def Admits (declaring : Bool) (P : SemanticError → Prop) (span : Span) : Prop :=
  ∀ cause : SemanticCause, cause.isDeclaring = declaring → P ⟨cause, span⟩

/-- The property holds of the errors that these expressions, the names in them, other names and types may give
rise to. -/
structure Allows (declaring : Bool) (P : SemanticError → Prop) (es : List Expr) (names : List Ident)
    (types : List TypeRef) : Prop where
  exprs : ∀ e ∈ es, Admits declaring P e.span
  ownNames : ∀ e ∈ es, ∀ i ∈ e.ownNames, Admits declaring P i.span
  names : ∀ i ∈ names, Admits declaring P i.span
  types : ∀ r ∈ types, Admits declaring P r.span

/-- The property holds of the errors about the number of arguments in these expressions. -/
def AllowsCalls (P : SemanticError → Prop) (t : ClassTable) (cx : Context) (es : List Expr) : Prop :=
  ∀ e ∈ es, ∀ cause, e.Miscounts t cx cause → P ⟨cause, e.span⟩

/-- The property holds of errors at the types and the names of variables that are declared. -/
def AllowsDecls (P : SemanticError → Prop) (ds : List VarDecl) : Prop :=
  ∀ d ∈ ds, Admits true P d.type.span ∧ Admits true P d.name.span

namespace Allows

variable {es es' : List Expr} {names names' : List Ident} {types types' : List TypeRef}

theorem mono (h : Allows declaring P es names types) (hes : es' ⊆ es) (hnames : names' ⊆ names)
    (htypes : types' ⊆ types) : Allows declaring P es' names' types' where
  exprs := fun e he => h.exprs e (hes he)
  ownNames := fun e he => h.ownNames e (hes he)
  names := fun i hi => h.names i (hnames hi)
  types := fun r hr => h.types r (htypes hr)

theorem inside (h : Allows declaring P es [] []) (hes : es' ⊆ es) : Allows declaring P es' [] [] :=
  h.mono hes (List.Subset.refl _) (List.Subset.refl _)

theorem decls {ds : List VarDecl} (h : Allows true P es names types) (hnames : ds.map VarDecl.name ⊆ names)
    (htypes : ds.map VarDecl.type ⊆ types) : AllowsDecls P ds := by
  intro d hd
  exact ⟨h.types _ (htypes (List.mem_map_of_mem hd)), h.names _ (hnames (List.mem_map_of_mem hd))⟩

theorem methods {d : ClassDecl} (h : Allows declaring P d.exprs d.names d.typeRefs) :
    ∀ m ∈ d.methods, Allows declaring P m.exprs m.names m.typeRefs := by
  intro m hm
  apply h.mono
  · grind [ClassDecl.exprs]
  · grind [ClassDecl.names]
  · grind [ClassDecl.typeRefs]

end Allows

theorem AllowsCalls.mono {t : ClassTable} {cx : Context} {es es' : List Expr} (h : AllowsCalls P t cx es)
    (hes : es' ⊆ es) : AllowsCalls P t cx es' :=
  fun e he => h e (hes he)

namespace ClassTable

variable (t : ClassTable)

/-! ## Classes -/

theorem headerError?_allowed {c : ClassHeader} (hname : Admits true P c.name.span)
    (hparent : ∀ parent ∈ c.superclass, Admits true P parent.span) :
    ∀ e ∈ t.headerError? c, P e := by
  intro e he
  unfold headerError? at he
  split at he
  · cases he
    exact hname _ rfl
  · split at he
    · cases he
    · next parent hsuper =>
      have hspan := hparent parent hsuper
      split at he
      · cases he
        exact hspan _ rfl
      · split at he
        · cases he
        · cases he
          exact hspan _ rfl

theorem failsWith_declareHeaders {cs : List ClassHeader} (h : ∀ c ∈ cs, Admits true P c.name.span ∧
    ∀ parent ∈ c.superclass, Admits true P parent.span) : FailsWith P (t.declareHeaders cs).outcome := by
  induction cs generalizing t with
  | nil => exact failsWith_ok t
  | cons c cs ih =>
    rw [List.forall_mem_cons] at h
    unfold declareHeaders
    split
    · next e he => exact failsWith_error (t.headerError?_allowed h.1.1 h.1.2 e he)
    · apply FailsWith.bindLogged (P := P) (failsWith_ok ())
      exact fun _ _ => ih _ h.2

/-! ## Members -/

theorem failsWith_knownType {ref : TypeRef} (h : Admits true P ref.span) (name : String) :
    FailsWith P (t.knownType ref name) := by
  unfold knownType
  dsimp only
  split
  · exact failsWith_ok _
  · exact failsWith_error (h _ rfl)

/-- Every loop over declarations checks the type of a variable and whether its name is taken. -/
theorem failsWith_of_loop {σ : Type} {loop : σ → List VarDecl → Except SemanticError σ}
    {taken : σ → VarDecl → Bool} {cause : σ → VarDecl → SemanticCause} {add : σ → VarDecl → Ty → σ}
    (hcause : ∀ s d, (cause s d).isDeclaring = true) (hnil : ∀ s, loop s [] = .ok s)
    (hcons : ∀ s d ds, loop s (d :: ds) = do
      let type ← t.knownType d.type d.name.name
      if taken s d then .error ⟨cause s d, d.name.span⟩ else loop (add s d type) ds)
    {ds : List VarDecl} (h : AllowsDecls P ds) (s : σ) : FailsWith P (loop s ds) := by
  induction ds generalizing s with
  | nil =>
    rw [hnil]
    exact failsWith_ok s
  | cons d ds ih =>
    obtain ⟨⟨htype, hname⟩, hds⟩ := List.forall_mem_cons.1 h
    rw [hcons]
    apply (t.failsWith_knownType htype _).bind
    intro type _
    split
    · exact failsWith_error (hname _ (hcause s d))
    · exact ih hds _

theorem failsWith_declareFields {ds : List VarDecl} (h : AllowsDecls P ds) (c : ClassInfo) :
    FailsWith P (t.declareFields c ds) :=
  t.failsWith_of_loop (fun _ _ => rfl) (fun _ => rfl) (fun _ _ _ => rfl) h c

theorem failsWith_declareParams {ds : List VarDecl} (h : AllowsDecls P ds) (m : MethodInfo) :
    FailsWith P (t.declareParams m ds) :=
  t.failsWith_of_loop (fun _ _ => rfl) (fun _ => rfl) (fun _ _ _ => rfl) h m

theorem failsWith_declareLocals {ds : List VarDecl} (h : AllowsDecls P ds) (m : MethodInfo) :
    FailsWith P (t.declareLocals m ds) :=
  t.failsWith_of_loop (fun _ _ => rfl) (fun _ => rfl) (fun _ _ _ => rfl) h m

theorem paramMismatch?_allowed {method superclass : String} {position : Nat} {expected found : List Variable}
    {ds : List VarDecl} (h : AllowsDecls P ds) :
    ∀ e ∈ paramMismatch? method superclass position expected found ds, P e := by
  fun_induction paramMismatch? method superclass position expected found ds with
  | case1 position _ es _ fs d ds _ ih => exact ih (List.forall_mem_cons.1 h).2
  | case2 position _ es _ fs d ds _ =>
    intro e he
    cases he
    exact (List.forall_mem_cons.1 h).1.1 _ rfl
  | case3 =>
    intro e he
    cases he

theorem failsWith_checkOverride {d : MethodDecl} (hname : Admits true P d.name.span)
    (htype : Admits true P d.returnType.span) (hparams : AllowsDecls P d.params) (m : MethodInfo) :
    FailsWith P (t.checkOverride m d) := by
  have hoverride : ∀ inherited, ∀ e ∈ overrideError? inherited m d, P e := by
    intro inherited e he
    unfold overrideError? at he
    split at he
    · cases he
      exact htype _ rfl
    · split at he
      · cases he
        exact hname _ rfl
      · exact paramMismatch?_allowed hparams e he
  unfold checkOverride
  split
  · next e he =>
    obtain ⟨inherited, -, he⟩ := Option.bind_eq_some_iff.1 he
    exact failsWith_error (hoverride inherited e he)
  · exact failsWith_ok ()

theorem failsWith_declareMethod {d : MethodDecl} (h : Allows true P d.exprs d.names d.typeRefs)
    (c : ClassInfo) : FailsWith P (t.declareMethod c d) := by
  have hname : Admits true P d.name.span := h.names _ (by simp [MethodDecl.names])
  have htype : Admits true P d.returnType.span := h.types _ (by simp [MethodDecl.typeRefs])
  have hparams : AllowsDecls P d.params :=
    h.decls (by simp [MethodDecl.names]) (by simp [MethodDecl.typeRefs])
  have hlocals : AllowsDecls P d.locals :=
    h.decls (by grind [MethodDecl.names]) (by simp [MethodDecl.typeRefs])
  apply (t.failsWith_knownType htype _).bind
  intro returnType _
  split
  · exact failsWith_error (hname _ rfl)
  · split
    · exact failsWith_error (hname _ rfl)
    · apply (t.failsWith_declareParams hparams _).bind
      intro m _
      apply (t.failsWith_checkOverride hname htype hparams m).bind
      intro _ _
      apply (t.failsWith_declareLocals hlocals m).bind
      exact fun _ _ => failsWith_ok _

theorem failsWith_declareMethods {ds : List MethodDecl}
    (h : ∀ d ∈ ds, Allows true P d.exprs d.names d.typeRefs) (c : ClassInfo) :
    FailsWith P (t.declareMethods c ds) := by
  induction ds generalizing c with
  | nil => exact failsWith_ok c
  | cons d ds ih =>
    rw [List.forall_mem_cons] at h
    apply (t.failsWith_declareMethod h.1 c).bind
    exact fun c _ => ih h.2 c

theorem failsWith_fillClasses {ds : List ClassDecl}
    (h : ∀ d ∈ ds, Allows true P d.exprs d.names d.typeRefs) : FailsWith P (t.fillClasses ds) := by
  induction ds generalizing t with
  | nil => exact failsWith_ok t
  | cons d ds ih =>
    rw [List.forall_mem_cons] at h
    have hfields : AllowsDecls P d.fields :=
      h.1.decls (by grind [ClassDecl.names]) (by simp [ClassDecl.typeRefs])
    have hclass : FailsWith P (t.fillClass d) := by
      apply (t.failsWith_declareFields hfields _).bind
      intro c _
      apply (t.failsWith_declareMethods h.1.methods c).bind
      exact fun _ _ => failsWith_ok _
    exact hclass.bind fun t _ => ih t h.2

theorem failsWith_fillMain {d : MainClass} (h : Allows true P d.exprs d.names d.typeRefs) :
    FailsWith P (t.fillMain d) := by
  have hlocals : AllowsDecls P d.locals :=
    h.decls (by grind [MainClass.names]) (by simp [MainClass.typeRefs])
  apply (t.failsWith_declareLocals hlocals _).bind
  exact fun _ _ => failsWith_ok _

/-! ## Expressions -/

variable (cx : Context)

theorem failsWith_target {name : Ident} (h : Admits false P name.span) :
    FailsWith P (t.target cx name).outcome := by
  apply FailsWith.bindLogged (P := P) (failsWith_ok _)
  intro found _
  cases found with
  | none => exact failsWith_error (h _ rfl)
  | some found => exact failsWith_ok found

theorem failsWith_callee {span : Span} {method : Ident} (hspan : Admits false P span)
    (hmethod : Admits false P method.span) (receiver : Ty) :
    FailsWith P (t.callee receiver span method).outcome := by
  cases receiver with
  | object className =>
    unfold callee
    dsimp only
    split
    · split
      · exact failsWith_ok _
      · exact failsWith_error (hmethod _ rfl)
    · exact failsWith_error (hspan _ rfl)
  | _ => exact failsWith_error (hspan _ rfl)

theorem argumentError?_allowed {method : String} {params : List Variable} {types : List Ty} {args : List Expr}
    (h : ∀ arg ∈ args, Admits false P arg.span) : ∀ e ∈ t.argumentError? method params types args, P e := by
  fun_induction argumentError? t method params types args with
  | case1 _ _ _ _ arg args _ ih => exact ih (List.forall_mem_cons.1 h).2
  | case2 _ _ _ _ arg args _ =>
    intro e he
    cases he
    exact (List.forall_mem_cons.1 h).1 _ rfl
  | case3 =>
    intro e he
    cases he

theorem failsWith_checkArguments {m : MethodInfo} {span : Span} {args : List Expr} {types : List Ty}
    (hcount : m.params.length ≠ types.length → P ⟨.arityMismatch m.name m.params.length types.length, span⟩)
    (hargs : ∀ arg ∈ args, Admits false P arg.span) :
    FailsWith P (t.checkArguments m span args types).outcome := by
  unfold checkArguments
  split
  · next hne => exact failsWith_error (hcount hne.symm)
  · split
    · next e he => exact failsWith_error (t.argumentError?_allowed hargs e he)
    · exact failsWith_ok ()

theorem name_of_callee {receiver : Ty} {span : Span} {method : Ident} {m : MethodInfo}
    (h : (t.callee receiver span method).outcome = .ok m) : m.name = method.name := by
  obtain ⟨className, -, -, hm⟩ := callee_ok h
  have hfound : ∀ c : ClassInfo, c.method? method.name = some m → m.name = method.name := by
    intro c hc
    simpa using List.find?_some hc
  obtain ⟨c, -, hc⟩ := Option.bind_eq_some_iff.1 hm
  rcases Option.or_eq_some_iff.1 hc with hown | ⟨-, hinherited⟩
  · exact hfound c hown
  · obtain ⟨ancestor, -, hancestor⟩ := List.exists_of_findSome?_eq_some hinherited
    exact hfound ancestor hancestor

theorem length_typesOf {es : List Expr} {types : List Ty} (h : (t.typesOf cx es).outcome = .ok types) :
    types.length = es.length := by
  induction es generalizing types with
  | nil =>
    rw [typesOf, Logged.pure_ok] at h
    rw [← h]
    rfl
  | cons e es ih =>
    obtain ⟨type, types, -, htypes, rfl⟩ := typesOf_cons_ok h
    rw [List.length_cons, List.length_cons, ih htypes]

theorem failsWith_unaryType {span : Span} (h : Admits false P span) (op : Operator) (expected result found : Ty) :
    FailsWith P (unaryType op expected result found span).outcome := by
  unfold unaryType
  split
  · exact failsWith_ok _
  · exact failsWith_error (h _ rfl)

theorem failsWith_typesOf {es : List Expr} (h : ∀ e ∈ es, FailsWith P (t.typeOf cx e).outcome) :
    FailsWith P (t.typesOf cx es).outcome := by
  induction es with
  | nil => exact failsWith_ok []
  | cons e es ih =>
    rw [List.forall_mem_cons] at h
    rw [typesOf]
    apply FailsWith.bindLogged h.1
    intro type _
    apply FailsWith.bindLogged (ih h.2)
    exact fun types _ => failsWith_ok _

theorem failsWith_typeOf {e : Expr} (h : Allows false P e.nodes [] []) (hcalls : AllowsCalls P t cx e.nodes) :
    FailsWith P (t.typeOf cx e).outcome := by
  induction e with
  | int | bool | this => exact failsWith_ok _
  | ident span name =>
    rw [typeOf]
    apply FailsWith.bindLogged (P := P) (failsWith_ok _)
    intro found _
    cases found <;> exact failsWith_ok _
  | paren span inner ih =>
    rw [typeOf]
    exact ih (h.inside (by simp [Expr.nodes])) (hcalls.mono (by simp [Expr.nodes]))
  | binary span op left right ihl ihr =>
    have hspan : Admits false P span := h.exprs _ List.mem_cons_self
    rw [typeOf]
    apply FailsWith.bindLogged (ihl (h.inside (by simp [Expr.nodes])) (hcalls.mono (by simp [Expr.nodes])))
    intro leftType _
    apply FailsWith.bindLogged (ihr (h.inside (by simp [Expr.nodes])) (hcalls.mono (by simp [Expr.nodes])))
    intro rightType _
    dsimp only
    split
    · exact failsWith_ok _
    · exact failsWith_error (hspan _ rfl)
  | not span operand ih =>
    rw [typeOf]
    apply FailsWith.bindLogged (ih (h.inside (by simp [Expr.nodes])) (hcalls.mono (by simp [Expr.nodes])))
    exact fun found _ => failsWith_unaryType (h.exprs _ List.mem_cons_self) _ _ _ found
  | length span array ih =>
    rw [typeOf]
    apply FailsWith.bindLogged (ih (h.inside (by simp [Expr.nodes])) (hcalls.mono (by simp [Expr.nodes])))
    exact fun found _ => failsWith_unaryType (h.exprs _ List.mem_cons_self) _ _ _ found
  | index span array position iha ihp =>
    have hspan : Admits false P span := h.exprs _ List.mem_cons_self
    rw [typeOf]
    apply FailsWith.bindLogged (iha (h.inside (by simp [Expr.nodes])) (hcalls.mono (by simp [Expr.nodes])))
    intro arrayType _
    apply FailsWith.bindLogged (ihp (h.inside (by simp [Expr.nodes])) (hcalls.mono (by simp [Expr.nodes])))
    intro positionType _
    split
    · exact failsWith_ok _
    · exact failsWith_error (hspan _ rfl)
  | newArray span size ih =>
    rw [typeOf]
    apply FailsWith.bindLogged (ih (h.inside (by simp [Expr.nodes])) (hcalls.mono (by simp [Expr.nodes])))
    exact fun found _ => failsWith_unaryType (h.exprs _ List.mem_cons_self) _ _ _ found
  | newObject span className =>
    have hname : Admits false P className.span := h.ownNames _ List.mem_cons_self _ List.mem_cons_self
    rw [typeOf]
    split
    · exact failsWith_ok _
    · exact failsWith_error (hname _ rfl)
  | call span receiver method args ihr ihargs =>
    have hspan : Admits false P span := h.exprs _ List.mem_cons_self
    have hmethod : Admits false P method.span := h.ownNames _ List.mem_cons_self _ List.mem_cons_self
    -- A receiver without methods is marked itself, a method that is missing by its name.
    have hreceiver : Admits false P receiver.span :=
      h.exprs receiver (by simp [Expr.nodes, Expr.mem_nodes_self])
    have hsub : ∀ arg ∈ args, arg.nodes ⊆ (Expr.call span receiver method args).nodes := by
      intro arg harg n hn
      rw [Expr.nodes, Expr.nodesOfAll_eq]
      exact List.mem_cons_of_mem _ (List.mem_append_right _ (List.mem_flatMap.2 ⟨arg, harg, hn⟩))
    have hargs : ∀ arg ∈ args, Admits false P arg.span := fun arg harg =>
      h.exprs arg (hsub arg harg (Expr.mem_nodes_self arg))
    have hall : ∀ arg ∈ args, FailsWith P (t.typeOf cx arg).outcome := fun arg harg =>
      ihargs arg harg (h.inside (hsub arg harg)) (hcalls.mono (hsub arg harg))
    rw [typeOf]
    apply FailsWith.bindLogged (ihr (h.inside (by simp [Expr.nodes])) (hcalls.mono (by simp [Expr.nodes])))
    intro receiverType hreceiverType
    apply FailsWith.bindLogged (t.failsWith_callee hreceiver hmethod _)
    intro m hm
    split
    · exact failsWith_ok _
    · next hsome =>
      split
      · exact failsWith_error (hspan _ rfl)
      · next hparams =>
        apply FailsWith.bindLogged (t.failsWith_typesOf cx hall)
        intro types htypes
        apply FailsWith.bindLogged (t.failsWith_checkArguments _ hargs)
        · exact fun _ _ => failsWith_ok _
        · obtain ⟨className, hclass, -, hmethod?⟩ := callee_ok hm
          rw [t.length_typesOf cx htypes, t.name_of_callee hm]
          intro hne
          exact hcalls _ List.mem_cons_self _
            (.call hreceiverType hclass hmethod? (by simpa using hsome) (by simpa using hparams) hne)

/-! ## Statements -/

variable {t cx}

/-- The second step fails as it would without the first one, whose marks it does not see. -/
theorem Blind.failsWith_bind {marks marks' : Marks} {step step' : ClassTable → Check ClassTable}
    (h : t.Blind marks step) (h' : t.Blind marks' step') (hstep : FailsWith P (step t).outcome)
    (hstep' : FailsWith P (step' t).outcome) : FailsWith P (step t >>= step').outcome := by
  apply FailsWith.bindLogged hstep
  intro t₁ ht₁ e he
  obtain rfl := h.eq_mark ht₁
  rw [h' _ (plain_mark marks t)] at he
  apply hstep' e
  cases hout : (step' t).outcome with
  | error e' =>
    rw [hout] at he
    exact he
  | ok t₂ =>
    rw [hout] at he
    cases he

theorem failsWith_checkCondition {condition : Expr} (h : Allows false P condition.nodes [] [])
    (hcalls : AllowsCalls P t cx condition.nodes) (statement : Conditional) :
    FailsWith P (t.checkCondition cx statement condition).outcome := by
  apply FailsWith.bindLogged (t.failsWith_typeOf cx h hcalls)
  intro found _
  split
  · exact failsWith_ok ()
  · exact failsWith_error (h.exprs _ condition.mem_nodes_self _ rfl)

theorem failsWith_checkAssign {name : Ident} {value : Expr} (hname : Admits false P name.span)
    (h : Allows false P value.nodes [] []) (hcalls : AllowsCalls P t cx value.nodes) :
    FailsWith P (t.checkAssign cx name value).outcome := by
  apply FailsWith.bindLogged (t.failsWith_target cx hname)
  intro assigned _
  apply FailsWith.bindLogged (t.failsWith_typeOf cx h hcalls)
  intro found _
  dsimp only
  split
  · exact failsWith_ok _
  · exact failsWith_error (h.exprs _ value.mem_nodes_self _ rfl)

theorem failsWith_checkArrayAssign {name : Ident} {position value : Expr} (hname : Admits false P name.span)
    (hposition : Allows false P position.nodes [] []) (hvalue : Allows false P value.nodes [] [])
    (hpositionCalls : AllowsCalls P t cx position.nodes) (hvalueCalls : AllowsCalls P t cx value.nodes) :
    FailsWith P (t.checkArrayAssign cx name position value).outcome := by
  apply FailsWith.bindLogged (t.failsWith_target cx hname)
  intro array _
  split
  · exact failsWith_error (hname _ rfl)
  · apply FailsWith.bindLogged (t.failsWith_typeOf cx hposition hpositionCalls)
    intro positionType _
    split
    · exact failsWith_error (hposition.exprs _ position.mem_nodes_self _ rfl)
    · apply FailsWith.bindLogged (t.failsWith_typeOf cx hvalue hvalueCalls)
      intro found _
      split
      · exact failsWith_error (hvalue.exprs _ value.mem_nodes_self _ rfl)
      · exact failsWith_ok ()

theorem Distinct.failsWith_checkStmts (ht : t.Distinct) {ss : List Stmt}
    (h : ∀ s ∈ ss, FailsWith P (t.checkStmt cx s).outcome) : FailsWith P (t.checkStmts cx ss).outcome := by
  induction ss with
  | nil => exact failsWith_ok t
  | cons s ss ih =>
    rw [List.forall_mem_cons] at h
    exact (ht.blind_checkStmt cx s).failsWith_bind (ht.blind_checkStmts cx ss) h.1 (ih h.2)

theorem Distinct.failsWith_checkStmt (ht : t.Distinct) {s : Stmt} (h : Allows false P s.exprs s.names [])
    (hcalls : AllowsCalls P t cx s.exprs) : FailsWith P (t.checkStmt cx s).outcome := by
  induction s with
  | block body ih =>
    rw [checkStmt]
    refine ht.failsWith_checkStmts fun s hs => ?_
    have hexprs : s.exprs ⊆ (Stmt.block body).exprs := by
      rw [Stmt.exprs, Stmt.exprsOfAll_eq]
      exact fun e he => List.mem_flatMap.2 ⟨s, hs, he⟩
    apply ih s hs _ (hcalls.mono hexprs)
    apply h.mono hexprs _ (List.Subset.refl _)
    rw [Stmt.names, Stmt.namesOfAll_eq]
    exact fun i hi => List.mem_flatMap.2 ⟨s, hs, hi⟩
  | assign target value =>
    rw [checkStmt]
    exact failsWith_checkAssign (h.names _ List.mem_cons_self)
      (h.mono (List.Subset.refl _) (List.nil_subset _) (List.Subset.refl _)) hcalls
  | arrayAssign target position value =>
    rw [checkStmt]
    apply FailsWith.bindLogged
    · apply failsWith_checkArrayAssign (h.names _ List.mem_cons_self)
      · exact h.mono (by simp [Stmt.exprs]) (List.nil_subset _) (List.Subset.refl _)
      · exact h.mono (by simp [Stmt.exprs]) (List.nil_subset _) (List.Subset.refl _)
      · exact hcalls.mono (by simp [Stmt.exprs])
      · exact hcalls.mono (by simp [Stmt.exprs])
    · exact fun _ _ => failsWith_ok t
  | ifElse condition thenBranch elseBranch iht ihe =>
    rw [checkStmt]
    apply FailsWith.bindLogged
    · apply failsWith_checkCondition
      · exact h.mono (by simp [Stmt.exprs]) (List.nil_subset _) (List.Subset.refl _)
      · exact hcalls.mono (by simp [Stmt.exprs])
    · intro _ _
      refine (ht.blind_checkStmt cx thenBranch).failsWith_bind (ht.blind_checkStmt cx elseBranch) ?_ ?_
      · exact iht (h.mono (by simp [Stmt.exprs]) (by simp [Stmt.names]) (List.Subset.refl _))
          (hcalls.mono (by simp [Stmt.exprs]))
      · exact ihe (h.mono (by simp [Stmt.exprs]) (by simp [Stmt.names]) (List.Subset.refl _))
          (hcalls.mono (by simp [Stmt.exprs]))
  | loop condition body ih =>
    rw [checkStmt]
    apply FailsWith.bindLogged
    · apply failsWith_checkCondition
      · exact h.mono (by simp [Stmt.exprs]) (List.nil_subset _) (List.Subset.refl _)
      · exact hcalls.mono (by simp [Stmt.exprs])
    · exact fun _ _ => ih (h.mono (by simp [Stmt.exprs]) (by simp [Stmt.names]) (List.Subset.refl _))
        (hcalls.mono (by simp [Stmt.exprs]))
  | print value =>
    rw [checkStmt]
    apply FailsWith.bindLogged
    · exact t.failsWith_typeOf cx (h.mono (by simp [Stmt.exprs]) (List.nil_subset _) (List.Subset.refl _)) hcalls
    · exact fun _ _ => failsWith_ok t

/-! ## Bodies -/

theorem Distinct.failsWith_body (ht : t.Distinct) {body : List Stmt} {es : List Expr} {names : List Ident}
    {types : List TypeRef} (h : Allows false P es names types) (hcalls : AllowsCalls P t cx es)
    (hes : body.flatMap Stmt.exprs ⊆ es) (hnames : body.flatMap Stmt.names ⊆ names) :
    FailsWith P (t.checkStmts cx body).outcome := by
  refine ht.failsWith_checkStmts fun s hs => ?_
  have hexprs : s.exprs ⊆ es := fun e he => hes (List.mem_flatMap.2 ⟨s, hs, he⟩)
  refine ht.failsWith_checkStmt ?_ (hcalls.mono hexprs)
  exact h.mono hexprs (fun i hi => hnames (List.mem_flatMap.2 ⟨s, hs, hi⟩)) (List.nil_subset _)

theorem failsWith_checkReturn {d : MethodDecl} (h : Allows false P d.returned.nodes [] [])
    (hcalls : AllowsCalls P t cx d.returned.nodes) : FailsWith P (t.checkReturn cx d).outcome := by
  apply FailsWith.bindLogged (t.failsWith_typeOf cx h hcalls)
  intro found _
  dsimp only
  split
  · exact failsWith_ok ()
  · exact failsWith_error (h.exprs _ d.returned.mem_nodes_self _ rfl)

theorem Distinct.failsWith_checkMethod (ht : t.Distinct) {d : MethodDecl} {className : String}
    (h : Allows false P d.exprs d.names d.typeRefs) (hcalls : AllowsCalls P t ⟨className, d.name.name⟩ d.exprs) :
    FailsWith P (t.checkMethod className d).outcome := by
  apply FailsWith.bindLogged (P := P) (failsWith_ok ())
  intro _ _
  apply FailsWith.bindLogged
  · exact ht.failsWith_body h hcalls (by simp [MethodDecl.exprs]) (by grind [MethodDecl.names])
  · intro t₁ ht₁
    obtain rfl := (ht.blind_checkStmts _ d.body).eq_mark ht₁
    apply FailsWith.bindLogged
    · rw [outcome_checkReturn_congr (plain_mark _ t)]
      apply failsWith_checkReturn
      · exact h.mono (by simp [MethodDecl.exprs]) (List.nil_subset _) (List.nil_subset _)
      · exact hcalls.mono (by simp [MethodDecl.exprs])
    · exact fun _ _ => failsWith_ok _

end ClassTable

/-- All expressions of a body. -/
def Body.exprs : Body → List Expr
  | .main d => d.exprs
  | .method _ d => d.exprs

theorem Body.exprs_subset {p : Program} {b : Body} (h : b ∈ p.bodies) : b.exprs ⊆ p.exprs := by
  rcases List.mem_cons.1 h with rfl | h
  · exact List.subset_append_left _ _
  · obtain ⟨c, hc, hb⟩ := List.mem_flatMap.1 h
    obtain ⟨d, hd, rfl⟩ := List.mem_map.1 hb
    intro e he
    exact List.mem_append_right _ (List.mem_flatMap.2 ⟨c, hc, List.mem_flatMap.2 ⟨d, hd, he⟩⟩)

namespace Program

variable {p : Program}

/-! ## Passes -/

theorem allows_main (h : Allows declaring P p.exprs p.names p.typeRefs) :
    Allows declaring P p.main.exprs p.main.names p.main.typeRefs := by
  apply h.mono
  · simp [exprs]
  · grind [names]
  · simp [typeRefs]

theorem allows_class (h : Allows declaring P p.exprs p.names p.typeRefs) :
    ∀ d ∈ p.classes, Allows declaring P d.exprs d.names d.typeRefs := by
  intro d hd
  apply h.mono
  · grind [exprs]
  · grind [names]
  · grind [typeRefs]

theorem failsWith_declareClasses (h : Allows true P p.exprs p.names p.typeRefs) :
    FailsWith P p.declareClasses.outcome := by
  apply FailsWith.bindLogged
  · apply ClassTable.failsWith_declareHeaders
    rw [headers, List.forall_mem_cons, List.forall_mem_map]
    refine ⟨⟨(allows_main h).names _ List.mem_cons_self, fun _ hnone => by cases hnone⟩, fun d hd => ?_⟩
    have hnames := (allows_class h d hd).names
    refine ⟨hnames _ List.mem_cons_self, fun parent hparent => hnames parent ?_⟩
    have hsuper : d.superclass = some parent := hparent
    simp [ClassDecl.names, hsuper]
  · exact fun _ _ => failsWith_ok _

theorem failsWith_declareMembers (h : Allows true P p.exprs p.names p.typeRefs) (t : ClassTable) :
    FailsWith P (p.declareMembers t).outcome := by
  apply FailsWith.bindLogged
  · apply (t.failsWith_fillMain (allows_main h)).bind
    exact fun t _ => t.failsWith_fillClasses (allows_class h)
  · exact fun _ _ => failsWith_ok _

theorem failsWith_check (h : Allows false P p.exprs p.names p.typeRefs) {t : ClassTable} (ht : t.Distinct)
    (hcalls : ∀ b ∈ p.bodies, AllowsCalls P t b.context b.exprs) : FailsWith P (p.check t).outcome := by
  intro e he
  have hfirst := ht.error?_checkBodies p.bodies
  rw [← ClassTable.outcome_check, Outcome.error?_eq_some.2 he] at hfirst
  obtain ⟨b, hb, hbody⟩ := List.exists_of_findSome?_eq_some hfirst.symm
  have hfails : FailsWith P (t.checkBody b).outcome := by
    have hcall := hcalls b hb
    rcases List.mem_cons.1 hb with rfl | hb
    · exact ht.failsWith_body (allows_main h) hcall (List.Subset.refl _) (by grind [MainClass.names])
    · obtain ⟨c, hc, hb⟩ := List.mem_flatMap.1 hb
      obtain ⟨d, hd, rfl⟩ := List.mem_map.1 hb
      exact ht.failsWith_checkMethod ((allows_class h c hc).methods d hd) hcall
  exact hfails e (Outcome.error?_eq_some.1 hbody)

/-! ## Stretches -/

theorem span_mem_spans {p : Program} {e : Expr} (h : e ∈ p.exprs) : e.span ∈ p.spans := by
  simp only [spans, List.mem_append, List.mem_map]
  exact .inr (.inr ⟨e, h, rfl⟩)

theorem allows_spans (p : Program) (declaring : Bool) :
    Allows declaring (·.span ∈ p.spans) p.exprs p.names p.typeRefs := by
  refine ⟨fun e he _ _ => span_mem_spans he, fun e he i hi _ _ => ?_, fun i hi _ _ => ?_, fun r hr _ _ => ?_⟩
  · simp only [spans, names, List.mem_append, List.mem_map, List.mem_flatMap]
    exact .inl ⟨i, .inr ⟨e, he, hi⟩, rfl⟩
  · exact List.mem_append_left _ (List.mem_map_of_mem hi)
  · simp only [spans, List.mem_append, List.mem_map]
    exact .inr (.inl ⟨r, hr, rfl⟩)

theorem failsIn_analyze (p : Program) : FailsIn p.spans p.analyze.outcome := by
  rw [outcome_analyze]
  apply (failsWith_declareClasses (p.allows_spans true)).bind
  intro t₀ h₀
  apply (failsWith_declareMembers (p.allows_spans true) t₀).bind
  intro t ht
  apply (failsWith_check (p.allows_spans false) (distinct_declareMembers h₀ ht) _).bind
  · exact fun _ _ => failsWith_ok _
  · exact fun b hb e he _ _ => span_mem_spans (b.exprs_subset hb he)

end Program

end ClassCheck
