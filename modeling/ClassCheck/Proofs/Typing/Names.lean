import ClassCheck.Compile
import ClassCheck.Proofs.Program.Trees
import ClassCheck.Proofs.Typing.Accepted
import ClassCheck.Proofs.Typing.Grounded

/-!
# Names in accepted programs

A name that stands for nothing is not rejected where it is looked up: its type is that of the objects
of a class of its name. It is rejected where its type is asked for, because every type that is asked
for is a basic one or that of a class. Printing is the one place where no type is asked for.
-/

namespace ClassCheck

/-! ## Where names stand -/

def Expr.name? : Expr → Option String
  | .ident _ name => some name
  | _ => none

/-- The names in an expression, each as often as it is there. -/
def Expr.names (e : Expr) : List String := e.nodes.filterMap Expr.name?

/-- Whether an expression is a name, in parentheses or not. -/
def Expr.isName : Expr → Bool
  | .ident _ _ => true
  | .paren _ inner => inner.isName
  | _ => false

/-- A name at a place in a body, and whether the name, in parentheses or not, is all that is printed
there. -/
structure NameUse where
  name : String
  printed : Bool
  deriving DecidableEq

def Expr.nameUses (printed : Bool) (e : Expr) : List NameUse := e.names.map (⟨·, printed⟩)

namespace Stmt

mutual
def nameUses : Stmt → List NameUse
  | .block body => nameUsesOfAll body
  | .assign _ value => value.nameUses false
  | .arrayAssign _ index value => index.nameUses false ++ value.nameUses false
  | .ifElse condition thenBranch elseBranch =>
    condition.nameUses false ++ (thenBranch.nameUses ++ elseBranch.nameUses)
  | .loop condition body => condition.nameUses false ++ body.nameUses
  | .print value => value.nameUses value.isName

def nameUsesOfAll : List Stmt → List NameUse
  | [] => []
  | s :: ss => s.nameUses ++ nameUsesOfAll ss
end

@[simp] theorem nameUsesOfAll_eq (ss : List Stmt) : nameUsesOfAll ss = ss.flatMap nameUses := by
  induction ss with
  | nil => rfl
  | cons s ss ih => rw [nameUsesOfAll, ih, List.flatMap_cons]

end Stmt

/-- The names in the body of a method and in what it returns. -/
def MethodDecl.nameUses (d : MethodDecl) : List NameUse :=
  d.body.flatMap Stmt.nameUses ++ d.returned.nameUses false

namespace ClassTable

variable {t t' : ClassTable} {cx : Context} {ty : Ty}

/-- The name stands for a variable or for a class. -/
def Settles (t : ClassTable) (cx : Context) (name : String) : Prop :=
  (t.resolve cx name).isSome = true ∨ t.contains name = true

/-! ## Expressions -/

/-- All names in the expression stand for something. -/
def SettlesAll (t : ClassTable) (cx : Context) (e : Expr) : Prop :=
  ∀ name ∈ e.names, t.Settles cx name

theorem settlesAll_of_names_eq_nil {e : Expr} (h : e.names = []) : t.SettlesAll cx e := by
  rw [SettlesAll, h]
  exact List.forall_mem_nil _

section

variable (span : Span) (op : BinaryOp) (e left right : Expr) (name : Ident) (args : List Expr)

theorem settlesAll_append {es ds : List Expr} :
    (∀ name ∈ (es ++ ds).filterMap Expr.name?, t.Settles cx name) ↔
      (∀ name ∈ es.filterMap Expr.name?, t.Settles cx name) ∧
        ∀ name ∈ ds.filterMap Expr.name?, t.Settles cx name := by
  rw [List.filterMap_append, List.forall_mem_append]

theorem settlesAll_binary : t.SettlesAll cx (.binary span op left right) ↔
    t.SettlesAll cx left ∧ t.SettlesAll cx right := settlesAll_append

theorem settlesAll_index : t.SettlesAll cx (.index span left right) ↔
    t.SettlesAll cx left ∧ t.SettlesAll cx right := settlesAll_append

theorem settlesAll_call : t.SettlesAll cx (.call span e name args) ↔
    t.SettlesAll cx e ∧ ∀ arg ∈ args, t.SettlesAll cx arg := by
  refine settlesAll_append.trans (and_congr_right fun _ => ?_)
  rw [Expr.nodesOfAll_eq, List.filterMap_flatMap, List.forall_mem_flatMap]
  rfl

end

theorem settlesAll_arguments {method : String} {params : List Variable} {args : List Expr}
    {types : List Ty} (hparams : ∀ v ∈ params, t.Grounded v.type)
    (hargs : ∀ arg ∈ args, ∀ ty, (t.typeOf cx arg).outcome = .ok ty → t.Grounded ty →
      t.SettlesAll cx arg)
    (htypes : (t.typesOf cx args).outcome = .ok types) (hlen : types.length = params.length)
    (herror : t.argumentError? method params types args = none) :
    ∀ arg ∈ args, t.SettlesAll cx arg := by
  induction args generalizing types params with
  | nil => simp
  | cons arg args ih =>
    obtain ⟨ty, rest, hty, hrest, rfl⟩ := typesOf_cons_ok htypes
    obtain ⟨param, params, rfl⟩ := List.exists_cons_of_length_eq_add_one hlen.symm
    rw [List.forall_mem_cons] at hparams hargs
    unfold argumentError? at herror
    split at herror
    · next ha =>
      refine List.forall_mem_cons.2 ⟨?_, ih hparams.2 hargs.2 hrest (by simpa using hlen) herror⟩
      exact hargs.1 ty hty (hparams.1.of_isAssignable ha).of_resolveSelf
    · cases herror

/-- If the type of an expression is grounded, all names in it stand for something. Only the type of
a name may not be grounded. -/
theorem Meaningful.typeOf (h : t.Meaningful) {e : Expr} (hok : (t.typeOf cx e).outcome = .ok ty) :
    (e.isName = true ∨ t.Grounded ty) ∧ (t.Grounded ty → t.SettlesAll cx e) := by
  induction e generalizing ty with
  | int | bool | this =>
    obtain rfl := Logged.pure_ok.1 hok
    exact ⟨.inr trivial, fun _ => settlesAll_of_names_eq_nil rfl⟩
  | ident span name =>
    refine ⟨.inl rfl, fun hground => ?_⟩
    have hname : t.Settles cx name := by
      rcases typeOf_ident_ok hok with ⟨found, hfound, -⟩ | ⟨-, rfl⟩
      · exact .inl (by rw [hfound]; rfl)
      · exact .inr hground
    simpa [SettlesAll, Expr.names, Expr.nodes, Expr.name?] using hname
  | paren span inner ih => exact ih hok
  | binary span op left right ihl ihr =>
    obtain ⟨hleft, hright, rfl⟩ := typeOf_binary_ok hok
    have hoperand : t.Grounded (binaryTypes op).1 := by cases op <;> trivial
    have hresult : t.Grounded (binaryTypes op).2 := by cases op <;> trivial
    refine ⟨.inr hresult, fun _ => ?_⟩
    exact (settlesAll_binary _ _ _ _).2 ⟨(ihl hleft).2 hoperand, (ihr hright).2 hoperand⟩
  | not span operand ih | length span operand ih | newArray span operand ih =>
    unfold ClassTable.typeOf at hok
    obtain ⟨hoperand, rfl⟩ := unaryType_ok hok
    exact ⟨.inr trivial, fun _ => (ih hoperand).2 trivial⟩
  | index span array position iha ihp =>
    obtain ⟨harray, hposition, rfl⟩ := typeOf_index_ok hok
    refine ⟨.inr trivial, fun _ => (settlesAll_index _ _ _).2 ⟨?_, ?_⟩⟩
    · exact (iha harray).2 trivial
    · exact (ihp hposition).2 trivial
  | newObject span className =>
    obtain ⟨hc, rfl⟩ := typeOf_newObject_ok hok
    exact ⟨.inr hc, fun _ => settlesAll_of_names_eq_nil rfl⟩
  | call span receiver method args ihr ihs =>
    obtain ⟨receiverType, className, m, hreceiver, hclass, hcontains, hmethod, rfl, hargs⟩ :=
      typeOf_call_ok hok
    obtain ⟨hreturn, hparams⟩ := h.methods _ _ _ hmethod
    have hself : t.Grounded (receiverType.resolveSelf cx.className) := by
      rw [hclass]
      exact hcontains
    refine ⟨.inr hreturn, fun _ => ?_⟩
    refine (settlesAll_call _ _ _ _).2 ⟨(ihr hreceiver).2 hself.of_resolveSelf, ?_⟩
    rcases hargs with rfl | ⟨types, htypes, hlen, herror⟩
    · exact List.forall_mem_nil _
    · exact settlesAll_arguments hparams (fun arg harg ty hty => (ihs arg harg hty).2) htypes hlen
        herror

/-! ## Statements -/

/-- Every name stands for something, unless it is all that is printed. -/
def Explains (t : ClassTable) (cx : Context) (uses : List NameUse) : Prop :=
  ∀ use ∈ uses, t.Settles cx use.name ∨ use.printed = true

theorem explains_append {us vs : List NameUse} :
    t.Explains cx (us ++ vs) ↔ t.Explains cx us ∧ t.Explains cx vs := List.forall_mem_append

theorem SettlesAll.explains {e : Expr} (h : t.SettlesAll cx e) (printed : Bool) :
    t.Explains cx (e.nameUses printed) :=
  List.forall_mem_map.2 fun name hname => .inl (h name hname)

theorem settles_congr (hplain : t'.plain = t.plain) (name : String) :
    t'.Settles cx name ↔ t.Settles cx name := by
  have hresolve : (t'.resolve cx name).isSome = (t.resolve cx name).isSome := by
    rw [← Option.isSome_map (f := Resolved.plain), ← resolve_plain, hplain, resolve_plain,
      Option.isSome_map]
  rw [Settles, Settles, hresolve, contains_congr hplain]

theorem explains_congr (hplain : t'.plain = t.plain) {uses : List NameUse} :
    t'.Explains cx uses ↔ t.Explains cx uses := by
  simp only [Explains, settles_congr hplain]

theorem Meaningful.checkAssign (h : t.Meaningful) {name : Ident} {value : Expr}
    (hok : (t.checkAssign cx name value).outcome = .ok t') :
    t'.plain = t.plain ∧ t.SettlesAll cx value := by
  obtain ⟨assigned, found, hassigned, hfound, ha, rfl⟩ := checkAssign_ok hok
  have hground := h.resolved cx name.name assigned hassigned
  exact ⟨plain_markInitialized _ _ _,
    (h.typeOf hfound).2 (hground.of_isAssignable ha).of_resolveSelf⟩

/-- What holds of each step of a loop, whatever marks have been set before it. -/
theorem plain_of_loop {α : Type} (loop : ClassTable → List α → Check ClassTable)
    {step : ClassTable → α → Check ClassTable} {P : α → Prop} {t₀ : ClassTable}
    (hnil : ∀ t, loop t [] = pure t)
    (hcons : ∀ t a as, loop t (a :: as) = step t a >>= fun t => loop t as) {as : List α}
    (hstep : ∀ a ∈ as, ∀ t t' : ClassTable, t.plain = t₀.plain → (step t a).outcome = .ok t' →
      t'.plain = t₀.plain ∧ P a)
    (ht : t.plain = t₀.plain) (hok : (loop t as).outcome = .ok t') :
    t'.plain = t₀.plain ∧ ∀ a ∈ as, P a := by
  induction as generalizing t with
  | nil =>
    rw [hnil] at hok
    obtain rfl := Logged.pure_ok.1 hok
    exact ⟨ht, List.forall_mem_nil _⟩
  | cons a as ih =>
    rw [List.forall_mem_cons] at hstep ⊢
    rw [hcons] at hok
    obtain ⟨t₁, ht₁, hrest⟩ := Logged.bind_ok.1 hok
    obtain ⟨hplain, ha⟩ := hstep.1 t t₁ ht ht₁
    obtain ⟨hplain', has⟩ := ih hstep.2 hplain hrest
    exact ⟨hplain', ha, has⟩

theorem Meaningful.checkStmts_of_each {ss : List Stmt}
    (heach : ∀ s ∈ ss, ∀ t t' : ClassTable, t.Meaningful → (t.checkStmt cx s).outcome = .ok t' →
      t'.plain = t.plain ∧ t.Explains cx s.nameUses)
    (h : t.Meaningful) (hok : (t.checkStmts cx ss).outcome = .ok t') :
    t'.plain = t.plain ∧ t.Explains cx (ss.flatMap Stmt.nameUses) := by
  have hstep : ∀ s ∈ ss, ∀ t₁ t₂ : ClassTable, t₁.plain = t.plain →
      (t₁.checkStmt cx s).outcome = .ok t₂ →
      t₂.plain = t.plain ∧ t.Explains cx s.nameUses := by
    intro s hs t₁ t₂ ht₁ ht₂
    obtain ⟨hplain, hexplains⟩ := heach s hs t₁ t₂ (h.congr ht₁) ht₂
    exact ⟨hplain.trans ht₁, (explains_congr ht₁).1 hexplains⟩
  obtain ⟨hplain, hall⟩ := plain_of_loop (fun t ss => t.checkStmts cx ss) (fun _ => rfl)
    (fun _ _ _ => rfl) hstep rfl hok
  exact ⟨hplain, List.forall_mem_flatMap.2 hall⟩

theorem Meaningful.checkStmt (s : Stmt) (t t' : ClassTable) (h : t.Meaningful)
    (hok : (t.checkStmt cx s).outcome = .ok t') :
    t'.plain = t.plain ∧ t.Explains cx s.nameUses := by
  induction s generalizing t t' with
  | block body ih =>
    rw [Stmt.nameUses, Stmt.nameUsesOfAll_eq]
    exact Meaningful.checkStmts_of_each ih h hok
  | assign target value =>
    obtain ⟨hplain, hvalue⟩ := h.checkAssign hok
    exact ⟨hplain, hvalue.explains false⟩
  | arrayAssign target position value =>
    obtain ⟨⟨⟩, hcheck, hresult⟩ := Logged.bind_ok.1 hok
    obtain rfl := Logged.pure_ok.1 hresult
    obtain ⟨-, hposition, hvalue⟩ := checkArrayAssign_ok hcheck
    refine ⟨rfl, explains_append.2 ⟨?_, ?_⟩⟩
    · exact ((h.typeOf hposition).2 trivial).explains false
    · exact ((h.typeOf hvalue).2 trivial).explains false
  | ifElse condition thenBranch elseBranch iht ihe =>
    unfold ClassTable.checkStmt at hok
    obtain ⟨⟨⟩, hcondition, hthen⟩ := Logged.bind_ok.1 hok
    obtain ⟨t₁, ht₁, helse⟩ := Logged.bind_ok.1 hthen
    obtain ⟨hplain, ht⟩ := iht t t₁ h ht₁
    obtain ⟨hplain', he⟩ := ihe t₁ t' (h.congr hplain) helse
    have hc := (h.typeOf (checkCondition_ok hcondition)).2 trivial
    refine ⟨hplain'.trans hplain, explains_append.2 ⟨hc.explains false, ?_⟩⟩
    exact explains_append.2 ⟨ht, (explains_congr hplain).1 he⟩
  | loop condition body ih =>
    unfold ClassTable.checkStmt at hok
    obtain ⟨⟨⟩, hcondition, hbody⟩ := Logged.bind_ok.1 hok
    obtain ⟨hplain, hb⟩ := ih t t' h hbody
    have hc := (h.typeOf (checkCondition_ok hcondition)).2 trivial
    exact ⟨hplain, explains_append.2 ⟨hc.explains false, hb⟩⟩
  | print value =>
    obtain ⟨ty, hty, hresult⟩ := Logged.bind_ok.1 hok
    obtain rfl := Logged.pure_ok.1 hresult
    obtain ⟨hname, hground⟩ := h.typeOf hty
    refine ⟨rfl, ?_⟩
    -- A name by itself is marked as printed, and nothing else has a type that is not grounded.
    rcases hname with hname | hty
    · rw [Stmt.nameUses, hname]
      exact List.forall_mem_map.2 fun _ _ => .inr rfl
    · exact (hground hty).explains value.isName

theorem Meaningful.checkStmts (h : t.Meaningful) {ss : List Stmt}
    (hok : (t.checkStmts cx ss).outcome = .ok t') :
    t'.plain = t.plain ∧ t.Explains cx (ss.flatMap Stmt.nameUses) :=
  Meaningful.checkStmts_of_each (fun s _ => Meaningful.checkStmt s) h hok

/-! ## Methods and programs -/

theorem Meaningful.checkMethod (h : t.Meaningful) {className : String} {d : MethodDecl}
    (hreturn : t.Grounded (Ty.ofName d.returnType.name))
    (hok : (t.checkMethod className d).outcome = .ok t') :
    t'.plain = t.plain ∧ t.Explains ⟨className, d.name.name⟩ d.nameUses := by
  unfold ClassTable.checkMethod at hok
  rw [Logged.record_bind_ok] at hok
  obtain ⟨t₁, ht₁, hrest⟩ := Logged.bind_ok.1 hok
  obtain ⟨⟨⟩, hcheck, hresult⟩ := Logged.bind_ok.1 hrest
  obtain rfl := Logged.pure_ok.1 hresult
  obtain ⟨hplain, hbody⟩ := h.checkStmts ht₁
  obtain ⟨found, hfound, ha⟩ := checkReturn_ok hcheck
  have hground := ((grounded_congr hplain).2 hreturn).of_isAssignable ha
  have hall := ((h.congr hplain).typeOf hfound).2 hground.of_resolveSelf
  exact ⟨hplain, explains_append.2 ⟨hbody, (explains_congr hplain).1 (hall.explains false)⟩⟩

theorem Meaningful.checkMethods (h : t.Meaningful) {className : String} {ds : List MethodDecl}
    (hreturn : ∀ d ∈ ds, t.Grounded (Ty.ofName d.returnType.name))
    (hok : (t.checkMethods className ds).outcome = .ok t') :
    t'.plain = t.plain ∧ ∀ d ∈ ds, t.Explains ⟨className, d.name.name⟩ d.nameUses := by
  refine plain_of_loop (fun t ds => t.checkMethods className ds) (fun _ => rfl) (fun _ _ _ => rfl)
    (fun d hd t₁ t₂ ht₁ ht₂ => ?_) rfl hok
  obtain ⟨hplain, hexplains⟩ :=
    (h.congr ht₁).checkMethod ((grounded_congr ht₁).2 (hreturn d hd)) ht₂
  exact ⟨hplain.trans ht₁, (explains_congr ht₁).1 hexplains⟩

theorem Meaningful.checkClasses (h : t.Meaningful) {cs : List ClassDecl}
    (hreturn : ∀ c ∈ cs, ∀ d ∈ c.methods, t.Grounded (Ty.ofName d.returnType.name))
    (hok : (t.checkClasses cs).outcome = .ok t') :
    t'.plain = t.plain ∧
      ∀ c ∈ cs, ∀ d ∈ c.methods, t.Explains ⟨c.name.name, d.name.name⟩ d.nameUses := by
  refine plain_of_loop ClassTable.checkClasses (fun _ => rfl) (fun _ _ _ => rfl)
    (fun c hc t₁ t₂ ht₁ ht₂ => ?_) rfl hok
  obtain ⟨hplain, hexplains⟩ := (h.congr ht₁).checkMethods
    (fun d hd => (grounded_congr ht₁).2 (hreturn c hc d hd)) ht₂
  exact ⟨hplain.trans ht₁, fun d hd => (explains_congr ht₁).1 (hexplains d hd)⟩

end ClassTable

open ClassTable

/-- In an accepted program every name in a body or in a returned value stands for a variable or for a
class, unless it is all that is printed. -/
theorem Program.names_explained {p : Program} {t : ClassTable} (h : p.analyze.outcome = .ok t) :
    t.Explains ⟨p.main.name.name, mainMethod⟩ (p.main.body.flatMap Stmt.nameUses) ∧
      ∀ c ∈ p.classes, ∀ d ∈ c.methods, t.Explains ⟨c.name.name, d.name.name⟩ d.nameUses := by
  rw [Program.outcome_analyze] at h
  obtain ⟨t₀, hclasses, h₀⟩ := Outcome.bind_eq_ok.1 h
  obtain ⟨t₁, hmembers, h₁⟩ := Outcome.bind_eq_ok.1 h₀
  obtain ⟨t₃, hcheck, h₃⟩ := Outcome.bind_eq_ok.1 h₁
  obtain rfl := Outcome.pure_eq_ok.1 h₃
  have hin := Program.declaredIn_declareMembers hclasses hmembers
  have hreturn : ∀ c ∈ p.classes, ∀ d ∈ c.methods, t₁.Grounded (Ty.ofName d.returnType.name) :=
    fun c hc d hd => hin.grounded_of_known ((hin.classes c hc).2.methods d hd).returnType
  obtain ⟨t₂, hmain, hrest⟩ := Logged.bind_ok.1 hcheck
  obtain ⟨t₄, hall, hlast⟩ := Logged.bind_ok.1 hrest
  rw [Logged.record_bind_ok] at hlast
  obtain rfl := Logged.pure_ok.1 hlast
  obtain ⟨hplain, hbody⟩ := hin.meaningful.checkStmts hmain
  obtain ⟨hplain', hmethods⟩ := (hin.meaningful.congr hplain).checkClasses
    (fun c hc d hd => (grounded_congr hplain).2 (hreturn c hc d hd)) hall
  -- Checking sets marks and laying out sets offsets, so the last table knows the same names.
  have hsame : t₄.layOut.plain = t₂.plain := (plain_layOut t₄).trans hplain'
  refine ⟨(explains_congr (hsame.trans hplain)).2 hbody, fun c hc d hd => ?_⟩
  exact (explains_congr hsame).2 (hmethods c hc d hd)

/-- `main` prints a name that stands for nothing. In `f` there are a parameter, a local, a field of
the superclass and the name of a class, which may be assigned as if it were an object. -/
def mixedNames : Program :=
  let here : Span := ⟨0, 0⟩
  let name (text : String) : Ident := ⟨text, here⟩
  let f : MethodDecl :=
    { returnType := ⟨.int, here⟩
      name := name "f"
      params := [⟨⟨.int, here⟩, name "n"⟩]
      locals := [⟨⟨.named "B", here⟩, name "b"⟩]
      body :=
        [.assign (name "b") (.ident here "B"),
          .ifElse (.binary here .less (.ident here "n") (.ident here "x"))
            (.print (.paren here (.ident here "ghost"))) (.block [])]
      returned := .call here (.ident here "b") (name "f") [.ident here "x"] }
  { main := { name := name "M", args := name "args", locals := [],
              body := [.print (.ident here "ghost")] }
    classes :=
      [{ name := name "A", superclass := none, fields := [⟨⟨.int, here⟩, name "x"⟩], methods := [] },
        { name := name "B", superclass := some (name "A"), fields := [], methods := [f] }] }

theorem Program.names_explained_mixedNames :
    ∃ t, mixedNames.analyze.outcome = .ok t ∧
      t.Explains ⟨"M", mainMethod⟩ [⟨"ghost", true⟩] ∧
      t.Explains ⟨"B", "f"⟩ [⟨"B", false⟩, ⟨"n", false⟩, ⟨"x", false⟩, ⟨"ghost", true⟩,
        ⟨"b", false⟩, ⟨"x", false⟩] := by
  have hok : mixedNames.analyze.outcome.isOk = true := by decide +kernel
  obtain ⟨t, ht⟩ := Outcome.isOk_iff.1 hok
  obtain ⟨hmain, hmethods⟩ := Program.names_explained ht
  exact ⟨t, ht, hmain, hmethods _ (.tail _ (.head _)) _ (.head _)⟩

end ClassCheck
