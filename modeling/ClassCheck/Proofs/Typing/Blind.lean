import ClassCheck.Proofs.Declare.Distinct
import ClassCheck.Proofs.Program.Trees
import ClassCheck.Proofs.Typing.Accepted

/-!
# Checking does not see what it has written

Checking passes the table on from one body to the next, with more and more variables marked. No
answer depends on a mark. So every body is accepted or refused as it would be if it were the only
one, and the marks in the end are those of all assignments.
-/

namespace ClassCheck

namespace ClassTable

/-! ## Types do not depend on marks -/

section

variable (t : ClassTable) (cx : Context)

theorem isAssignable_plain (target value : Ty) :
    t.plain.isAssignable target value = t.isAssignable target value := by
  have hsub : ∀ name ancestor, t.plain.isSubclass name ancestor = t.isSubclass name ancestor := by
    intro name ancestor
    rw [isSubclass, ancestors_plain, List.any_map, isSubclass]
    rfl
  unfold isAssignable
  simp only [hsub]

theorem argumentError?_plain (method : String) (params : List Variable) (types : List Ty)
    (args : List Expr) :
    t.plain.argumentError? method (params.map Variable.plain) types args =
      t.argumentError? method params types args := by
  induction params generalizing types args with
  | nil => rfl
  | cons param params ih =>
    cases types with
    | nil => rfl
    | cons type types =>
      cases args with
      | nil => rfl
      | cons arg args =>
        simp only [List.map_cons, argumentError?, isAssignable_plain, ih]
        rfl

theorem checkArguments_plain (m : MethodInfo) (span : Span) (args : List Expr) (types : List Ty) :
    t.plain.checkArguments m.plain span args types = t.checkArguments m span args types := by
  have hparams : m.plain.params = m.params.map Variable.plain := rfl
  have hname : m.plain.name = m.name := rfl
  unfold checkArguments
  simp only [hparams, hname, List.length_map, argumentError?_plain]

theorem callee_plain_bind {α : Type} (receiver : Ty) (span : Span) (method : Ident)
    (f : MethodInfo → Check α) :
    (t.plain.callee receiver span method >>= f) =
      t.callee receiver span method >>= fun m => f m.plain := by
  unfold callee
  cases receiver with
  | object className =>
    simp only [contains_plain, method?_plain]
    split
    · cases t.method? className method.name <;> rfl
    · rfl
  | int | boolean | intArray | self | void | stringArray => rfl

theorem typesOf_plain {args : List Expr}
    (h : ∀ arg ∈ args, t.plain.typeOf cx arg = t.typeOf cx arg) :
    t.plain.typesOf cx args = t.typesOf cx args := by
  induction args with
  | nil => rfl
  | cons arg args ih =>
    rw [List.forall_mem_cons] at h
    rw [typesOf, h.1, ih h.2, typesOf]

/-- Not even the log shows a mark. -/
theorem typeOf_plain (e : Expr) : t.plain.typeOf cx e = t.typeOf cx e := by
  induction e with
  | int | bool | this => rfl
  | ident span name =>
    unfold typeOf lookUp
    rw [resolve_plain]
    cases t.resolve cx name <;> rfl
  | paren span inner ih =>
    unfold typeOf
    exact ih
  | binary span op left right ihl ihr =>
    unfold typeOf
    rw [ihl, ihr]
  | not span operand ih | length span operand ih | newArray span operand ih =>
    unfold typeOf
    rw [ih]
  | index span array position iha ihp =>
    unfold typeOf
    rw [iha, ihp]
  | newObject span className =>
    unfold typeOf
    rw [contains_plain]
  | call span receiver method args ihr ihs =>
    unfold typeOf
    rw [ihr, t.typesOf_plain cx ihs]
    simp only [callee_plain_bind, checkArguments_plain]
    -- What is asked of the method does not depend on marks either.
    have hempty : ∀ m : MethodInfo, m.plain.params.isEmpty = m.params.isEmpty := by
      simp [MethodInfo.plain]
    simp only [hempty]
    rfl

end

variable {t t' : ClassTable} {cx : Context}

theorem typeOf_congr (h : t'.plain = t.plain) (e : Expr) : t'.typeOf cx e = t.typeOf cx e := by
  rw [← typeOf_plain t', h, typeOf_plain]

theorem isAssignable_congr (h : t'.plain = t.plain) (target value : Ty) :
    t'.isAssignable target value = t.isAssignable target value := by
  rw [← isAssignable_plain t', h, isAssignable_plain]

theorem resolve_congr (h : t'.plain = t.plain) {name : String} {r : Resolved}
    (hr : t.resolve cx name = some r) :
    ∃ r', t'.resolve cx name = some r' ∧ r'.place = r.place ∧ r'.type = r.type := by
  have hmap : (t'.resolve cx name).map Resolved.plain = some r.plain := by
    rw [← resolve_plain, h, resolve_plain, hr, Option.map_some]
  obtain ⟨r', hr', heq⟩ := Option.map_eq_some_iff.1 hmap
  exact ⟨r', hr', (congrArg Resolved.place heq :), (congrArg Resolved.type heq :)⟩

theorem resolve_eq_none_congr (h : t'.plain = t.plain) {name : String}
    (hr : t.resolve cx name = none) : t'.resolve cx name = none := by
  have hmap : (t'.resolve cx name).map Resolved.plain = none := by
    rw [← resolve_plain, h, resolve_plain, hr, Option.map_none]
  exact Option.map_eq_none_iff.1 hmap

/-! ## Steps that do not see marks -/

/-- On all tables that differ from `t` in marks and offsets only the step comes out as on `t`, and if it
comes out well, it sets the given marks and does nothing else. -/
def Blind (t : ClassTable) (marks : Marks) (step : ClassTable → Check ClassTable) : Prop :=
  ∀ t' : ClassTable, t'.plain = t.plain →
    (step t').outcome = (step t).outcome.map fun _ => t'.mark marks

namespace Blind

variable {marks marks' : Marks} {step step' : ClassTable → Check ClassTable}

theorem pure : t.Blind Marks.none pure := by
  intro t' _
  exact congrArg Except.ok t'.mark_none.symm

theorem eq_mark (h : t.Blind marks step) {t' : ClassTable} (hok : (step t).outcome = .ok t') :
    t' = t.mark marks := by
  have hself := h t rfl
  rw [hok] at hself
  exact Except.ok.inj hself

theorem guard {α : Type} {check : ClassTable → Check α} (h : t.Blind marks step)
    (hcheck : ∀ t' : ClassTable, t'.plain = t.plain → (check t').outcome = (check t).outcome) :
    t.Blind marks fun t => check t >>= fun _ => step t := by
  intro t' ht'
  simp only [Logged.outcome_bind]
  rw [hcheck t' ht', h t' ht']
  cases (check t).outcome <;> rfl

theorem bind (h : t.Blind marks step) (h' : t.Blind marks' step') :
    t.Blind (marks.union marks') fun t => step t >>= step' := by
  intro t' ht'
  simp only [Logged.outcome_bind]
  rw [h t' ht']
  cases hok : (step t).outcome with
  | error e => rfl
  | ok t₁ =>
    obtain rfl := h.eq_mark hok
    change (step' (t'.mark marks)).outcome = Except.map _ (step' (t.mark marks)).outcome
    rw [h' _ ((plain_mark marks t').trans ht'), h' _ (plain_mark marks t), mark_mark]
    cases (step' t).outcome <;> rfl

end Blind

/-! ## Assignments -/

/-- The variables that some of the names stand for. -/
def assigned (t : ClassTable) (cx : Context) (names : List String) : Marks :=
  fun place name => name ∈ names ∧ (t.resolve cx name).map (·.place) = some place

theorem assigned_nil (t : ClassTable) (cx : Context) : t.assigned cx [] = Marks.none := by
  funext place name
  simp [assigned, Marks.none]

theorem assigned_append (t : ClassTable) (cx : Context) (names names' : List String) :
    t.assigned cx (names ++ names') = (t.assigned cx names).union (t.assigned cx names') := by
  funext place name
  simp [assigned, Marks.union, or_and_right]

theorem assigned_singleton {name : String} {r : Resolved} (hr : t.resolve cx name = some r) :
    t.assigned cx [name] = Marks.single r.place name := by
  funext place n
  by_cases hn : n = name
  · subst hn
    simp [assigned, Marks.single, hr, eq_comm]
  · simp [assigned, Marks.single, hn]

theorem outcome_lookUp_bind {α : Type} (name : String) (f : Option Resolved → Check α) :
    (t.lookUp cx name >>= f).outcome = (f (t.resolve cx name)).outcome := by
  simp only [lookUp, Logged.outcome_bind, Logged.outcome_record, Logged.outcome_pure]
  rfl

theorem outcome_target (t : ClassTable) (cx : Context) (name : Ident) :
    (t.target cx name).outcome =
      match t.resolve cx name.name with
      | some found => .ok found
      | none => .error ⟨.unknownName name.name, name.span⟩ := by
  unfold target
  rw [outcome_lookUp_bind]
  cases t.resolve cx name.name <;> rfl

theorem Distinct.blind_checkAssign (h : t.Distinct) (cx : Context) (name : Ident) (value : Expr) :
    t.Blind (t.assigned cx [name.name]) fun t => t.checkAssign cx name value := by
  intro t' ht'
  unfold checkAssign
  simp only [Logged.outcome_bind, outcome_target, typeOf_congr ht']
  cases hr : t.resolve cx name.name with
  | none =>
    rw [resolve_eq_none_congr ht' hr]
    rfl
  | some r =>
    obtain ⟨r', hr', hplace, hty⟩ := resolve_congr ht' hr
    rw [hr', assigned_singleton hr]
    cases (t.typeOf cx value).outcome with
    | error e => rfl
    | ok found =>
      change Logged.outcome (if _ then _ else _) = Except.map _ (Logged.outcome (if _ then _ else _))
      rw [hty, isAssignable_congr ht', hplace, (h.congr ht').markInitialized_eq_mark]
      split <;> rfl

theorem outcome_checkArrayAssign_congr (h : t'.plain = t.plain) (name : Ident) (position value : Expr) :
    (t'.checkArrayAssign cx name position value).outcome =
      (t.checkArrayAssign cx name position value).outcome := by
  unfold checkArrayAssign
  simp only [Logged.outcome_bind, outcome_target, typeOf_congr h]
  cases hr : t.resolve cx name.name with
  | none => rw [resolve_eq_none_congr h hr]
  | some r =>
    obtain ⟨r', hr', -, hty⟩ := resolve_congr h hr
    rw [hr']
    change Logged.outcome (if r'.type ≠ .intArray then _ else _) =
      Logged.outcome (if r.type ≠ .intArray then _ else _)
    rw [hty]

end ClassTable

/-! ## Statements -/

namespace Stmt

mutual
/-- The targets of assignments to variables. Those of assignments to array elements do not count. -/
def targets : Stmt → List String
  | .block body => targetsOfAll body
  | .assign target _ => [target.name]
  | .arrayAssign _ _ _ => []
  | .ifElse _ thenBranch elseBranch => thenBranch.targets ++ elseBranch.targets
  | .loop _ body => body.targets
  | .print _ => []

def targetsOfAll : List Stmt → List String
  | [] => []
  | s :: ss => s.targets ++ targetsOfAll ss
end

end Stmt

namespace ClassTable

variable {t : ClassTable} {cx : Context}

theorem blind_checkStmts_of_each {ss : List Stmt}
    (h : ∀ s ∈ ss, t.Blind (t.assigned cx s.targets) fun t => t.checkStmt cx s) :
    t.Blind (t.assigned cx (Stmt.targetsOfAll ss)) fun t => t.checkStmts cx ss := by
  induction ss with
  | nil =>
    rw [Stmt.targetsOfAll, assigned_nil]
    exact Blind.pure
  | cons s ss ih =>
    rw [List.forall_mem_cons] at h
    rw [Stmt.targetsOfAll, assigned_append]
    exact h.1.bind (ih h.2)

theorem Distinct.blind_checkStmt (h : t.Distinct) (cx : Context) (s : Stmt) :
    t.Blind (t.assigned cx s.targets) fun t => t.checkStmt cx s := by
  have hcondition : ∀ statement condition (t' : ClassTable), t'.plain = t.plain →
      (t'.checkCondition cx statement condition).outcome =
        (t.checkCondition cx statement condition).outcome := by
    intro statement condition t' ht'
    rw [checkCondition, typeOf_congr ht', checkCondition]
  induction s with
  | block body ih => exact blind_checkStmts_of_each ih
  | assign target value => exact h.blind_checkAssign cx target value
  | arrayAssign target position value =>
    rw [Stmt.targets, assigned_nil]
    exact Blind.pure.guard fun t' ht' => outcome_checkArrayAssign_congr ht' target position value
  | ifElse condition thenBranch elseBranch iht ihe =>
    rw [Stmt.targets, assigned_append]
    exact (iht.bind ihe).guard (hcondition .ifElse condition)
  | loop condition body ih => exact ih.guard (hcondition .loop condition)
  | print value =>
    rw [Stmt.targets, assigned_nil]
    refine Blind.pure.guard fun t' ht' => ?_
    rw [typeOf_congr ht']

theorem Distinct.blind_checkStmts (h : t.Distinct) (cx : Context) (ss : List Stmt) :
    t.Blind (t.assigned cx (Stmt.targetsOfAll ss)) fun t => t.checkStmts cx ss :=
  blind_checkStmts_of_each fun s _ => h.blind_checkStmt cx s

end ClassTable

/-! ## Bodies -/

/-- What is checked in one go: the statements of `main`, or those of a method and what it returns. -/
inductive Body where
  | main (d : MainClass)
  | method (className : String) (d : MethodDecl)

namespace Body

def context : Body → Context
  | .main d => ⟨d.name.name, ClassTable.mainMethod⟩
  | .method className d => ⟨className, d.name.name⟩

def targets : Body → List String
  | .main d => Stmt.targetsOfAll d.body
  | .method _ d => Stmt.targetsOfAll d.body

end Body

/-- All bodies, in the order of the program. -/
def Program.bodies (p : Program) : List Body :=
  .main p.main :: p.classes.flatMap fun c => c.methods.map (.method c.name.name)

namespace ClassTable

variable {t : ClassTable}

/-- Checks one body. -/
def checkBody (t : ClassTable) : Body → Check ClassTable
  | .main d => t.checkStmts ⟨d.name.name, mainMethod⟩ d.body
  | .method className d => t.checkMethod className d

theorem outcome_checkReturn_congr {t' : ClassTable} (h : t'.plain = t.plain) (cx : Context) (d : MethodDecl) :
    (t'.checkReturn cx d).outcome = (t.checkReturn cx d).outcome := by
  simp only [checkReturn, typeOf_congr h, isAssignable_congr h]

theorem Distinct.blind_checkBody (h : t.Distinct) (b : Body) :
    t.Blind (t.assigned b.context b.targets) fun t => t.checkBody b := by
  cases b with
  | main d => exact h.blind_checkStmts _ d.body
  | method className d =>
    have hbody := (h.blind_checkStmts ⟨className, d.name.name⟩ d.body).bind
      (Blind.pure.guard fun t' ht' => outcome_checkReturn_congr ht' ⟨className, d.name.name⟩ d)
    rw [Marks.union_none] at hbody
    exact hbody.guard fun _ _ => rfl

/-- The loop over all bodies, which passes the table on. -/
def checkBodies (t : ClassTable) : List Body → Check ClassTable
  | [] => return t
  | b :: bs => do
    let t ← t.checkBody b
    t.checkBodies bs

theorem outcome_checkBodies_append (t : ClassTable) (bs bs' : List Body) :
    (t.checkBodies (bs ++ bs')).outcome =
      (t.checkBodies bs).outcome >>= fun t => (t.checkBodies bs').outcome := by
  induction bs generalizing t with
  | nil => rfl
  | cons b bs ih =>
    simp only [List.cons_append, checkBodies, Logged.outcome_bind, ih]
    cases (t.checkBody b).outcome <;> rfl

theorem outcome_checkClasses (t : ClassTable) (cs : List ClassDecl) :
    (t.checkClasses cs).outcome =
      (t.checkBodies (cs.flatMap fun c => c.methods.map (.method c.name.name))).outcome := by
  have hmethods : ∀ className (ds : List MethodDecl) (t : ClassTable),
      (t.checkMethods className ds).outcome = (t.checkBodies (ds.map (.method className))).outcome := by
    intro className ds
    induction ds with
    | nil => exact fun _ => rfl
    | cons d ds ih =>
      intro t
      simp only [List.map_cons, checkMethods, checkBodies, checkBody, Logged.outcome_bind, ih]
  induction cs generalizing t with
  | nil => rfl
  | cons c cs ih =>
    simp only [List.flatMap_cons, outcome_checkBodies_append, checkClasses, Logged.outcome_bind,
      hmethods, ih]

theorem outcome_check (p : Program) (t : ClassTable) :
    (p.check t).outcome = (t.checkBodies p.bodies).outcome := by
  simp only [Program.check, Program.bodies, checkBodies, checkBody, Logged.outcome_bind,
    outcome_checkClasses, Logged.outcome_record, Logged.outcome_pure]
  cases (t.checkStmts ⟨p.main.name.name, mainMethod⟩ p.main.body).outcome with
  | error e => rfl
  | ok t₁ =>
    change ((t₁.checkBodies _).outcome >>= _) = (t₁.checkBodies _).outcome
    cases (t₁.checkBodies _).outcome <;> rfl

/-- The variables that are assigned to in some of the bodies. -/
def assignedIn (t : ClassTable) (bs : List Body) : Marks :=
  fun place name => bs.any fun b => t.assigned b.context b.targets place name

theorem assignedIn_iff {bs : List Body} {place : Place} {name : String} :
    t.assignedIn bs place name = true ↔
      ∃ b ∈ bs, name ∈ b.targets ∧ ∃ r, t.resolve b.context name = some r ∧ r.place = place := by
  simp [assignedIn, assigned]

theorem Distinct.blind_checkBodies (h : t.Distinct) (bs : List Body) :
    t.Blind (t.assignedIn bs) fun t => t.checkBodies bs := by
  induction bs with
  | nil => exact Blind.pure
  | cons b bs ih => exact (h.blind_checkBody b).bind ih

/-- The first body that is refused by itself is the one that stops the loop. -/
theorem Distinct.error?_checkBodies (h : t.Distinct) (bs : List Body) :
    Outcome.error? (t.checkBodies bs).outcome =
      bs.findSome? fun b => Outcome.error? (t.checkBody b).outcome := by
  induction bs with
  | nil => rfl
  | cons b bs ih =>
    simp only [checkBodies, Logged.outcome_bind, List.findSome?_cons]
    cases hb : (t.checkBody b).outcome with
    | error e => rfl
    | ok t₁ =>
      obtain rfl := (h.blind_checkBody b).eq_mark hb
      change Outcome.error? ((t.mark _).checkBodies bs).outcome = _
      rw [h.blind_checkBodies bs _ (plain_mark _ t), Outcome.error?_map, ih]
      rfl

end ClassTable

open ClassTable

/-- Checking a program comes out as if every body were checked alone, on the table as it was declared:
it succeeds if all of them do, and it fails like the first of them that fails. In the table that it
gives, a variable is marked if it was marked before or if an assignment in some body, at any depth, has
it as its target. Nothing else has changed. -/
theorem Program.check_as_if_alone {p : Program} {t₀ t : ClassTable}
    (h₀ : p.declareClasses.outcome = .ok t₀) (h : (p.declareMembers t₀).outcome = .ok t) :
    ((∃ t', (p.check t).outcome = .ok t') ↔ ∀ b ∈ p.bodies, ∃ t', (t.checkBody b).outcome = .ok t') ∧
      (∀ e, (p.check t).outcome = .error e ↔
        ∃ before b after, p.bodies = before ++ b :: after ∧ (t.checkBody b).outcome = .error e ∧
          ∀ earlier ∈ before, ∃ t', (t.checkBody earlier).outcome = .ok t') ∧
      ∀ t', (p.check t).outcome = .ok t' →
        t' = t.mark (t.assignedIn p.bodies) ∧
        ∀ place name v, t.variableAt? place name = some v →
          ∃ v', t'.variableAt? place name = some v' ∧
            (v'.initialized = true ↔ v.initialized = true ∨ ∃ b ∈ p.bodies, name ∈ b.targets ∧
              ∃ r, t.resolve b.context name = some r ∧ r.place = place) := by
  have hdistinct := Program.distinct_declareMembers h₀ h
  have herror := hdistinct.error?_checkBodies p.bodies
  rw [outcome_check]
  refine ⟨?_, ?_, ?_⟩
  · rw [← Outcome.error?_eq_none, herror, List.findSome?_eq_none_iff]
    simp only [Outcome.error?_eq_none]
  · intro e
    rw [← Outcome.error?_eq_some, herror, List.findSome?_eq_some_iff]
    simp only [Outcome.error?_eq_none, Outcome.error?_eq_some]
  · intro t' ht'
    obtain rfl := (hdistinct.blind_checkBodies p.bodies).eq_mark ht'
    refine ⟨rfl, fun place name v hv => ?_⟩
    rw [hdistinct.variableAt?_mark, hv]
    refine ⟨_, rfl, ?_⟩
    rw [← assignedIn_iff, Variable.mark, Bool.or_eq_true]

/-- `f` assigns to the field `x` of the superclass, in a loop in a branch. In `g` a local hides that
field. -/
def hiddenField : Program :=
  let here : Span := ⟨0, 0⟩
  let name (text : String) : Ident := ⟨text, here⟩
  let x : VarDecl := ⟨⟨.int, here⟩, name "x"⟩
  let method (text : String) (locals : List VarDecl) (body : List Stmt) : MethodDecl :=
    { returnType := ⟨.int, here⟩, name := name text, params := [], locals, body,
      returned := .int here 0 }
  { main := { name := name "M", args := name "args", locals := [], body := [] }
    classes :=
      [{ name := name "A", superclass := none, fields := [x], methods := [] },
        { name := name "B", superclass := some (name "A"), fields := [],
          methods :=
            [method "f" [] [.ifElse (.bool here true) (.block [])
                (.loop (.bool here true) (.assign (name "x") (.int here 1)))],
              method "g" [x] [.assign (name "x") (.int here 2)]] }] }

theorem Program.check_as_if_alone_hiddenField :
    ∃ t₀ t t', hiddenField.declareClasses.outcome = .ok t₀ ∧
      (hiddenField.declareMembers t₀).outcome = .ok t ∧ (hiddenField.check t).outcome = .ok t' ∧
      (∀ b ∈ hiddenField.bodies, ∃ t₁, (t.checkBody b).outcome = .ok t₁) ∧
      t' = t.mark (t.assignedIn hiddenField.bodies) ∧
      ∃ v', t'.variableAt? (.inClass "A") "x" = some v' ∧ v'.initialized = true := by
  have hrun : (hiddenField.declareClasses.outcome.toOption.any fun t₀ =>
      (hiddenField.declareMembers t₀).outcome.toOption.any fun t =>
        (hiddenField.check t).outcome.isOk && (t.variableAt? (.inClass "A") "x").isSome &&
          t.assignedIn hiddenField.bodies (.inClass "A") "x") = true := by decide +kernel
  obtain ⟨t₀, h₀, hrest⟩ := Outcome.any_toOption_iff.1 hrun
  obtain ⟨t, h, hlast⟩ := Outcome.any_toOption_iff.1 hrest
  simp only [Bool.and_eq_true, Option.isSome_iff_exists, Outcome.isOk_iff] at hlast
  obtain ⟨⟨⟨t', ht'⟩, v, hv⟩, hassigned⟩ := hlast
  obtain ⟨hbodies, -, hmarks⟩ := Program.check_as_if_alone h₀ h
  obtain ⟨heq, hflags⟩ := hmarks t' ht'
  obtain ⟨v', hv', hflag⟩ := hflags (.inClass "A") "x" v hv
  exact ⟨t₀, t, t', h₀, h, ht', hbodies.1 ⟨t', ht'⟩, heq, v', hv',
    hflag.2 (.inr (assignedIn_iff.1 hassigned))⟩

end ClassCheck
