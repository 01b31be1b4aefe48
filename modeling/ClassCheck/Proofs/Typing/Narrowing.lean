import ClassCheck.Proofs.ClassTable.Retype
import ClassCheck.Proofs.Declare.Overriding
import ClassCheck.Proofs.Typing.Blind
import ClassCheck.Proofs.Typing.Rules

/-!
# Narrowing the type of a variable

A field or a local variable of a class type is given a subclass for its type. Then every expression
keeps a type, which may be narrower than before, and every statement stays accepted, unless it assigns to
that very variable.
-/

namespace ClassCheck

namespace ClassTable

variable {t t' : ClassTable} {cx : Context} {ty target value : Ty}

/-! ## Narrower types -/

theorem Conforms.refl (t : ClassTable) (ty : Ty) : t.Conforms ty ty := .inl rfl

theorem Conforms.trans {between : Ty} (h : t.Conforms target between) (h' : t.Conforms between value) :
    t.Conforms target value := by
  rcases h with rfl | ⟨a, b, rfl, rfl, hdesc⟩
  · exact h'
  · rcases h' with rfl | ⟨b', c, hb, rfl, hdesc'⟩
    · exact .inr ⟨a, b, rfl, rfl, hdesc⟩
    · obtain rfl := Ty.object.inj hb
      exact .inr ⟨a, c, rfl, rfl, .trans hdesc' hdesc⟩

theorem Conforms.eq_of_not_object (h : t.Conforms target value)
    (htarget : ∀ name, target ≠ .object name) : value = target := by
  rcases h with rfl | ⟨a, _, ha, _⟩
  · rfl
  · exact absurd ha (htarget a)

theorem Conforms.resolveSelf (h : t.Conforms target value) (className : String) :
    t.Conforms (target.resolveSelf className) (value.resolveSelf className) := by
  rcases h with rfl | ⟨a, b, rfl, rfl, hdesc⟩
  · exact .refl t _
  · exact .inr ⟨a, b, rfl, rfl, hdesc⟩

theorem Conforms.exists_object {className : String} (h : t.Conforms (.object className) value) :
    ∃ name, value = .object name ∧ (name = className ∨ t.Descends name className) := by
  rcases h with rfl | ⟨a, b, ha, rfl, hdesc⟩
  · exact ⟨className, rfl, .inl rfl⟩
  · obtain rfl := Ty.object.inj ha
    exact ⟨b, rfl, .inr hdesc⟩

/-! ## Tables with narrower variables -/

/-- The second table differs from the first one in the types of the given variables at most. None of them
is a parameter, and they are narrower than before. -/
structure Narrows (t t' : ClassTable) (changed : Place → String → Prop) : Prop where
  links : t.SameLinks t'
  signatures : ∀ className method,
    (t'.method? className method).map MethodInfo.signature =
      (t.method? className method).map MethodInfo.signature
  unknown : ∀ cx name, t.resolve cx name = none → t'.resolve cx name = none
  resolved : ∀ cx name r, t.resolve cx name = some r →
    ∃ r', t'.resolve cx name = some r' ∧ t.Conforms r.type r'.type ∧
      (changed r.place name ∨ r'.type = r.type)

namespace Narrows

variable {changed : Place → String → Prop}

theorem method? (h : t.Narrows t' changed) {className method : String} {m : MethodInfo}
    (hm : t.method? className method = some m) :
    ∃ m', t'.method? className method = some m' ∧ m'.returnType = m.returnType ∧
      m'.params = m.params := by
  have hsig := h.signatures className method
  rw [hm, Option.map_some] at hsig
  obtain ⟨m', hm', heq⟩ := Option.map_eq_some_iff.1 hsig
  obtain ⟨hreturn, hparams⟩ := Prod.mk.inj heq
  exact ⟨m', hm', hreturn, hparams⟩

/-- In the narrower table the expression has a type too, and one that can stand for the old one. -/
def Keeps (t t' : ClassTable) (cx : Context) (e : Expr) : Prop :=
  ∀ ty, (t.typeOf cx e).outcome = .ok ty →
    ∃ ty', (t'.typeOf cx e).outcome = .ok ty' ∧ t.Conforms ty ty'

theorem Keeps.outcome {e : Expr} (h : Keeps t t' cx e) (he : (t.typeOf cx e).outcome = .ok ty)
    (hty : ∀ name, ty ≠ .object name) : (t'.typeOf cx e).outcome = .ok ty := by
  obtain ⟨ty', he', hconforms⟩ := h ty he
  rwa [hconforms.eq_of_not_object hty] at he'

theorem keeps_ident (h : t.Narrows t' changed) (span : Span) (name : String) :
    Keeps t t' cx (.ident span name) := by
  intro ty he
  rcases typeOf_ident_ok he with ⟨r, hr, rfl⟩ | ⟨hnone, rfl⟩
  · obtain ⟨r', hr', hconforms, -⟩ := h.resolved cx name r hr
    refine ⟨r'.type, ?_, hconforms⟩
    unfold typeOf
    rw [lookUp_bind_ok, hr']
    rfl
  · refine ⟨.object name, ?_, .refl t _⟩
    unfold typeOf
    rw [lookUp_bind_ok, h.unknown cx name hnone]
    rfl

theorem arguments (h : t.Narrows t' changed) (hordered : t.Ordered) {method method' : String}
    {params params' : List Variable} {args : List Expr} {types : List Ty}
    (hargs : ∀ arg ∈ args, Keeps t t' cx arg) (htypes : (t.typesOf cx args).outcome = .ok types)
    (hlen : types.length = params.length) (herror : t.argumentError? method params types args = none)
    (hparams : params.map (·.type) = params'.map (·.type)) :
    ∃ types', (t'.typesOf cx args).outcome = .ok types' ∧ types'.length = params'.length ∧
      t'.argumentError? method' params' types' args = none := by
  induction args generalizing types params params' with
  | nil =>
    obtain rfl := Logged.pure_ok.1 htypes
    obtain rfl := List.eq_nil_of_length_eq_zero hlen.symm
    obtain rfl := List.map_eq_nil_iff.1 hparams.symm
    exact ⟨[], rfl, rfl, rfl⟩
  | cons arg args ih =>
    obtain ⟨ty, rest, hty, hrest, rfl⟩ := typesOf_cons_ok htypes
    obtain ⟨param, params, rfl⟩ := List.exists_cons_of_length_eq_add_one hlen.symm
    rw [List.map_cons] at hparams
    obtain ⟨param', params', rfl, htype, hparams⟩ := List.map_eq_cons_iff.1 hparams.symm
    rw [List.forall_mem_cons] at hargs
    unfold argumentError? at herror
    split at herror
    · next ha =>
      obtain ⟨ty', hty', hconforms⟩ := hargs.1 ty hty
      obtain ⟨rest', hrest', hlen', herror'⟩ :=
        ih hargs.2 hrest (by simpa using hlen) herror hparams.symm
      refine ⟨ty'.resolveSelf cx.className :: rest', ?_, congrArg (· + 1) hlen', ?_⟩
      · unfold typesOf
        exact Logged.bind_ok.2 ⟨ty', hty', Logged.bind_ok.2 ⟨rest', hrest', rfl⟩⟩
      · have hfits : t.Conforms param.type (ty'.resolveSelf cx.className) :=
          (hordered.isAssignable_iff.1 ha).trans (hconforms.resolveSelf _)
        unfold argumentError?
        rwa [h.links.isAssignable_eq, htype, if_pos (hordered.isAssignable_iff.2 hfits)]
    · cases herror

/-- Below the class of a receiver the method has the same signature, so that the call has the same
type. -/
theorem keeps_call {p : Program} (h : t.Narrows t' changed) (hin : p.DeclaredIn t) {receiver : Expr}
    {args : List Expr} (hreceiver : Keeps t t' cx receiver) (hargs : ∀ arg ∈ args, Keeps t t' cx arg)
    (span : Span) (method : Ident) : Keeps t t' cx (.call span receiver method args) := by
  intro ty he
  obtain ⟨raw, className, m, hraw, hclass, -, hm, rfl, hchecked⟩ := typeOf_call_ok he
  obtain ⟨raw', hraw', hconforms⟩ := hreceiver raw hraw
  have hself := hconforms.resolveSelf cx.className
  rw [hclass] at hself
  obtain ⟨name, hname, hbelow⟩ := hself.exists_object
  have hown : ∃ own, t.method? name method.name = some own ∧ m.SameSignature own := by
    rcases hbelow with rfl | hdesc
    · exact ⟨m, hm, rfl, rfl⟩
    · exact hin.method?_of_descends hdesc hm
  obtain ⟨own, hown, hreturn, hparams⟩ := hown
  obtain ⟨m', hm', hreturn', hparams'⟩ := h.method? hown
  refine ⟨m'.returnType, ?_, ?_⟩
  · apply typeOf_call_of_ok hraw' hname hm'
    rcases hchecked with hnil | ⟨types, htypes, hlen, herror⟩
    · exact .inl hnil
    · rw [← hparams'] at hparams
      obtain ⟨types', htypes', hlen', herror'⟩ :=
        h.arguments hin.ordered hargs htypes hlen herror hparams
      cases args with
      | nil => exact .inl rfl
      | cons arg args =>
        refine .inr ⟨?_, types', htypes', hlen', herror'⟩
        obtain ⟨_, _, _, _, rfl⟩ := typesOf_cons_ok htypes'
        intro hempty
        rw [hempty] at hlen'
        cases hlen'
  · rw [hreturn', ← hreturn]
    exact .refl t _

theorem keeps {p : Program} (h : t.Narrows t' changed) (hin : p.DeclaredIn t) (e : Expr) :
    Keeps t t' cx e := by
  induction e with
  | int | bool | this => exact fun ty he => ⟨ty, he, .refl t ty⟩
  | ident span name => exact h.keeps_ident span name
  | paren span inner ih => exact ih
  | binary span op left right ihl ihr =>
    intro ty he
    obtain ⟨hleft, hright, rfl⟩ := typeOf_binary_ok he
    have hoperand : ∀ className, (binaryTypes op).1 ≠ .object className := by
      cases op <;> simp [binaryTypes]
    exact ⟨_, typeOf_binary_of_ok (ihl.outcome hleft hoperand) (ihr.outcome hright hoperand),
      .refl t _⟩
  | not span operand ih | length span operand ih | newArray span operand ih =>
    intro ty he
    unfold ClassTable.typeOf at he
    obtain ⟨hoperand, rfl⟩ := unaryType_ok he
    exact ⟨_, unaryType_of_ok (ih.outcome hoperand (by simp)), .refl t _⟩
  | index span array position iha ihp =>
    intro ty he
    obtain ⟨harray, hposition, rfl⟩ := typeOf_index_ok he
    refine ⟨.int, ?_, .refl t _⟩
    unfold ClassTable.typeOf
    refine Logged.bind_ok.2 ⟨.intArray, iha.outcome harray (by simp), ?_⟩
    exact Logged.bind_ok.2 ⟨.int, ihp.outcome hposition (by simp), rfl⟩
  | newObject span className =>
    intro ty he
    obtain ⟨hc, rfl⟩ := typeOf_newObject_ok he
    refine ⟨.object className.name, ?_, .refl t _⟩
    unfold ClassTable.typeOf
    rw [h.links.contains_eq, if_pos hc]
    rfl
  | call span receiver method args ihr ihs => exact h.keeps_call hin ihr ihs span method

end Narrows

/-! ## Statements -/

/-- The statement passes the check. -/
def Accepts (t : ClassTable) (cx : Context) (s : Stmt) : Prop :=
  ∃ t₁, (t.checkStmt cx s).outcome = .ok t₁

theorem Blind.bind_ok_iff {marks marks' : Marks} {step step' : ClassTable → Check ClassTable}
    (h : t.Blind marks step) (h' : t.Blind marks' step') :
    (∃ t₁, (step t >>= step').outcome = .ok t₁) ↔
      (∃ t₁, (step t).outcome = .ok t₁) ∧ ∃ t₁, (step' t).outcome = .ok t₁ := by
  simp only [Logged.outcome_bind]
  cases hok : (step t).outcome with
  | error e => exact ⟨nofun, fun ⟨⟨_, hfirst⟩, _⟩ => nomatch hfirst⟩
  | ok t₁ =>
    obtain rfl := h.eq_mark hok
    change (∃ t₁, (step' (t.mark marks)).outcome = .ok t₁) ↔ _
    rw [h' _ (plain_mark marks t)]
    cases (step' t).outcome with
    | error e => exact ⟨nofun, fun ⟨_, _, hsecond⟩ => nomatch hsecond⟩
    | ok t₂ => exact ⟨fun _ => ⟨⟨_, rfl⟩, _, rfl⟩, fun _ => ⟨_, rfl⟩⟩

namespace Distinct

variable (h : t.Distinct)

include h

theorem checkStmts_ok_iff {ss : List Stmt} :
    (∃ t₁, (t.checkStmts cx ss).outcome = .ok t₁) ↔ ∀ s ∈ ss, t.Accepts cx s := by
  induction ss with
  | nil => exact ⟨fun _ => List.forall_mem_nil _, fun _ => ⟨t, rfl⟩⟩
  | cons s ss ih =>
    rw [List.forall_mem_cons, ← ih]
    exact (h.blind_checkStmt cx s).bind_ok_iff (h.blind_checkStmts cx ss)

theorem accepts_ifElse_iff {condition : Expr} {thenBranch elseBranch : Stmt} :
    t.Accepts cx (.ifElse condition thenBranch elseBranch) ↔
      (t.checkCondition cx .ifElse condition).outcome = .ok () ∧
        t.Accepts cx thenBranch ∧ t.Accepts cx elseBranch := by
  have hbranches := (h.blind_checkStmt cx thenBranch).bind_ok_iff (h.blind_checkStmt cx elseBranch)
  unfold Accepts
  rw [← hbranches]
  constructor
  · rintro ⟨t₁, ht₁⟩
    obtain ⟨⟨⟩, hcondition, hrest⟩ := Logged.bind_ok.1 ht₁
    exact ⟨hcondition, t₁, hrest⟩
  · rintro ⟨hcondition, t₁, hrest⟩
    exact ⟨t₁, Logged.bind_ok.2 ⟨(), hcondition, hrest⟩⟩

end Distinct

theorem checkCondition_of_ok {statement : Conditional} {condition : Expr}
    (h : (t.typeOf cx condition).outcome = .ok .boolean) :
    (t.checkCondition cx statement condition).outcome = .ok () :=
  Logged.bind_ok.2 ⟨.boolean, h, rfl⟩

theorem target_of_resolve {name : Ident} {r : Resolved} (h : t.resolve cx name.name = some r) :
    (t.target cx name).outcome = .ok r := by
  rw [outcome_target, h]

end ClassTable

theorem Stmt.mem_targetsOfAll {name : String} {ss : List Stmt} :
    name ∈ targetsOfAll ss ↔ ∃ s ∈ ss, name ∈ s.targets := by
  induction ss with
  | nil => simp [targetsOfAll]
  | cons s ss ih => simp [targetsOfAll, ih]

namespace ClassTable.Narrows

variable {t t' : ClassTable} {changed : Place → String → Prop} {p : Program} {cx : Context}

/-- The statement assigns to none of the variables whose types are narrower now. -/
def Spares (t : ClassTable) (changed : Place → String → Prop) (cx : Context) (s : Stmt) : Prop :=
  ∀ name ∈ s.targets, ∀ r, t.resolve cx name = some r → ¬ changed r.place name

theorem accepts_assign (h : t.Narrows t' changed) (hin : p.DeclaredIn t) {name : Ident} {value : Expr}
    (hspares : Spares t changed cx (.assign name value)) (hok : t.Accepts cx (.assign name value)) :
    t'.Accepts cx (.assign name value) := by
  obtain ⟨t₁, ht₁⟩ := hok
  obtain ⟨r, found, hr, hfound, hassign, -⟩ := checkAssign_ok ht₁
  obtain ⟨r', hr', -, hsame⟩ := h.resolved cx name.name r hr
  have htype : r'.type = r.type :=
    hsame.resolve_left (hspares name.name (List.mem_singleton.2 rfl) r hr)
  obtain ⟨found', hfound', hconforms⟩ := h.keeps hin value found hfound
  have hfits : t.Conforms r.type (found'.resolveSelf cx.className) :=
    (hin.ordered.isAssignable_iff.1 hassign).trans (hconforms.resolveSelf _)
  refine ⟨t'.markInitialized r'.place name.name, ?_⟩
  refine Logged.bind_ok.2 ⟨r', target_of_resolve hr', Logged.bind_ok.2 ⟨found', hfound', ?_⟩⟩
  dsimp only
  rw [h.links.isAssignable_eq, htype, if_pos (hin.ordered.isAssignable_iff.2 hfits)]
  rfl

theorem accepts_arrayAssign (h : t.Narrows t' changed) (hin : p.DeclaredIn t) {name : Ident}
    {position value : Expr} (hok : t.Accepts cx (.arrayAssign name position value)) :
    t'.Accepts cx (.arrayAssign name position value) := by
  obtain ⟨t₁, ht₁⟩ := hok
  obtain ⟨⟨⟩, hchecked, -⟩ := Logged.bind_ok.1 ht₁
  obtain ⟨⟨r, hr, htype⟩, hposition, hvalue⟩ := checkArrayAssign_ok hchecked
  obtain ⟨r', hr', hconforms, -⟩ := h.resolved cx name.name r hr
  rw [htype] at hconforms
  have htype' : r'.type = .intArray := hconforms.eq_of_not_object (by simp)
  have hposition' := (h.keeps hin position).outcome hposition (by simp)
  have hvalue' := (h.keeps hin value).outcome hvalue (by simp)
  refine ⟨t', Logged.bind_ok.2 ⟨(), ?_, rfl⟩⟩
  refine Logged.bind_ok.2 ⟨r', target_of_resolve hr', ?_⟩
  rw [if_neg (by simp [htype'])]
  refine Logged.bind_ok.2 ⟨.int, hposition', ?_⟩
  rw [if_neg (by simp)]
  exact Logged.bind_ok.2 ⟨.int, hvalue', rfl⟩

theorem accepts (h : t.Narrows t' changed) (hin : p.DeclaredIn t) (hdistinct : t.Distinct)
    (hdistinct' : t'.Distinct) {s : Stmt} (hspares : Spares t changed cx s) (hok : t.Accepts cx s) :
    t'.Accepts cx s := by
  have hcondition : ∀ statement condition,
      (t.checkCondition cx statement condition).outcome = .ok () →
        (t'.checkCondition cx statement condition).outcome = .ok () := fun _ condition hboolean =>
    checkCondition_of_ok ((h.keeps hin condition).outcome (checkCondition_ok hboolean) (by simp))
  induction s with
  | block body ih =>
    refine hdistinct'.checkStmts_ok_iff.2 fun s hs => ?_
    apply ih s hs
    · exact fun name hname => hspares name (Stmt.mem_targetsOfAll.2 ⟨s, hs, hname⟩)
    · exact hdistinct.checkStmts_ok_iff.1 hok s hs
  | assign target value => exact h.accepts_assign hin hspares hok
  | arrayAssign target position value => exact h.accepts_arrayAssign hin hok
  | ifElse condition thenBranch elseBranch iht ihe =>
    obtain ⟨hboolean, hthen, helse⟩ := hdistinct.accepts_ifElse_iff.1 hok
    refine hdistinct'.accepts_ifElse_iff.2 ⟨hcondition _ _ hboolean, ?_, ?_⟩
    · exact iht (fun name hname => hspares name (List.mem_append_left _ hname)) hthen
    · exact ihe (fun name hname => hspares name (List.mem_append_right _ hname)) helse
  | loop condition body ih =>
    obtain ⟨t₁, ht₁⟩ := hok
    obtain ⟨⟨⟩, hboolean, hbody⟩ := Logged.bind_ok.1 ht₁
    obtain ⟨t₂, ht₂⟩ := ih hspares ⟨t₁, hbody⟩
    exact ⟨t₂, Logged.bind_ok.2 ⟨(), hcondition _ _ hboolean, ht₂⟩⟩
  | print value =>
    obtain ⟨t₁, ht₁⟩ := hok
    obtain ⟨found, hfound, -⟩ := Logged.bind_ok.1 ht₁
    obtain ⟨found', hfound', -⟩ := h.keeps hin value found hfound
    exact ⟨t', Logged.bind_ok.2 ⟨found', hfound', rfl⟩⟩

end ClassTable.Narrows

/-! ## Narrowing one variable -/

namespace ClassTable

variable {t : ClassTable} {place : Place} {name : String}

theorem Distinct.narrows_retype (h : t.Distinct) {wide narrow : String} (hv : t.Declares place name (.object wide))
    (hdesc : t.Descends narrow wide) :
    t.Narrows (t.retype place name (.object narrow)) fun p n => p = place ∧ n = name where
  links := t.sameLinks_retype place name _
  signatures := h.signature_retype hv _
  unknown := by
    intro cx n hnone
    have hsearch := h.map_place_type_resolve_retype place name (.object narrow) cx n
    rwa [hnone, Option.map_none, Option.map_eq_none_iff] at hsearch
  resolved := by
    intro cx n r hr
    have hsearch := h.map_place_type_resolve_retype place name (.object narrow) cx n
    rw [hr, Option.map_some] at hsearch
    obtain ⟨r', hr', heq⟩ := Option.map_eq_some_iff.1 hsearch
    obtain ⟨-, htype⟩ := Prod.mk.inj heq
    refine ⟨r', hr', ?_⟩
    by_cases hchanged : r.place = place ∧ n = name
    · obtain ⟨rfl, rfl⟩ := hchanged
      rw [if_pos ⟨rfl, rfl⟩] at htype
      -- What is found at the place has the type that is to be narrowed.
      obtain ⟨v, hfound, hvtype⟩ := variableAt?_of_resolve hr
      obtain ⟨w, hw, hwide⟩ := h.variableAt?_of_declares hv
      obtain rfl := Option.some.inj (hfound.symm.trans hw)
      rw [htype, ← hvtype, hwide]
      exact ⟨.inr ⟨wide, narrow, rfl, rfl, hdesc⟩, .inl ⟨rfl, rfl⟩⟩
    · rw [if_neg hchanged] at htype
      rw [htype]
      exact ⟨.refl t _, .inr rfl⟩

end ClassTable

/-- Give a field or a local variable of a program, declared with a class for its type, a subclass
instead. Expressions still have types, which can stand for the old ones, and statements that do not assign
to the variable are still accepted. -/
theorem Program.narrowing {p : Program} {t₀ t : ClassTable}
    (h₀ : p.declareClasses.outcome = .ok t₀) (h : (p.declareMembers t₀).outcome = .ok t)
    {place : Place} {name wide narrow : String} (hv : t.Declares place name (.object wide))
    (hsub : t.isSubclass narrow wide = true) (cx : Context) :
    (∀ e ty, (t.typeOf cx e).outcome = .ok ty →
      ∃ ty', ((t.retype place name (.object narrow)).typeOf cx e).outcome = .ok ty' ∧
        t.isAssignable ty ty' = true) ∧
      ∀ s : Stmt, (name ∈ s.targets → ∀ r, t.resolve cx name = some r → r.place ≠ place) →
        (∃ t₁, (t.checkStmt cx s).outcome = .ok t₁) →
          ∃ t₁, ((t.retype place name (.object narrow)).checkStmt cx s).outcome = .ok t₁ := by
  have hin := Program.declaredIn_declareMembers h₀ h
  have hdistinct := Program.distinct_declareMembers h₀ h
  have hnarrows := hdistinct.narrows_retype hv (hin.ordered.isSubclass_iff.1 hsub)
  constructor
  · intro e ty he
    obtain ⟨ty', he', hconforms⟩ := hnarrows.keeps hin e ty he
    exact ⟨ty', he', hin.ordered.isAssignable_iff.2 hconforms⟩
  · intro s hspares hok
    refine hnarrows.accepts hin hdistinct (hdistinct.retype place name _) ?_ hok
    rintro n hn r hr ⟨hplace, rfl⟩
    exact hspares hn r hr hplace

/-- `B` overrides `meet`. In `U.g` the local `a` is the receiver and the argument of a call. -/
def metHere : Program :=
  let here : Span := ⟨0, 0⟩
  let name (text : String) : Ident := ⟨text, here⟩
  let object (type text : String) : VarDecl := ⟨⟨.named type, here⟩, name text⟩
  let method (text : String) (params locals : List VarDecl) (body : List Stmt) (returned : Expr) :
      MethodDecl :=
    { returnType := ⟨.named "A", here⟩, name := name text, params, locals, body, returned }
  let meet := method "meet" [object "A" "other"] [] [] (.ident here "other")
  { main := { name := name "M", args := name "args", locals := [], body := [] }
    classes :=
      [{ name := name "A", superclass := none, fields := [], methods := [meet] },
        { name := name "B", superclass := some (name "A"), fields := [], methods := [meet] },
        { name := name "U", superclass := none, fields := [],
          methods := [method "g" [] [object "A" "a", object "A" "b"] [] (.ident here "a")] }] }

/-- The call `a.meet(a)`. -/
def meetSelf : Expr :=
  let here : Span := ⟨0, 0⟩
  .call here (.ident here "a") ⟨"meet", here⟩ [.ident here "a"]

theorem Program.narrowing_metHere :
    ∃ t₀ t, metHere.declareClasses.outcome = .ok t₀ ∧ (metHere.declareMembers t₀).outcome = .ok t ∧
      t.Declares (.inMethod "U" "g") "a" (.object "A") ∧ t.isSubclass "B" "A" = true ∧
      (t.typeOf ⟨"U", "g"⟩ meetSelf).outcome = .ok (.object "A") ∧
      (∃ ty', ((t.retype (.inMethod "U" "g") "a" (.object "B")).typeOf ⟨"U", "g"⟩ meetSelf).outcome =
          .ok ty' ∧ t.isAssignable (.object "A") ty' = true) ∧
      (∃ t₁, (t.checkStmt ⟨"U", "g"⟩ (.assign ⟨"b", ⟨0, 0⟩⟩ meetSelf)).outcome = .ok t₁) ∧
      ∃ t₁, ((t.retype (.inMethod "U" "g") "a" (.object "B")).checkStmt ⟨"U", "g"⟩
        (.assign ⟨"b", ⟨0, 0⟩⟩ meetSelf)).outcome = .ok t₁ := by
  have hrun : (metHere.declareClasses.outcome.toOption.any fun t₀ =>
      (metHere.declareMembers t₀).outcome.toOption.any fun t =>
        t.isSubclass "B" "A" && ((t.typeOf ⟨"U", "g"⟩ meetSelf).outcome.toOption.any (· == .object "A") &&
          (t.checkStmt ⟨"U", "g"⟩ (.assign ⟨"b", ⟨0, 0⟩⟩ meetSelf)).outcome.isOk)) = true := by
    decide +kernel
  obtain ⟨t₀, h₀, hrest⟩ := Outcome.any_toOption_iff.1 hrun
  obtain ⟨t, h, hlast⟩ := Outcome.any_toOption_iff.1 hrest
  simp only [Bool.and_eq_true, Outcome.isOk_iff, Outcome.any_toOption_iff] at hlast
  obtain ⟨hsub, ⟨ty, hty, hobject⟩, hok⟩ := hlast
  obtain rfl := beq_iff_eq.1 hobject
  have hclass : t.get? "U" = some _ :=
    ((Program.declaredIn_declareMembers h₀ h).classes _ (.tail _ (.tail _ (.head _)))).1
  have hv : t.Declares (.inMethod "U" "g") "a" (.object "A") :=
    ⟨_, hclass, _, .head _, rfl, _, .head _, rfl, rfl⟩
  obtain ⟨htypes, hstmts⟩ := Program.narrowing h₀ h hv hsub ⟨"U", "g"⟩
  refine ⟨t₀, t, h₀, h, hv, hsub, hty, htypes _ _ hty, hok, hstmts _ (fun hmem => ?_) hok⟩
  exact absurd hmem (by decide)

end ClassCheck
