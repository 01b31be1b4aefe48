import ClassCheck.Proofs.ClassTable.Lookup
import ClassCheck.Proofs.Program.Trees
import ClassCheck.Proofs.Typing.Accepted
import ClassCheck.Proofs.Typing.Grounded

/-!
# Typing rules

The rules give `this` the type of the class in which it stands. The check gives it a type of its own,
and puts the class in its place for receivers and arguments only: operands are compared as they are. All
the same both give an expression the same type, because no operand may be an object.
-/

namespace ClassCheck

/-- Whether an expression is `this`, in parentheses or not. -/
def Expr.isThis : Expr → Bool
  | .this _ => true
  | .paren _ inner => inner.isThis
  | _ => false

namespace ClassTable

variable {t : ClassTable} {cx : Context} {e : Expr} {ty : Ty}

/-! ## The rules -/

mutual
/-- In a method, an expression has a type. A name that means no variable is taken for the name of a
class, and without arguments it does not matter how many parameters there are. -/
inductive HasType (t : ClassTable) (cx : Context) : Expr → Ty → Prop
  | int {span value} : HasType t cx (.int span value) .int
  | bool {span value} : HasType t cx (.bool span value) .boolean
  | name {span name v} : t.Means cx name v → HasType t cx (.ident span name) v.type
  | className {span name} : (∀ v, ¬ t.Means cx name v) →
      HasType t cx (.ident span name) (.object name)
  | this {span} : HasType t cx (.this span) (.object cx.className)
  | paren {span inner ty} : HasType t cx inner ty → HasType t cx (.paren span inner) ty
  | and {span left right} : HasType t cx left .boolean → HasType t cx right .boolean →
      HasType t cx (.binary span .and left right) .boolean
  | less {span left right} : HasType t cx left .int → HasType t cx right .int →
      HasType t cx (.binary span .less left right) .boolean
  | arithmetic {span op left right} : op = .add ∨ op = .sub ∨ op = .mul →
      HasType t cx left .int → HasType t cx right .int → HasType t cx (.binary span op left right) .int
  | not {span operand} : HasType t cx operand .boolean → HasType t cx (.not span operand) .boolean
  | length {span array} : HasType t cx array .intArray → HasType t cx (.length span array) .int
  | index {span array position} : HasType t cx array .intArray → HasType t cx position .int →
      HasType t cx (.index span array position) .int
  | newArray {span size} : HasType t cx size .int → HasType t cx (.newArray span size) .intArray
  | newObject {span className} : t.contains className.name = true →
      HasType t cx (.newObject span className) (.object className.name)
  | bareCall {span receiver className method m} : HasType t cx receiver (.object className) →
      t.MethodOf className method.name m →
      HasType t cx (.call span receiver method []) m.returnType
  | call {span receiver className method m arg args} : HasType t cx receiver (.object className) →
      t.MethodOf className method.name m → Fits t cx (arg :: args) m.params →
      HasType t cx (.call span receiver method (arg :: args)) m.returnType

/-- There is an argument for each parameter, of a type that can stand for the parameter's. -/
inductive Fits (t : ClassTable) (cx : Context) : List Expr → List Variable → Prop
  | nil : Fits t cx [] []
  | cons {arg args param params ty} : HasType t cx arg ty → t.Conforms param.type ty →
      Fits t cx args params → Fits t cx (arg :: args) (param :: params)
end

/-! ## Tables in which nothing is declared with the type of `this` -/

structure SelfFree (t : ClassTable) : Prop where
  ordered : t.Ordered
  distinct : t.Distinct
  members : ∀ name c, t.get? name = some c → (∀ v ∈ c.fields, v.type ≠ .self) ∧
    ∀ m ∈ c.methods, m.returnType ≠ .self ∧ ∀ v ∈ m.params ++ m.locals, v.type ≠ .self

theorem Nearest.exists {α : Type} {has : ClassInfo → α → Prop} {name : String} {a : α}
    (h : t.Nearest has name a) : ∃ other c, t.get? other = some c ∧ has c a := by
  induction h with
  | own hc ha => exact ⟨_, _, hc, ha⟩
  | inherited _ _ _ _ ih => exact ih

namespace SelfFree

theorem of_methodOf (h : t.SelfFree) {className method : String} {m : MethodInfo}
    (hm : t.MethodOf className method m) : m.returnType ≠ .self := by
  obtain ⟨other, c, hc, hmem, -⟩ := hm.exists
  exact ((h.members other c hc).2 m hmem).1

theorem means (h : t.SelfFree) {name : String} {found : Resolved}
    (hfound : t.resolve cx name = some found) : ∃ v, t.Means cx name v ∧ v.type = found.type := by
  rw [← h.ordered.resolve_iff h.distinct, hfound, Option.map_some]

theorem of_means (h : t.SelfFree) {name : String} {v : Variable} (hv : t.Means cx name v) :
    v.type ≠ .self := by
  rcases hv with ⟨c, m, hc, ⟨hm, -⟩, hv, -⟩ | ⟨-, hfield⟩
  · exact ((h.members _ c hc).2 m hm).2 v hv
  · obtain ⟨other, c, hc, hmem, -⟩ := hfield.exists
    exact (h.members other c hc).1 v hmem

end SelfFree

theorem HasType.ne_self (h : t.SelfFree) (he : t.HasType cx e ty) : ty ≠ .self := by
  induction e generalizing ty with
  | paren span inner ih =>
    cases he with
    | paren hinner => exact ih hinner
  | ident span name =>
    cases he with
    | name hv => exact h.of_means hv
    | className _ => exact nofun
  | call span receiver method args =>
    cases he with
    | bareCall _ hm | call _ hm _ => exact h.of_methodOf hm
  | int | bool | this | binary | not | index | length | newArray | newObject => cases he <;> exact nofun

/-! ## What the check finds follows from the rules -/

theorem resolveSelf_of_ne {className : String} (h : ty ≠ .self) : ty.resolveSelf className = ty := by
  cases ty with
  | self => exact absurd rfl h
  | int | boolean | intArray | object | void | stringArray => rfl

theorem hasType_binary {span : Span} {op : BinaryOp} {left right : Expr}
    (hleft : t.HasType cx left (binaryTypes op).1) (hright : t.HasType cx right (binaryTypes op).1) :
    t.HasType cx (.binary span op left right) (binaryTypes op).2 := by
  cases op with
  | and => exact .and hleft hright
  | less => exact .less hleft hright
  | add => exact .arithmetic (.inl rfl) hleft hright
  | sub => exact .arithmetic (.inr (.inl rfl)) hleft hright
  | mul => exact .arithmetic (.inr (.inr rfl)) hleft hright

theorem SelfFree.fits (h : t.SelfFree) {method : String} {params : List Variable} {args : List Expr}
    {types : List Ty}
    (hargs : ∀ arg ∈ args, ∀ {ty}, (t.typeOf cx arg).outcome = .ok ty →
      t.HasType cx arg (ty.resolveSelf cx.className))
    (htypes : (t.typesOf cx args).outcome = .ok types) (hlen : types.length = params.length)
    (herror : t.argumentError? method params types args = none) : t.Fits cx args params := by
  induction args generalizing types params with
  | nil =>
    obtain rfl := Logged.pure_ok.1 htypes
    obtain rfl := List.eq_nil_of_length_eq_zero hlen.symm
    exact .nil
  | cons arg args ih =>
    obtain ⟨ty, rest, hty, hrest, rfl⟩ := typesOf_cons_ok htypes
    obtain ⟨param, params, rfl⟩ := List.exists_cons_of_length_eq_add_one hlen.symm
    rw [List.forall_mem_cons] at hargs
    unfold argumentError? at herror
    split at herror
    · next ha =>
      exact .cons (hargs.1 hty) (h.ordered.isAssignable_iff.1 ha)
        (ih hargs.2 hrest (by simpa using hlen) herror)
    · cases herror

theorem SelfFree.hasType (h : t.SelfFree) (he : (t.typeOf cx e).outcome = .ok ty) :
    t.HasType cx e (ty.resolveSelf cx.className) := by
  induction e generalizing ty with
  | int =>
    obtain rfl := Logged.pure_ok.1 he
    exact .int
  | bool =>
    obtain rfl := Logged.pure_ok.1 he
    exact .bool
  | this =>
    obtain rfl := Logged.pure_ok.1 he
    exact .this
  | ident span name =>
    rcases typeOf_ident_ok he with ⟨found, hfound, rfl⟩ | ⟨hnone, rfl⟩
    · obtain ⟨v, hv, htype⟩ := h.means hfound
      rw [← htype, resolveSelf_of_ne (h.of_means hv)]
      exact .name hv
    · exact .className ((h.ordered.resolve_eq_none_iff h.distinct).1 hnone)
  | paren span inner ih => exact .paren (ih he)
  | binary span op left right ihl ihr =>
    obtain ⟨hleft, hright, rfl⟩ := typeOf_binary_ok he
    have hoperand : (binaryTypes op).1 ≠ .self := by cases op <;> exact nofun
    have hresult : (binaryTypes op).2 ≠ .self := by cases op <;> exact nofun
    have hleft := ihl hleft
    have hright := ihr hright
    rw [resolveSelf_of_ne hoperand] at hleft hright
    rw [resolveSelf_of_ne hresult]
    exact hasType_binary hleft hright
  | not span operand ih =>
    unfold ClassTable.typeOf at he
    obtain ⟨hoperand, rfl⟩ := unaryType_ok he
    exact .not (ih hoperand)
  | length span array ih =>
    unfold ClassTable.typeOf at he
    obtain ⟨harray, rfl⟩ := unaryType_ok he
    exact .length (ih harray)
  | newArray span size ih =>
    unfold ClassTable.typeOf at he
    obtain ⟨hsize, rfl⟩ := unaryType_ok he
    exact .newArray (ih hsize)
  | index span array position iha ihp =>
    obtain ⟨harray, hposition, rfl⟩ := typeOf_index_ok he
    exact .index (iha harray) (ihp hposition)
  | newObject span className =>
    obtain ⟨hc, rfl⟩ := typeOf_newObject_ok he
    exact .newObject hc
  | call span receiver method args ihr ihs =>
    obtain ⟨receiverType, className, m, hreceiver, hclass, -, hmethod, rfl, hargs⟩ := typeOf_call_ok he
    have hm := (h.ordered.method?_iff h.distinct).1 hmethod
    have hself := ihr hreceiver
    rw [hclass] at hself
    rw [resolveSelf_of_ne (h.of_methodOf hm)]
    cases args with
    | nil => exact .bareCall hself hm
    | cons arg args =>
      rcases hargs with hnil | ⟨types, htypes, hlen, herror⟩
      · cases hnil
      · exact .call hself hm (h.fits ihs htypes hlen herror)

/-! ## What follows from the rules the check finds -/

/-- The check gives the expression this type, once the class is put in the place of `this`. -/
def Finds (t : ClassTable) (cx : Context) (e : Expr) (ty : Ty) : Prop :=
  ∃ raw, (t.typeOf cx e).outcome = .ok raw ∧ raw.resolveSelf cx.className = ty

theorem Finds.outcome (h : t.Finds cx e ty) (hty : ∀ className, ty ≠ .object className) :
    (t.typeOf cx e).outcome = .ok ty := by
  obtain ⟨raw, hraw, rfl⟩ := h
  cases raw with
  | self => exact absurd rfl (hty _)
  | int | boolean | intArray | object | void | stringArray => exact hraw

theorem unaryType_of_ok {op : Operator} {expected result : Ty} {operand : Check Ty} {span : Span}
    (h : operand.outcome = .ok expected) :
    (operand >>= fun found => unaryType op expected result found span).outcome = .ok result := by
  refine Logged.bind_ok.2 ⟨expected, h, ?_⟩
  rw [unaryType, if_pos rfl]
  rfl

theorem typeOf_binary_of_ok {span : Span} {op : BinaryOp} {left right : Expr}
    (hleft : (t.typeOf cx left).outcome = .ok (binaryTypes op).1)
    (hright : (t.typeOf cx right).outcome = .ok (binaryTypes op).1) :
    (t.typeOf cx (.binary span op left right)).outcome = .ok (binaryTypes op).2 := by
  unfold typeOf
  refine Logged.bind_ok.2 ⟨_, hleft, Logged.bind_ok.2 ⟨_, hright, ?_⟩⟩
  dsimp only
  rw [if_pos ⟨rfl, rfl⟩]
  rfl

theorem SelfFree.typesOf (h : t.SelfFree) (method : String) {params : List Variable} {args : List Expr}
    (hargs : ∀ arg ∈ args, ∀ {ty}, t.HasType cx arg ty → t.Finds cx arg ty)
    (hfits : t.Fits cx args params) :
    ∃ types, (t.typesOf cx args).outcome = .ok types ∧ types.length = params.length ∧
      t.argumentError? method params types args = none := by
  induction args generalizing params with
  | nil =>
    cases hfits with
    | nil => exact ⟨[], rfl, rfl, rfl⟩
  | cons arg args ih =>
    rw [List.forall_mem_cons] at hargs
    cases hfits with
    | cons harg hconforms hrest =>
      obtain ⟨raw, hraw, rfl⟩ := hargs.1 harg
      obtain ⟨types, htypes, hlen, herror⟩ := ih hargs.2 hrest
      refine ⟨raw.resolveSelf cx.className :: types, ?_, congrArg (· + 1) hlen, ?_⟩
      · unfold ClassTable.typesOf
        exact Logged.bind_ok.2 ⟨raw, hraw, Logged.bind_ok.2 ⟨types, htypes, rfl⟩⟩
      · unfold argumentError?
        rwa [if_pos (h.ordered.isAssignable_iff.2 hconforms)]

theorem callee_of_method? {className : String} {method : Ident} {m : MethodInfo}
    (hm : t.method? className method.name = some m) (span : Span) :
    (t.callee (.object className) span method).outcome = .ok m := by
  obtain ⟨c, hc, -⟩ := Option.bind_eq_some_iff.1 hm
  have hcontains : t.contains className = true := by
    rw [contains, hc]
    rfl
  unfold callee
  simp only [hcontains, hm, if_true]
  rfl

theorem typeOf_call_of_ok {span : Span} {receiver : Expr} {method : Ident} {args : List Expr} {raw : Ty}
    {className : String} {m : MethodInfo} (hreceiver : (t.typeOf cx receiver).outcome = .ok raw)
    (hclass : raw.resolveSelf cx.className = .object className)
    (hm : t.method? className method.name = some m)
    (hargs : args = [] ∨ m.params ≠ [] ∧ ∃ types, (t.typesOf cx args).outcome = .ok types ∧
      types.length = m.params.length ∧ t.argumentError? m.name m.params types args = none) :
    (t.typeOf cx (.call span receiver method args)).outcome = .ok m.returnType := by
  unfold typeOf
  refine Logged.bind_ok.2 ⟨raw, hreceiver, Logged.bind_ok.2 ⟨m, ?_, ?_⟩⟩
  · rw [hclass]
    exact callee_of_method? hm _
  · rcases hargs with rfl | ⟨hparams, types, htypes, hlen, herror⟩
    · rfl
    · split
      · rfl
      · rw [if_neg (by simpa using hparams)]
        refine Logged.bind_ok.2 ⟨types, htypes, Logged.bind_ok.2 ⟨(), ?_, rfl⟩⟩
        simp [checkArguments, hlen, herror]

theorem SelfFree.finds_call (h : t.SelfFree) {span : Span} {receiver : Expr} {method : Ident}
    {args : List Expr} {className : String} {m : MethodInfo}
    (hreceiver : t.Finds cx receiver (.object className)) (hm : t.MethodOf className method.name m)
    (hargs : args = [] ∨ m.params ≠ [] ∧ ∃ types, (t.typesOf cx args).outcome = .ok types ∧
      types.length = m.params.length ∧ t.argumentError? m.name m.params types args = none) :
    t.Finds cx (.call span receiver method args) m.returnType := by
  obtain ⟨raw, hraw, hclass⟩ := hreceiver
  refine ⟨m.returnType, ?_, resolveSelf_of_ne (h.of_methodOf hm)⟩
  exact typeOf_call_of_ok hraw hclass ((h.ordered.method?_iff h.distinct).2 hm) hargs

theorem SelfFree.finds (h : t.SelfFree) (he : t.HasType cx e ty) : t.Finds cx e ty := by
  induction e generalizing ty with
  | int =>
    cases he
    exact ⟨.int, rfl, rfl⟩
  | bool =>
    cases he
    exact ⟨.boolean, rfl, rfl⟩
  | this =>
    cases he
    exact ⟨.self, rfl, rfl⟩
  | ident span name =>
    cases he with
    | @name _ _ v hv =>
      have hmap := (h.ordered.resolve_iff h.distinct).2 ⟨v, hv, rfl⟩
      obtain ⟨found, hfound, htype⟩ := Option.map_eq_some_iff.1 hmap
      refine ⟨v.type, ?_, resolveSelf_of_ne (h.of_means hv)⟩
      unfold ClassTable.typeOf
      rw [lookUp_bind_ok, hfound, ← htype]
      rfl
    | className hnone =>
      refine ⟨.object name, ?_, rfl⟩
      unfold ClassTable.typeOf
      rw [lookUp_bind_ok, (h.ordered.resolve_eq_none_iff h.distinct).2 hnone]
      rfl
  | paren span inner ih =>
    cases he with
    | paren hinner => exact ih hinner
  | binary span op left right ihl ihr =>
    have hoperands : t.HasType cx left (binaryTypes op).1 ∧ t.HasType cx right (binaryTypes op).1 ∧
        ty = (binaryTypes op).2 := by
      cases he with
      | and hleft hright | less hleft hright => exact ⟨hleft, hright, rfl⟩
      | arithmetic hop hleft hright =>
        rcases hop with rfl | rfl | rfl <;> exact ⟨hleft, hright, rfl⟩
    obtain ⟨hleft, hright, rfl⟩ := hoperands
    have hoperand : ∀ className, (binaryTypes op).1 ≠ .object className := by
      cases op <;> simp [binaryTypes]
    refine ⟨_, typeOf_binary_of_ok ((ihl hleft).outcome hoperand) ((ihr hright).outcome hoperand), ?_⟩
    cases op <;> rfl
  | not span operand ih =>
    cases he with
    | not hoperand => exact ⟨.boolean, unaryType_of_ok ((ih hoperand).outcome (by simp)), rfl⟩
  | length span array ih =>
    cases he with
    | length harray => exact ⟨.int, unaryType_of_ok ((ih harray).outcome (by simp)), rfl⟩
  | newArray span size ih =>
    cases he with
    | newArray hsize => exact ⟨.intArray, unaryType_of_ok ((ih hsize).outcome (by simp)), rfl⟩
  | index span array position iha ihp =>
    cases he with
    | index harray hposition =>
      refine ⟨.int, ?_, rfl⟩
      unfold ClassTable.typeOf
      refine Logged.bind_ok.2 ⟨.intArray, (iha harray).outcome (by simp), ?_⟩
      exact Logged.bind_ok.2 ⟨.int, (ihp hposition).outcome (by simp), rfl⟩
  | newObject span className =>
    cases he with
    | newObject hc =>
      refine ⟨.object className.name, ?_, rfl⟩
      unfold ClassTable.typeOf
      rw [if_pos hc]
      rfl
  | call span receiver method args ihr ihs =>
    cases he with
    | bareCall hreceiver hm => exact h.finds_call (ihr hreceiver) hm (.inl rfl)
    | @call _ _ _ _ m _ _ hreceiver hm hfits =>
      have hparams : m.params ≠ [] := by
        intro hnil
        rw [hnil] at hfits
        cases hfits
      exact h.finds_call (ihr hreceiver) hm (.inr ⟨hparams, h.typesOf _ ihs hfits⟩)

/-! ## The type of `this` -/

theorem SelfFree.isThis (h : t.SelfFree) (he : (t.typeOf cx e).outcome = .ok .self) :
    e.isThis = true := by
  induction e with
  | this => rfl
  | paren span inner ih => exact ih he
  | int | bool => cases Logged.pure_ok.1 he
  | ident span name =>
    rcases typeOf_ident_ok he with ⟨found, hfound, htype⟩ | ⟨-, htype⟩
    · obtain ⟨v, hv, hvtype⟩ := h.means hfound
      exact absurd (hvtype.trans htype.symm) (h.of_means hv)
    · cases htype
  | binary span op left right =>
    obtain ⟨-, -, htype⟩ := typeOf_binary_ok he
    cases op <;> cases htype
  | not | length | newArray =>
    unfold ClassTable.typeOf at he
    cases (unaryType_ok he).2
  | index => cases (typeOf_index_ok he).2.2
  | newObject => cases (typeOf_newObject_ok he).2
  | call span receiver method args =>
    obtain ⟨_, _, m, _, _, _, hmethod, htype, _⟩ := typeOf_call_ok he
    exact absurd htype.symm (h.of_methodOf ((h.ordered.method?_iff h.distinct).1 hmethod))

theorem typeOf_of_isThis (he : e.isThis = true) : (t.typeOf cx e).outcome = .ok .self := by
  induction e with
  | this => rfl
  | paren span inner ih => exact ih he
  | int | bool | ident | binary | not | index | length | call | newArray | newObject => cases he

end ClassTable

theorem Program.selfFree_declareMembers {p : Program} {t₀ t : ClassTable}
    (h₀ : p.declareClasses.outcome = .ok t₀) (h : (p.declareMembers t₀).outcome = .ok t) :
    t.SelfFree := by
  have hin := Program.declaredIn_declareMembers h₀ h
  refine ⟨hin.ordered, Program.distinct_declareMembers h₀ h, fun name c hc => ?_⟩
  have hknown : ∀ ty, t.isKnownType ty = true → ty ≠ .self := by
    rintro ty hty rfl
    simp [ClassTable.isKnownType, hin.ordered.types] at hty
  exact Program.DeclaredIn.types_members hknown (by simp) (by simp) hin hc

/-- The check finds the types that the rules give, once the class is put in the place of `this`. It
finds the type of `this` itself for `this` only, and the rules never give it. -/
theorem Program.typeOf_iff_hasType {p : Program} {t₀ t : ClassTable}
    (h₀ : p.declareClasses.outcome = .ok t₀) (h : (p.declareMembers t₀).outcome = .ok t)
    (cx : Context) (e : Expr) :
    (∀ ty, (t.typeOf cx e).outcome.map (·.resolveSelf cx.className) = .ok ty ↔ t.HasType cx e ty) ∧
      ((t.typeOf cx e).outcome = .ok .self ↔ e.isThis = true) ∧
      ∀ ty, t.HasType cx e ty → ty ≠ .self := by
  have hfree := Program.selfFree_declareMembers h₀ h
  refine ⟨fun ty => ?_, ⟨hfree.isThis, ClassTable.typeOf_of_isThis⟩, fun ty hty => hty.ne_self hfree⟩
  have hmap : (t.typeOf cx e).outcome.map (·.resolveSelf cx.className) = .ok ty ↔
      t.Finds cx e ty := by
    unfold ClassTable.Finds
    cases (t.typeOf cx e).outcome <;> simp [Except.map]
  rw [hmap]
  constructor
  · rintro ⟨raw, hraw, rfl⟩
    exact hfree.hasType hraw
  · exact hfree.finds

/-- The call `this.f((this))`. -/
def callOnThis : Expr :=
  let here : Span := ⟨0, 0⟩
  .call here (.this here) ⟨"f", here⟩ [.paren here (.this here)]

/-- The class `B` inherits `f`, which takes objects of the class above. -/
def passedThis : Program :=
  let here : Span := ⟨0, 0⟩
  let name (text : String) : Ident := ⟨text, here⟩
  let method (text : String) (params : List VarDecl) (returned : Expr) : MethodDecl :=
    { returnType := ⟨.int, here⟩, name := name text, params, locals := [], body := [], returned }
  { main := { name := name "M", args := name "args", locals := [], body := [] }
    classes :=
      [{ name := name "A", superclass := none, fields := [],
          methods := [method "f" [⟨⟨.named "A", here⟩, name "a"⟩] (.int here 0)] },
        { name := name "B", superclass := some (name "A"), fields := [],
          methods := [method "g" [] callOnThis] }] }

theorem Program.typeOf_iff_hasType_passedThis :
    ∃ t₀ t, passedThis.declareClasses.outcome = .ok t₀ ∧
      (passedThis.declareMembers t₀).outcome = .ok t ∧ t.HasType ⟨"B", "g"⟩ callOnThis .int ∧
      (t.typeOf ⟨"B", "g"⟩ callOnThis).outcome ≠ .ok .self := by
  have hrun : (passedThis.declareClasses.outcome.toOption.any fun t₀ =>
      (passedThis.declareMembers t₀).outcome.toOption.any fun t =>
        (t.typeOf ⟨"B", "g"⟩ callOnThis).outcome.toOption.any (· == .int)) = true := by
    decide +kernel
  obtain ⟨t₀, h₀, hrest⟩ := Outcome.any_toOption_iff.1 hrun
  obtain ⟨t, h, htyped⟩ := Outcome.any_toOption_iff.1 hrest
  obtain ⟨ty, hty, hint⟩ := Outcome.any_toOption_iff.1 htyped
  obtain rfl := beq_iff_eq.1 hint
  obtain ⟨htypes, hself, -⟩ := Program.typeOf_iff_hasType h₀ h ⟨"B", "g"⟩ callOnThis
  refine ⟨t₀, t, h₀, h, (htypes .int).1 ?_, fun heq => ?_⟩
  · rw [hty]
    rfl
  · cases hself.1 heq

end ClassCheck
