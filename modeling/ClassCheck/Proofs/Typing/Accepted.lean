import ClassCheck.Proofs.Outcome
import ClassCheck.Typing

/-!
# What is known of what was accepted

One statement for each step of a check: what it means that the step found no error.
-/

namespace ClassCheck

namespace ClassTable

variable {t t' : ClassTable} {cx : Context} {ty : Ty} {span : Span}

/-! ## Names -/

theorem lookUp_bind_ok {α : Type} {name : String} {f : Option Resolved → Check α} {a : α} :
    (t.lookUp cx name >>= f).outcome = .ok a ↔ (f (t.resolve cx name)).outcome = .ok a := by
  rw [Logged.bind_ok]
  unfold lookUp
  constructor
  · rintro ⟨found, hfound, h⟩
    rw [Logged.record_bind_ok] at hfound
    rwa [Logged.pure_ok.1 hfound]
  · intro h
    refine ⟨_, ?_, h⟩
    rw [Logged.record_bind_ok]
    rfl

theorem target_ok {name : Ident} {found : Resolved} (h : (t.target cx name).outcome = .ok found) :
    t.resolve cx name.name = some found := by
  unfold target at h
  rw [lookUp_bind_ok] at h
  cases hr : t.resolve cx name.name with
  | none =>
    rw [hr] at h
    exact (Logged.fail_ne_ok h).elim
  | some r =>
    rw [hr] at h
    rw [Logged.pure_ok.1 h]

/-! ## Expressions -/

theorem typeOf_ident_ok {name : String} (h : (t.typeOf cx (.ident span name)).outcome = .ok ty) :
    (∃ found, t.resolve cx name = some found ∧ ty = found.type) ∨
      t.resolve cx name = none ∧ ty = .object name := by
  unfold typeOf at h
  rw [lookUp_bind_ok] at h
  cases hr : t.resolve cx name with
  | some found =>
    rw [hr] at h
    exact .inl ⟨found, rfl, (Logged.pure_ok.1 h).symm⟩
  | none =>
    rw [hr] at h
    exact .inr ⟨rfl, (Logged.pure_ok.1 h).symm⟩

theorem typeOf_binary_ok {op : BinaryOp} {left right : Expr}
    (h : (t.typeOf cx (.binary span op left right)).outcome = .ok ty) :
    (t.typeOf cx left).outcome = .ok (binaryTypes op).1 ∧
      (t.typeOf cx right).outcome = .ok (binaryTypes op).1 ∧ ty = (binaryTypes op).2 := by
  unfold typeOf at h
  obtain ⟨leftType, hleft, hthen⟩ := Logged.bind_ok.1 h
  obtain ⟨rightType, hright, hresult⟩ := Logged.bind_ok.1 hthen
  dsimp only at hresult
  split at hresult
  · next htypes =>
    obtain ⟨rfl, rfl⟩ := htypes
    exact ⟨hleft, hright, (Logged.pure_ok.1 hresult).symm⟩
  · exact (Logged.fail_ne_ok hresult).elim

theorem unaryType_ok {op : Operator} {expected result : Ty} {operand : Check Ty}
    (h : (operand >>= fun found => unaryType op expected result found span).outcome = .ok ty) :
    operand.outcome = .ok expected ∧ ty = result := by
  obtain ⟨found, hfound, hresult⟩ := Logged.bind_ok.1 h
  unfold unaryType at hresult
  split at hresult
  · next hexpected =>
    subst hexpected
    exact ⟨hfound, (Logged.pure_ok.1 hresult).symm⟩
  · exact (Logged.fail_ne_ok hresult).elim

theorem typeOf_index_ok {array position : Expr}
    (h : (t.typeOf cx (.index span array position)).outcome = .ok ty) :
    (t.typeOf cx array).outcome = .ok .intArray ∧ (t.typeOf cx position).outcome = .ok .int ∧
      ty = .int := by
  unfold typeOf at h
  obtain ⟨arrayType, harray, hthen⟩ := Logged.bind_ok.1 h
  obtain ⟨positionType, hposition, hresult⟩ := Logged.bind_ok.1 hthen
  split at hresult
  · next htypes =>
    obtain ⟨rfl, rfl⟩ := htypes
    exact ⟨harray, hposition, (Logged.pure_ok.1 hresult).symm⟩
  · exact (Logged.fail_ne_ok hresult).elim

theorem typeOf_newObject_ok {className : Ident}
    (h : (t.typeOf cx (.newObject span className)).outcome = .ok ty) :
    t.contains className.name = true ∧ ty = .object className.name := by
  unfold typeOf at h
  split at h
  · next hc => exact ⟨hc, (Logged.pure_ok.1 h).symm⟩
  · exact (Logged.fail_ne_ok h).elim

theorem callee_ok {receiver : Ty} {method : Ident} {m : MethodInfo}
    (h : (t.callee receiver span method).outcome = .ok m) :
    ∃ className, receiver = .object className ∧ t.contains className = true ∧
      t.method? className method.name = some m := by
  unfold callee at h
  split at h
  · next className =>
    split at h
    · next hc =>
      split at h
      · next m' hm => exact ⟨className, rfl, hc, by rw [hm, Logged.pure_ok.1 h]⟩
      · exact (Logged.fail_ne_ok h).elim
    · exact (Logged.fail_ne_ok h).elim
  · exact (Logged.fail_ne_ok h).elim

theorem checkArguments_ok {m : MethodInfo} {args : List Expr} {types : List Ty}
    (h : (t.checkArguments m span args types).outcome = .ok ()) :
    types.length = m.params.length ∧ t.argumentError? m.name m.params types args = none := by
  unfold checkArguments at h
  split at h
  · exact (Logged.fail_ne_ok h).elim
  · next hlen =>
    split at h
    · exact (Logged.fail_ne_ok h).elim
    · next hnone => exact ⟨Decidable.not_not.1 hlen, hnone⟩

/-- The arguments are not compared with the parameters if there are none. -/
theorem typeOf_call_ok {receiver : Expr} {method : Ident} {args : List Expr}
    (h : (t.typeOf cx (.call span receiver method args)).outcome = .ok ty) :
    ∃ receiverType className m, (t.typeOf cx receiver).outcome = .ok receiverType ∧
      receiverType.resolveSelf cx.className = .object className ∧ t.contains className = true ∧
      t.method? className method.name = some m ∧ ty = m.returnType ∧
      (args = [] ∨ ∃ types, (t.typesOf cx args).outcome = .ok types ∧
        types.length = m.params.length ∧ t.argumentError? m.name m.params types args = none) := by
  unfold typeOf at h
  obtain ⟨receiverType, hreceiver, hthen⟩ := Logged.bind_ok.1 h
  obtain ⟨m, hm, hresult⟩ := Logged.bind_ok.1 hthen
  obtain ⟨className, hclass, hcontains, hmethod⟩ := callee_ok hm
  refine ⟨receiverType, className, m, hreceiver, hclass, hcontains, hmethod, ?_⟩
  split at hresult
  · next hempty => exact ⟨(Logged.pure_ok.1 hresult).symm, .inl (List.isEmpty_iff.1 hempty)⟩
  split at hresult
  · exact (Logged.fail_ne_ok hresult).elim
  · obtain ⟨types, htypes, hchecked⟩ := Logged.bind_ok.1 hresult
    obtain ⟨⟨⟩, hcheck, hlast⟩ := Logged.bind_ok.1 hchecked
    exact ⟨(Logged.pure_ok.1 hlast).symm, .inr ⟨types, htypes, checkArguments_ok hcheck⟩⟩

theorem typesOf_cons_ok {arg : Expr} {args : List Expr} {types : List Ty}
    (h : (t.typesOf cx (arg :: args)).outcome = .ok types) :
    ∃ ty rest, (t.typeOf cx arg).outcome = .ok ty ∧ (t.typesOf cx args).outcome = .ok rest ∧
      types = ty.resolveSelf cx.className :: rest := by
  unfold typesOf at h
  obtain ⟨ty, hty, hthen⟩ := Logged.bind_ok.1 h
  obtain ⟨rest, hrest, hresult⟩ := Logged.bind_ok.1 hthen
  exact ⟨ty, rest, hty, hrest, (Logged.pure_ok.1 hresult).symm⟩

/-! ## Statements -/

theorem checkCondition_ok {statement : Conditional} {condition : Expr}
    (h : (t.checkCondition cx statement condition).outcome = .ok ()) :
    (t.typeOf cx condition).outcome = .ok .boolean := by
  obtain ⟨found, hfound, hresult⟩ := Logged.bind_ok.1 h
  split at hresult
  · next htype => rwa [htype] at hfound
  · exact (Logged.fail_ne_ok hresult).elim

theorem checkAssign_ok {name : Ident} {value : Expr}
    (h : (t.checkAssign cx name value).outcome = .ok t') :
    ∃ assigned found, t.resolve cx name.name = some assigned ∧
      (t.typeOf cx value).outcome = .ok found ∧
      t.isAssignable assigned.type (found.resolveSelf cx.className) = true ∧
      t' = t.markInitialized assigned.place name.name := by
  obtain ⟨assigned, hassigned, hthen⟩ := Logged.bind_ok.1 h
  obtain ⟨found, hfound, hresult⟩ := Logged.bind_ok.1 hthen
  dsimp only at hresult
  split at hresult
  · next ha =>
    exact ⟨assigned, found, target_ok hassigned, hfound, ha, (Logged.pure_ok.1 hresult).symm⟩
  · exact (Logged.fail_ne_ok hresult).elim

theorem checkArrayAssign_ok {name : Ident} {position value : Expr}
    (h : (t.checkArrayAssign cx name position value).outcome = .ok ()) :
    (∃ array, t.resolve cx name.name = some array ∧ array.type = .intArray) ∧
      (t.typeOf cx position).outcome = .ok .int ∧ (t.typeOf cx value).outcome = .ok .int := by
  obtain ⟨array, harray, hthen⟩ := Logged.bind_ok.1 h
  split at hthen
  · exact (Logged.fail_ne_ok hthen).elim
  next htype =>
  obtain ⟨positionType, hposition, hrest⟩ := Logged.bind_ok.1 hthen
  split at hrest
  · exact (Logged.fail_ne_ok hrest).elim
  next hint =>
  obtain ⟨found, hfound, hresult⟩ := Logged.bind_ok.1 hrest
  split at hresult
  · exact (Logged.fail_ne_ok hresult).elim
  next hint' =>
  rw [Decidable.not_not] at htype hint hint'
  subst hint hint'
  exact ⟨⟨array, target_ok harray, htype⟩, hposition, hfound⟩

theorem checkReturn_ok {d : MethodDecl} (h : (t.checkReturn cx d).outcome = .ok ()) :
    ∃ found, (t.typeOf cx d.returned).outcome = .ok found ∧
      t.isAssignable (Ty.ofName d.returnType.name) (found.resolveSelf cx.className) = true := by
  obtain ⟨found, hfound, hresult⟩ := Logged.bind_ok.1 h
  dsimp only at hresult
  split at hresult
  · next ha => exact ⟨found, hfound, ha⟩
  · exact (Logged.fail_ne_ok hresult).elim

end ClassTable

end ClassCheck
