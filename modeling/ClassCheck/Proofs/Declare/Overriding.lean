import ClassCheck.Proofs.Declare.Members

/-!
# A class has all methods of its ancestors

A method is compared with the nearest method that it overrides only. That is enough: along any row
of ancestors the signature of a name stays the same, whether or not the classes between declare it.
-/

namespace ClassCheck

open ClassTable

variable {p : Program} {t : ClassTable}

theorem ClassDecl.method?_declared {d : ClassDecl} {name : String} {m : MethodInfo}
    (h : d.declared.method? name = some m) :
    ∃ md ∈ d.methods, md.name.name = name ∧ m = md.declared d.name.name := by
  have hname : m.name = name := by simpa using List.find?_some h
  obtain ⟨md, hmd, rfl⟩ := List.mem_map.1 (List.mem_of_find?_eq_some h)
  exact ⟨md, hmd, by rw [← hname, MethodDecl.name_declared], rfl⟩

theorem Program.DeclaredIn.method?_of_parent (h : p.DeclaredIn t) {name parent method : String}
    (hp : t.parent? name = some parent) {m : MethodInfo} (hm : t.method? parent method = some m) :
    ∃ own, t.method? name method = some own ∧ m.SameSignature own := by
  have hinherited : t.inheritedMethod? name method = some m := by
    rw [h.ordered.inheritedMethod?_of_parent hp, hm]
  obtain ⟨c, hc, hparent⟩ := Option.bind_eq_some_iff.1 hp
  rw [method?_of_get? hc]
  cases hown : c.method? method with
  | none => exact ⟨m, hinherited, rfl, rfl⟩
  | some own =>
    refine ⟨own, rfl, ?_⟩
    rcases h.eq_declared hc with rfl | ⟨d, hd, rfl, rfl⟩
    · -- The main class has no parent.
      cases hparent
    · obtain ⟨md, hmd, rfl, rfl⟩ := ClassDecl.method?_declared hown
      exact ((h.classes d hd).2.methods md hmd).overriding m hinherited

theorem Program.DeclaredIn.method?_of_descends (h : p.DeclaredIn t) {name ancestor method : String}
    (hd : t.Descends name ancestor) {m : MethodInfo} (hm : t.method? ancestor method = some m) :
    ∃ own, t.method? name method = some own ∧ m.SameSignature own := by
  induction hd generalizing m with
  | single hp => exact h.method?_of_parent hp hm
  | tail _ hp ih =>
    obtain ⟨between, hbetween, hreturn, hparams⟩ := h.method?_of_parent hp hm
    obtain ⟨own, hown, hreturn', hparams'⟩ := ih hbetween
    exact ⟨own, hown, hreturn.trans hreturn', hparams.trans hparams'⟩

/-- In a program whose declarations are accepted, an object can stand for one of any class above its
own: every method that is found there is found for it too, and takes and returns the same types. -/
theorem Program.substitutable {t₀ : ClassTable} (h₀ : p.declareClasses.outcome = .ok t₀)
    (h : (p.declareMembers t₀).outcome = .ok t) {name ancestor method : String}
    (hd : t.Descends name ancestor) {m : MethodInfo} (hm : t.method? ancestor method = some m) :
    ∃ own, t.method? name method = some own ∧ own.returnType = m.returnType ∧
      own.params.map (·.type) = m.params.map (·.type) := by
  obtain ⟨own, hown, hreturn, hparams⟩ :=
    (Program.declaredIn_declareMembers h₀ h).method?_of_descends hd hm
  exact ⟨own, hown, hreturn.symm, hparams.symm⟩

/-- Four classes in a row, each below the one before. The second and the last declare `f`. -/
def fourClasses : Program :=
  let here : Span := ⟨0, 0⟩
  let name (text : String) : Ident := ⟨text, here⟩
  let f : MethodDecl :=
    { returnType := ⟨.int, here⟩
      name := name "f"
      params := [⟨⟨.named "A", here⟩, name "a"⟩, ⟨⟨.intArray, here⟩, name "xs"⟩]
      locals := []
      body := []
      returned := .int here 0 }
  { main := { name := name "A", args := name "args", locals := [], body := [] }
    classes :=
      [{ name := name "B", superclass := some (name "A"), fields := [], methods := [f] },
        { name := name "C", superclass := some (name "B"), fields := [], methods := [] },
        { name := name "D", superclass := some (name "C"), fields := [], methods := [f] }] }

theorem Program.substitutable_fourClasses :
    ∃ t₀ t m, fourClasses.declareClasses.outcome = .ok t₀ ∧
      (fourClasses.declareMembers t₀).outcome = .ok t ∧ t.Descends "D" "B" ∧
      t.method? "B" "f" = some m ∧
      ∃ own, t.method? "D" "f" = some own ∧ own.returnType = m.returnType ∧
        own.params.map (·.type) = m.params.map (·.type) := by
  have hok : (fourClasses.declareClasses.outcome >>= fun t =>
      (fourClasses.declareMembers t).outcome).isOk = true := by decide +kernel
  obtain ⟨t, ht⟩ := Outcome.isOk_iff.1 hok
  obtain ⟨t₀, h₀, h⟩ := Outcome.bind_eq_ok.1 ht
  have hin := Program.declaredIn_declareMembers h₀ h
  have hb : t.get? "B" = some _ := (hin.classes _ (.head _)).1
  have hc : t.get? "C" = some _ := (hin.classes _ (.tail _ (.head _))).1
  have hd : t.get? "D" = some _ := (hin.classes _ (.tail _ (.tail _ (.head _)))).1
  have hdb : t.Descends "D" "B" :=
    .tail (.single (by rw [parent?, hd]; rfl)) (by rw [parent?, hc]; rfl)
  obtain ⟨m, hm⟩ : ∃ m, t.method? "B" "f" = some m := by
    rw [method?_of_get? hb]
    exact ⟨_, rfl⟩
  exact ⟨t₀, t, m, h₀, h, hdb, hm, Program.substitutable h₀ h hdb hm⟩

end ClassCheck
