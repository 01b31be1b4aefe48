import ClassCheck.Proofs.ClassTable.Lineage
import ClassCheck.Proofs.ClassTable.Lookup

/-!
# Changing one variable

If names are distinct, a change of the variable of a place and a name is seen at that place and under
that name, and nowhere else. If the variable is no parameter, no signature changes.
-/

namespace ClassCheck

/-! ## One element of a list -/

theorem find?_modifyFirst_key {α : Type} {key : α → String} {f : α → α}
    (hf : ∀ a, key (f a) = key a) (k k' : String) (as : List α) :
    (modifyFirst (key · == k) f as).find? (key · == k') =
      if k' = k then (as.find? (key · == k')).map f else as.find? (key · == k') := by
  split
  · next h =>
    subst h
    exact find?_modifyFirst _ f (by simp [hf]) as
  · next h =>
    apply find?_modifyFirst_of_disjoint
    intro a ha
    rw [beq_iff_eq] at ha
    simp [hf, ha, Ne.symm h]

theorem forall_mem_modifyFirst {α : Type} {p : α → Bool} {f : α → α} {P : α → Prop}
    (hf : ∀ a, P a → P (f a)) {as : List α} (h : ∀ a ∈ as, P a) : ∀ a ∈ modifyFirst p f as, P a := by
  induction as with
  | nil => exact h
  | cons a as ih =>
    rw [List.forall_mem_cons] at h
    unfold modifyFirst
    split
    · exact List.forall_mem_cons.2 ⟨hf a h.1, h.2⟩
    · exact List.forall_mem_cons.2 ⟨h.1, ih h.2⟩

theorem length_modifyFirst {α : Type} (p : α → Bool) (f : α → α) (as : List α) :
    (modifyFirst p f as).length = as.length := by
  induction as with
  | nil => rfl
  | cons a as ih =>
    unfold modifyFirst
    split
    · rfl
    · rw [List.length_cons, ih, List.length_cons]

/-! ## Methods -/

section

variable {f : Variable → Variable} (hf : ∀ v, (f v).name = v.name)

namespace MethodInfo

variable {m : MethodInfo} {name : String}

theorem slot?_modifyVariable (m : MethodInfo) (name : String) (f : Variable → Variable) (n : String) :
    (m.modifyVariable name f).slot? n = m.slot? n := by
  unfold modifyVariable
  split <;> rfl

theorem varAt?_modifyVariable (m : MethodInfo) (name : String) (f : Variable → Variable) (slot : Slot) :
    (m.modifyVariable name f).varAt? slot =
      if m.slot? name = some slot then (m.varAt? slot).map f else m.varAt? slot := by
  have hlist : ∀ (vs : List Variable) (i j : Nat),
      (vs.modify i f)[j]? = if i = j then vs[j]?.map f else vs[j]? := by
    intro vs i j
    rw [List.getElem?_modify]
    split
    · rfl
    · exact Option.map_id'
  unfold modifyVariable
  cases m.slot? name with
  | none => rfl
  | some found =>
    cases found with
    | param i =>
      cases slot with
      | param j => simpa [varAt?] using hlist m.params i j
      | localVar j => simp [varAt?]
    | localVar i =>
      cases slot with
      | param j => simp [varAt?]
      | localVar j => simpa [varAt?] using hlist m.locals i j

/-- If a name only leads to variables of that name, then a change of one variable is seen under its name alone. -/
theorem findVar?_modifyVariable
    (h : ∀ name slot, m.slot? name = some slot → (m.varAt? slot).map (·.name) = some name)
    (name : String) (f : Variable → Variable) (n : String) :
    (m.modifyVariable name f).findVar? n =
      if n = name then (m.findVar? n).map f else m.findVar? n := by
  rw [findVar?_eq_bind, slot?_modifyVariable, findVar?_eq_bind]
  cases hslot : m.slot? n with
  | none => split <;> rfl
  | some slot =>
    rw [Option.bind_some, Option.bind_some, varAt?_modifyVariable]
    -- The slot of another name is another slot.
    have hiff : m.slot? name = some slot ↔ n = name := by
      constructor
      · intro hname
        have hn := h n slot hslot
        rw [h name slot hname] at hn
        exact (Option.some.inj hn).symm
      · rintro rfl
        exact hslot
    simp only [hiff]

theorem Indexed.findVar?_modifyVariable (h : m.Indexed) (name : String) (f : Variable → Variable)
    (n : String) :
    (m.modifyVariable name f).findVar? n =
      if n = name then (m.findVar? n).map f else m.findVar? n :=
  MethodInfo.findVar?_modifyVariable (fun name slot => (h name slot).1) name f n

include hf in
theorem name_varAt?_modifyVariable (m : MethodInfo) (name : String) (slot : Slot) :
    ((m.modifyVariable name f).varAt? slot).map (·.name) = (m.varAt? slot).map (·.name) := by
  rw [varAt?_modifyVariable]
  split
  · rw [Option.map_map]
    congr 1
    exact funext hf
  · rfl

include hf in
theorem Indexed.modifyVariable (h : m.Indexed) : (m.modifyVariable name f).Indexed := by
  intro n slot
  rw [slot?_modifyVariable, name_varAt?_modifyVariable hf]
  exact h n slot

/-- What callers see of a method. -/
def signature (m : MethodInfo) : Ty × List Variable := (m.returnType, m.params)

theorem signature_modifyVariable (f : Variable → Variable) {i : Nat}
    (h : m.slot? name = some (.localVar i)) : (m.modifyVariable name f).signature = m.signature := by
  unfold modifyVariable
  rw [h]
  rfl

theorem name_modifyVariable (m : MethodInfo) (name : String) (f : Variable → Variable) :
    (m.modifyVariable name f).name = m.name := by
  unfold modifyVariable
  split <;> rfl

end MethodInfo

/-! ## Classes -/

namespace ClassInfo

variable {c : ClassInfo}

include hf in
theorem field?_modifyField (name n : String) :
    (c.modifyField name f).field? n = if n = name then (c.field? n).map f else c.field? n :=
  find?_modifyFirst_key hf name n c.fields

theorem method?_modifyMethod {g : MethodInfo → MethodInfo} (hg : ∀ m, (g m).name = m.name)
    (method n : String) :
    (c.modifyMethod method g).method? n = if n = method then (c.method? n).map g else c.method? n :=
  find?_modifyFirst_key hg method n c.methods

include hf in
theorem Distinct.modifyField (h : c.Distinct) (name : String) : (c.modifyField name f).Distinct := by
  refine ⟨?_, h.methods, h.indexed⟩
  rw [ClassInfo.modifyField, map_modifyFirst hf]
  exact h.fields

theorem Distinct.modifyMethod {g : MethodInfo → MethodInfo} (hg : ∀ m, (g m).name = m.name)
    (hindexed : ∀ m : MethodInfo, m.Indexed → (g m).Indexed) (h : c.Distinct) (method : String) :
    (c.modifyMethod method g).Distinct := by
  refine ⟨h.fields, ?_, forall_mem_modifyFirst hindexed h.indexed⟩
  rw [ClassInfo.modifyMethod, map_modifyFirst hg]
  exact h.methods

end ClassInfo

/-! ## Tables -/

namespace ClassTable

variable {t : ClassTable} {name : String}

theorem sameLinks_modify {g : ClassInfo → ClassInfo} (hname : ∀ c, (g c).name = c.name)
    (hparent : ∀ c, (g c).parent = c.parent) (t : ClassTable) (className : String) :
    t.SameLinks (t.modify className g) := by
  constructor
  · exact length_modifyFirst _ _ _
  · intro n
    rw [get?_modify t className g hname]
    split
    · rw [Option.map_map]
      congr 1
      exact funext hparent
    · rfl

section

variable (t : ClassTable) (className method name : String) (f : Variable → Variable) (n : String)

theorem get?_modifyVariableAt_inMethod :
    (t.modifyVariableAt (.inMethod className method) name f).get? n =
      if className = n then
        (t.get? n).map fun c => c.modifyMethod method fun m => m.modifyVariable name f
      else t.get? n := by
  apply get?_modify
  exact fun _ => rfl

theorem get?_modifyVariableAt_inClass :
    (t.modifyVariableAt (.inClass className) name f).get? n =
      if className = n then (t.get? n).map fun c => c.modifyField name f else t.get? n := by
  apply get?_modify
  exact fun _ => rfl

end

theorem sameLinks_modifyVariableAt (t : ClassTable) (place : Place) (name : String)
    (f : Variable → Variable) : t.SameLinks (t.modifyVariableAt place name f) := by
  cases place with
  | inMethod | inClass =>
    apply sameLinks_modify
    · exact fun _ => rfl
    · exact fun _ => rfl

theorem Distinct.modify {g : ClassInfo → ClassInfo} (hname : ∀ c, (g c).name = c.name)
    (hdistinct : ∀ c : ClassInfo, c.Distinct → (g c).Distinct) (h : t.Distinct) (className : String) :
    (t.modify className g).Distinct := by
  constructor
  · rw [ClassTable.modify, map_modifyFirst hname]
    exact h.classes
  · exact forall_mem_modifyFirst hdistinct h.members

include hf

theorem Distinct.modifyVariableAt (h : t.Distinct) (place : Place) (name : String) :
    (t.modifyVariableAt place name f).Distinct := by
  cases place with
  | inMethod className method =>
    apply Distinct.modify _ _ h
    · exact fun _ => rfl
    · intro c hc
      exact hc.modifyMethod (fun m => m.name_modifyVariable name f) (fun _ hm => hm.modifyVariable hf) _
  | inClass className =>
    apply Distinct.modify _ _ h
    · exact fun _ => rfl
    · exact fun c hc => hc.modifyField hf name

theorem Distinct.variableAt?_modifyVariableAt (h : t.Distinct) (place : Place) (name : String)
    (p : Place) (n : String) :
    (t.modifyVariableAt place name f).variableAt? p n =
      if p = place ∧ n = name then (t.variableAt? p n).map f else t.variableAt? p n := by
  cases place with
  | inMethod className method =>
    have hg : ∀ m : MethodInfo, (m.modifyVariable name f).name = m.name :=
      fun m => m.name_modifyVariable name f
    cases p with
    | inClass cn =>
      simp only [variableAt?, get?_modifyVariableAt_inMethod, reduceCtorEq, false_and, if_false]
      split
      · cases t.get? cn <;> rfl
      · rfl
    | inMethod cn mt =>
      simp only [variableAt?, get?_modifyVariableAt_inMethod, Place.inMethod.injEq]
      by_cases hcn : className = cn
      · subst hcn
        cases hc : t.get? className with
        | none => simp
        | some c =>
          simp only [if_true, Option.map_some, Option.bind_eq_bind, Option.bind_some, true_and,
            ClassInfo.method?_modifyMethod hg]
          by_cases hmt : mt = method
          · subst hmt
            cases hm : c.method? mt with
            | none => simp
            | some m =>
              have hindexed := (h.of_get? hc).indexed m (List.mem_of_find?_eq_some hm)
              simp [hindexed.findVar?_modifyVariable]
          · simp [hmt]
      · simp [hcn, Ne.symm hcn]
  | inClass className =>
    cases p with
    | inMethod cn mt =>
      simp only [variableAt?, get?_modifyVariableAt_inClass, reduceCtorEq, false_and, if_false]
      split
      · cases t.get? cn <;> rfl
      · rfl
    | inClass cn =>
      simp only [variableAt?, get?_modifyVariableAt_inClass, Place.inClass.injEq]
      by_cases hcn : className = cn
      · subst hcn
        cases t.get? className with
        | none => simp
        | some c => simp [ClassInfo.field?_modifyField hf]
      · simp [hcn, Ne.symm hcn]

end ClassTable

end

/-! ## Changing the type of one variable -/

namespace ClassTable

variable {t : ClassTable} {place : Place} {name : String} {ty : Ty}

/-- At the place there is a field or a local variable of this name and type. Parameters do not count. -/
def Declares (t : ClassTable) (place : Place) (name : String) (ty : Ty) : Prop :=
  match place with
  | .inMethod className method => ∃ c, t.get? className = some c ∧
      ∃ m ∈ c.methods, m.name = method ∧ ∃ v ∈ m.locals, v.name = name ∧ v.type = ty
  | .inClass className => ∃ c, t.get? className = some c ∧ ∃ v ∈ c.fields, v.name = name ∧ v.type = ty

/-- Gives the variable at a place another type. -/
def retype (t : ClassTable) (place : Place) (name : String) (ty : Ty) : ClassTable :=
  t.modifyVariableAt place name fun v => { v with type := ty }

theorem sameLinks_retype (t : ClassTable) (place : Place) (name : String) (ty : Ty) :
    t.SameLinks (t.retype place name ty) :=
  t.sameLinks_modifyVariableAt place name _

namespace Distinct

variable (h : t.Distinct)

include h

theorem retype (place : Place) (name : String) (ty : Ty) : (t.retype place name ty).Distinct := by
  apply h.modifyVariableAt
  exact fun _ => rfl

theorem variableAt?_of_declares (hv : t.Declares place name ty) :
    ∃ v, t.variableAt? place name = some v ∧ v.type = ty := by
  cases place with
  | inMethod className method =>
    obtain ⟨c, hc, m, hm, hmethod, v, hv, hname, htype⟩ := hv
    have hin : t.InMethod ⟨className, method⟩ name v :=
      ⟨c, m, hc, ⟨hm, hmethod⟩, List.mem_append_right _ hv, hname⟩
    exact ⟨v, h.variableAt?_iff.2 hin, htype⟩
  | inClass className =>
    obtain ⟨c, hc, v, hv, hname, htype⟩ := hv
    refine ⟨v, ?_, htype⟩
    rw [variableAt?, hc]
    exact (find?_iff_of_nodup (h.of_get? hc).fields).2 ⟨hv, hname⟩

theorem signature_retype (hv : t.Declares place name ty) (ty' : Ty) (className method : String) :
    ((t.retype place name ty').method? className method).map MethodInfo.signature =
      (t.method? className method).map MethodInfo.signature := by
  rw [method?_eq_findSome?, method?_eq_findSome?, (t.sameLinks_retype place name _).lineage_eq,
    List.map_findSome?, List.map_findSome?]
  apply findSome?_congr_of_mem
  intro n _
  simp only [Function.comp_apply, ClassTable.retype]
  cases place with
  | inClass cn =>
    rw [get?_modifyVariableAt_inClass]
    split
    · cases t.get? n <;> rfl
    · rfl
  | inMethod cn mt =>
    obtain ⟨c, hc, m, hm, rfl, v, hv, rfl, -⟩ := hv
    have hdistinct := h.of_get? hc
    obtain ⟨i, hi⟩ := List.mem_iff_getElem?.1 hv
    have hslot : m.slot? v.name = some (.localVar i) :=
      (hdistinct.indexed m hm _ _).2 (congrArg (Option.map (·.name)) hi)
    have hfound : c.method? m.name = some m := find?_of_nodup hdistinct.methods hm
    rw [get?_modifyVariableAt_inMethod]
    split
    · next hcn =>
      subst hcn
      rw [hc, Option.map_some, Option.bind_some, Option.bind_some,
        ClassInfo.method?_modifyMethod fun m => m.name_modifyVariable _ _]
      split
      · next hmethod =>
        rw [hmethod, hfound, Option.map_some, Option.map_some, Option.map_some,
          MethodInfo.signature_modifyVariable _ hslot]
      · rfl
    · rfl

theorem map_place_type_resolve_retype (place : Place) (name : String) (ty : Ty) (cx : Context)
    (n : String) :
    ((t.retype place name ty).resolve cx n).map (fun r => (r.place, r.type)) =
      (t.resolve cx n).map fun r => (r.place, if r.place = place ∧ n = name then ty else r.type) := by
  have hsplit : (t.resolve cx n).map (fun r =>
        (r.place, if r.place = place ∧ n = name then ty else r.type)) =
      ((t.resolve cx n).map fun r => (r.place, r.type)).map fun found =>
        (found.1, if found.1 = place ∧ n = name then ty else found.2) := by
    rw [Option.map_map]
    rfl
  rw [hsplit, map_place_type_resolve, map_place_type_resolve,
    (t.sameLinks_retype place name _).places_eq, List.map_findSome?]
  apply findSome?_congr_of_mem
  intro p _
  have hvariable : (t.retype place name ty).variableAt? p n = if p = place ∧ n = name then
      (t.variableAt? p n).map fun v => { v with type := ty } else t.variableAt? p n := by
    apply h.variableAt?_modifyVariableAt
    exact fun _ => rfl
  rw [hvariable, Function.comp_apply, Option.map_map]
  split
  · next hp => simp [hp, Function.comp_def]
  · next hp => simp [hp, Function.comp_def]

end Distinct

end ClassTable

end ClassCheck
