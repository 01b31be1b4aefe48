import ClassCheck.Proofs.ClassTable.Plain

/-!
# Marks on variables

A variable is known by its place and its name, as long as no two variables of a place have the same
name. Then marking one variable as initialized marks all variables of that place and name.
-/

namespace ClassCheck

/-! ## Marking many variables at once -/

/-- The variables to mark, by place and name. -/
abbrev Marks := Place → String → Bool

namespace Marks

def none : Marks := fun _ _ => false

def single (place : Place) (name : String) : Marks := fun p n => p = place ∧ n = name

def union (a b : Marks) : Marks := fun place name => a place name || b place name

theorem single_self (place : Place) (name : String) :
    single place name place = fun n => decide (n = name) := by
  funext n
  simp [single]

theorem single_of_ne {p place : Place} (h : p ≠ place) (name : String) :
    single place name p = fun _ => false := by
  funext n
  simp [single, h]

theorem union_none (a : Marks) : a.union none = a := by
  funext place name
  exact Bool.or_false _

end Marks

def Variable.mark (marked : Bool) (v : Variable) : Variable :=
  { v with initialized := v.initialized || marked }

def MethodInfo.mark (marks : String → Bool) (m : MethodInfo) : MethodInfo :=
  { m with
    params := m.params.map fun v => v.mark (marks v.name)
    locals := m.locals.map fun v => v.mark (marks v.name) }

def ClassInfo.mark (marks : Marks) (c : ClassInfo) : ClassInfo :=
  { c with
    fields := c.fields.map fun v => v.mark (marks (.inClass c.name) v.name)
    methods := c.methods.map fun m => m.mark (marks (.inMethod c.name m.name)) }

/-- Marks the given variables. Nothing else in the table is changed. -/
def ClassTable.mark (marks : Marks) (t : ClassTable) : ClassTable :=
  { t with entries := t.entries.map (ClassInfo.mark marks) }

@[simp] theorem Variable.mark_false (v : Variable) : v.mark false = v := by
  simp [mark]

@[simp] theorem Variable.mark_mark (a b : Bool) (v : Variable) :
    (v.mark a).mark b = v.mark (a || b) := by
  simp [mark, Bool.or_assoc]

@[simp] theorem Variable.name_mark (marked : Bool) (v : Variable) : (v.mark marked).name = v.name :=
  rfl

@[simp] theorem MethodInfo.mark_false (m : MethodInfo) : m.mark (fun _ => false) = m := by
  simp [mark]

@[simp] theorem MethodInfo.mark_mark (a b : String → Bool) (m : MethodInfo) :
    (m.mark a).mark b = m.mark fun name => a name || b name := by
  simp [mark, Function.comp_def]

theorem ClassInfo.mark_eq_self {marks : Marks} {c : ClassInfo}
    (hfields : marks (.inClass c.name) = fun _ => false)
    (hmethods : ∀ method, marks (.inMethod c.name method) = fun _ => false) : c.mark marks = c := by
  simp only [mark, hfields, hmethods, Variable.mark_false, MethodInfo.mark_false, List.map_id']

theorem ClassInfo.mark_mark (a b : Marks) (c : ClassInfo) :
    (c.mark a).mark b = c.mark (a.union b) := by
  simp only [mark, List.map_map, Function.comp_def, Variable.mark_mark, MethodInfo.mark_mark]
  rfl

theorem ClassInfo.plain_mark (marks : Marks) (c : ClassInfo) : (c.mark marks).plain = c.plain := by
  have hvariable : ∀ marked (v : Variable), (v.mark marked).plain = v.plain := fun _ _ => rfl
  have hmethod : ∀ marks (m : MethodInfo), (m.mark marks).plain = m.plain := by
    intro marks m
    simp [MethodInfo.mark, MethodInfo.plain, Function.comp_def, hvariable]
  simp [mark, plain, Function.comp_def, hvariable, hmethod]

namespace ClassTable

theorem mark_none (t : ClassTable) : t.mark Marks.none = t := by
  have hid : ClassInfo.mark Marks.none = id :=
    funext fun _ => ClassInfo.mark_eq_self rfl fun _ => rfl
  rw [mark, hid, List.map_id]

theorem mark_mark (a b : Marks) (t : ClassTable) : (t.mark a).mark b = t.mark (a.union b) := by
  simp [mark, Function.comp_def, ClassInfo.mark_mark]

theorem get?_mark (marks : Marks) (t : ClassTable) (name : String) :
    (t.mark marks).get? name = (t.get? name).map (ClassInfo.mark marks) := by
  rw [get?, mark, List.find?_map]
  rfl

theorem plain_mark (marks : Marks) (t : ClassTable) : (t.mark marks).plain = t.plain := by
  simp [mark, plain, Function.comp_def, ClassInfo.plain_mark]

end ClassTable

/-! ## Variables that are known by their names -/

def MethodInfo.varAt? (m : MethodInfo) : Slot → Option Variable
  | .param i => m.params[i]?
  | .localVar i => m.locals[i]?

theorem MethodInfo.findVar?_eq_bind (m : MethodInfo) (name : String) :
    m.findVar? name = (m.slot? name).bind m.varAt? := by
  unfold findVar?
  cases m.slot? name with
  | none => rfl
  | some slot => cases slot <;> rfl

theorem MethodInfo.mem_variables_iff {m : MethodInfo} {v : Variable} :
    v ∈ m.params ++ m.locals ↔ ∃ slot, m.varAt? slot = some v := by
  rw [List.mem_append, List.mem_iff_getElem?, List.mem_iff_getElem?]
  constructor
  · rintro (⟨i, hi⟩ | ⟨i, hi⟩)
    · exact ⟨.param i, hi⟩
    · exact ⟨.localVar i, hi⟩
  · rintro ⟨slot, hslot⟩
    cases slot with
    | param i => exact .inl ⟨i, hslot⟩
    | localVar i => exact .inr ⟨i, hslot⟩

/-- A name leads to a variable if and only if the variable has that name. -/
def MethodInfo.Indexed (m : MethodInfo) : Prop :=
  ∀ name slot, m.slot? name = some slot ↔ (m.varAt? slot).map (·.name) = some name

structure ClassInfo.Distinct (c : ClassInfo) : Prop where
  fields : (c.fields.map (·.name)).Nodup
  methods : (c.methods.map (·.name)).Nodup
  indexed : ∀ m ∈ c.methods, m.Indexed

/-- Names tell classes apart, and fields, methods and variables inside a class. -/
structure ClassTable.Distinct (t : ClassTable) : Prop where
  classes : (t.entries.map (·.name)).Nodup
  members : ∀ c ∈ t.entries, c.Distinct

/-! ## Marked variables, looked up -/

theorem MethodInfo.Indexed.findVar?_mark {m : MethodInfo} (h : m.Indexed) (marks : String → Bool)
    (name : String) :
    (m.mark marks).findVar? name = (m.findVar? name).map (Variable.mark (marks name)) := by
  have hsame : (m.mark marks).slot? name = m.slot? name := rfl
  unfold findVar?
  rw [hsame]
  cases hslot : m.slot? name with
  | none => rfl
  | some slot =>
    -- What stands in the slot has the name that led there.
    obtain ⟨v, hv, rfl⟩ := Option.map_eq_some_iff.1 ((h name slot).1 hslot)
    cases slot with
    | param i => simp_all [varAt?, mark]
    | localVar i => simp_all [varAt?, mark]

theorem find?_map_congr {α : Type} (key : α → String) (k : String) {f g : α → α}
    (hkey : ∀ a, key (f a) = key a) (hfg : ∀ a, key a = k → f a = g a) (as : List α) :
    (as.map f).find? (key · == k) = (as.find? (key · == k)).map g := by
  have hcomp : (fun a => key a == k) ∘ f = fun a => key a == k := by
    funext a
    exact congrArg (· == k) (hkey a)
  rw [List.find?_map, hcomp]
  cases hfind : as.find? (key · == k) with
  | none => rfl
  | some a => exact congrArg some (hfg a (by simpa using List.find?_some hfind))

theorem ClassInfo.field?_mark (marks : Marks) (c : ClassInfo) (name : String) :
    (c.mark marks).field? name =
      (c.field? name).map (Variable.mark (marks (.inClass c.name) name)) := by
  apply find?_map_congr Variable.name
  · exact fun _ => rfl
  · rintro v rfl
    rfl

theorem ClassInfo.method?_mark (marks : Marks) (c : ClassInfo) (method : String) :
    (c.mark marks).method? method =
      (c.method? method).map (MethodInfo.mark (marks (.inMethod c.name method))) := by
  apply find?_map_congr MethodInfo.name
  · exact fun _ => rfl
  · rintro m rfl
    rfl

theorem ClassTable.Distinct.variableAt?_mark {t : ClassTable} (h : t.Distinct) (marks : Marks)
    (place : Place) (name : String) :
    (t.mark marks).variableAt? place name =
      (t.variableAt? place name).map (Variable.mark (marks place name)) := by
  have hmembers : ∀ className c, t.get? className = some c → c.name = className ∧ c.Distinct :=
    fun _ c hc => ⟨name_of_get? hc, h.members c (List.mem_of_find?_eq_some hc)⟩
  unfold variableAt?
  cases place with
  | inMethod className method =>
    cases hc : t.get? className with
    | none => simp [get?_mark, hc]
    | some c =>
      obtain ⟨rfl, hdistinct⟩ := hmembers className c hc
      cases hm : c.method? method with
      | none => simp [get?_mark, hc, ClassInfo.method?_mark, hm]
      | some m =>
        have hindexed := hdistinct.indexed m (List.mem_of_find?_eq_some hm)
        simp [get?_mark, hc, ClassInfo.method?_mark, hm, hindexed.findVar?_mark]
  | inClass className =>
    cases hc : t.get? className with
    | none => simp [get?_mark, hc]
    | some c =>
      obtain ⟨rfl, -⟩ := hmembers className c hc
      simp [get?_mark, hc, ClassInfo.field?_mark]

/-! ## Marking one variable -/

theorem modifyFirst_eq_map {α : Type} (key : α → String) (k : String) (f : α → α) {as : List α}
    (h : (as.map key).Nodup) :
    modifyFirst (fun a => key a == k) f as = as.map fun a => if key a = k then f a else a := by
  induction as with
  | nil => rfl
  | cons a as ih =>
    rw [List.map_cons, List.nodup_cons] at h
    unfold modifyFirst
    by_cases ha : key a = k
    · -- The first one is the only one.
      have hrest : ∀ b ∈ as, (if key b = k then f b else b) = b := by
        intro b hb
        apply if_neg
        rintro rfl
        exact h.1 (ha ▸ List.mem_map_of_mem hb)
      simp only [ha, BEq.rfl, if_true, List.map_cons]
      rw [List.map_congr_left hrest, List.map_id']
    · simp only [ha, beq_iff_eq, if_false, List.map_cons, ih h.2]

theorem modify_eq_map {α : Type} (f : α → α) (p : α → Bool) {as : List α} {i : Nat}
    (h : ∀ j a, as[j]? = some a → (p a = true ↔ i = j)) :
    as.modify i f = as.map fun a => if p a then f a else a := by
  apply List.ext_getElem?
  intro j
  rw [List.getElem?_modify, List.getElem?_map]
  cases ha : as[j]? with
  | none => rfl
  | some a =>
    by_cases hij : i = j
    · simp [hij, (h j a ha).2 hij]
    · have hp : ¬ p a = true := fun hp => hij ((h j a ha).1 hp)
      simp [hij, hp]

theorem Variable.mark_decide (name : String) (v : Variable) :
    v.mark (decide (v.name = name)) = if v.name = name then { v with initialized := true } else v := by
  by_cases hv : v.name = name <;> simp [hv, mark]

theorem map_mark_of_absent {name : String} {vs : List Variable}
    (h : ∀ (j : Nat) (v : Variable), vs[j]? = some v → v.name ≠ name) :
    (vs.map fun v => v.mark (decide (v.name = name))) = vs := by
  have hsame : ∀ v ∈ vs, v.mark (decide (v.name = name)) = v := by
    intro v hv
    obtain ⟨j, hj⟩ := List.mem_iff_getElem?.1 hv
    simp [h j v hj]
  rw [List.map_congr_left hsame, List.map_id']

theorem modify_eq_map_mark {name : String} {vs : List Variable} {i : Nat}
    (h : ∀ (j : Nat) (v : Variable), vs[j]? = some v → (v.name = name ↔ i = j)) :
    vs.modify i (fun v => { v with initialized := true }) =
      vs.map fun v => v.mark (decide (v.name = name)) := by
  rw [modify_eq_map _ (fun v => decide (v.name = name)) (by simpa using h)]
  simp [Variable.mark_decide]

theorem MethodInfo.Indexed.modifyVariable_eq_mark {m : MethodInfo} (h : m.Indexed) (name : String) :
    m.modifyVariable name (fun v => { v with initialized := true }) =
      m.mark fun n => decide (n = name) := by
  have hparam : ∀ (j : Nat) (v : Variable), m.params[j]? = some v →
      (v.name = name ↔ m.slot? name = some (.param j)) := by
    intro j v hv
    rw [h, varAt?, hv]
    simp
  have hlocal : ∀ (j : Nat) (v : Variable), m.locals[j]? = some v →
      (v.name = name ↔ m.slot? name = some (.localVar j)) := by
    intro j v hv
    rw [h, varAt?, hv]
    simp
  unfold modifyVariable
  cases hslot : m.slot? name with
  | none =>
    simp only [hslot, reduceCtorEq, iff_false] at hparam hlocal
    simp only [mark, map_mark_of_absent hparam, map_mark_of_absent hlocal]
  | some slot =>
    -- The other list has no variable of this name.
    cases slot with
    | param i =>
      simp only [hslot, Option.some.injEq, Slot.param.injEq, reduceCtorEq, iff_false] at hparam hlocal
      simp only [mark, modify_eq_map_mark hparam, map_mark_of_absent hlocal]
    | localVar i =>
      simp only [hslot, Option.some.injEq, Slot.localVar.injEq, reduceCtorEq, iff_false]
        at hparam hlocal
      simp only [mark, map_mark_of_absent hparam, modify_eq_map_mark hlocal]

theorem ClassInfo.Distinct.modifyField_eq_mark {c : ClassInfo} (h : c.Distinct) (name : String) :
    c.modifyField name (fun v => { v with initialized := true }) =
      c.mark (Marks.single (.inClass c.name) name) := by
  have hmethods : ∀ method,
      Marks.single (.inClass c.name) name (.inMethod c.name method) = fun _ => false :=
    fun _ => Marks.single_of_ne (by simp) name
  rw [modifyField, modifyFirst_eq_map (fun v : Variable => v.name) _ _ h.fields]
  simp only [mark, Marks.single_self, hmethods, Variable.mark_decide, MethodInfo.mark_false,
    List.map_id']

theorem ClassInfo.Distinct.modifyMethod_eq_mark {c : ClassInfo} (h : c.Distinct)
    (method name : String) :
    c.modifyMethod method (fun m => m.modifyVariable name fun v => { v with initialized := true }) =
      c.mark (Marks.single (.inMethod c.name method) name) := by
  have hfields : Marks.single (.inMethod c.name method) name (.inClass c.name) = fun _ => false :=
    Marks.single_of_ne (by simp) name
  have hmethods : (c.methods.map fun m => if m.name = method then
        m.modifyVariable name fun v => { v with initialized := true } else m) =
      c.methods.map fun m =>
        m.mark (Marks.single (.inMethod c.name method) name (.inMethod c.name m.name)) := by
    apply List.map_congr_left
    intro m hm
    by_cases hname : m.name = method
    · rw [if_pos hname, hname, Marks.single_self, (h.indexed m hm).modifyVariable_eq_mark]
    · rw [if_neg hname, Marks.single_of_ne (by simp [hname]), MethodInfo.mark_false]
  rw [modifyMethod, modifyFirst_eq_map (fun m : MethodInfo => m.name) _ _ h.methods, hmethods]
  simp only [mark, hfields, Variable.mark_false, List.map_id']

namespace ClassTable

variable {t t' : ClassTable}

theorem Distinct.modify_eq_mark (h : t.Distinct) {className : String} {f : ClassInfo → ClassInfo}
    {marks : Marks} (hin : ∀ c : ClassInfo, c.Distinct → c.name = className → f c = c.mark marks)
    (hout : ∀ c : ClassInfo, c.name ≠ className → c.mark marks = c) :
    t.modify className f = t.mark marks := by
  unfold modify mark
  rw [modifyFirst_eq_map (fun c : ClassInfo => c.name) _ _ h.classes]
  congr 1
  apply List.map_congr_left
  intro c hc
  by_cases hname : c.name = className
  · rw [if_pos hname, hin c (h.members c hc) hname]
  · rw [if_neg hname, hout c hname]

/-- To mark the variable that is found at a place is to mark the variables of its name there. -/
theorem Distinct.markInitialized_eq_mark (h : t.Distinct) (place : Place) (name : String) :
    t.markInitialized place name = t.mark (Marks.single place name) := by
  unfold markInitialized modifyVariableAt
  cases place with
  | inMethod className method =>
    apply h.modify_eq_mark
    · rintro c hc rfl
      exact hc.modifyMethod_eq_mark method name
    · intro c hname
      apply ClassInfo.mark_eq_self
      · exact Marks.single_of_ne (by simp) name
      · exact fun _ => Marks.single_of_ne (by simp [hname]) name
  | inClass className =>
    apply h.modify_eq_mark
    · rintro c hc rfl
      exact hc.modifyField_eq_mark name
    · intro c hname
      apply ClassInfo.mark_eq_self
      · exact Marks.single_of_ne (by simp [hname]) name
      · exact fun _ => Marks.single_of_ne (by simp) name

end ClassTable

/-! ## Distinct names in a plain table -/

theorem MethodInfo.indexed_plain {m : MethodInfo} : m.plain.Indexed ↔ m.Indexed := by
  have hvar : ∀ slot, (m.plain.varAt? slot).map (·.name) = (m.varAt? slot).map (·.name) := by
    intro slot
    cases slot <;> simp [varAt?, plain, Function.comp_def, Variable.plain]
  have hslot : ∀ name, m.plain.slot? name = m.slot? name := fun _ => rfl
  simp only [Indexed, hvar, hslot]

theorem ClassInfo.distinct_plain {c : ClassInfo} : c.plain.Distinct ↔ c.Distinct := by
  have hfields : c.plain.fields.map (·.name) = c.fields.map (·.name) := by
    simp [plain, Function.comp_def, Variable.plain]
  have hmethods : c.plain.methods.map (·.name) = c.methods.map (·.name) := by
    simp [plain, Function.comp_def, MethodInfo.plain]
  have hindexed : (∀ m ∈ c.plain.methods, m.Indexed) ↔ ∀ m ∈ c.methods, m.Indexed := by
    simp [plain, MethodInfo.indexed_plain]
  constructor
  · rintro ⟨hf, hm, hi⟩
    exact ⟨hfields ▸ hf, hmethods ▸ hm, hindexed.1 hi⟩
  · rintro ⟨hf, hm, hi⟩
    exact ⟨hfields ▸ hf, hmethods ▸ hm, hindexed.2 hi⟩

theorem ClassTable.distinct_plain {t : ClassTable} : t.plain.Distinct ↔ t.Distinct := by
  have hclasses : t.plain.entries.map (·.name) = t.entries.map (·.name) := by
    simp [plain, Function.comp_def, ClassInfo.plain]
  have hmembers : (∀ c ∈ t.plain.entries, c.Distinct) ↔ ∀ c ∈ t.entries, c.Distinct := by
    simp [plain, ClassInfo.distinct_plain]
  constructor
  · rintro ⟨hc, hm⟩
    exact ⟨hclasses ▸ hc, hmembers.1 hm⟩
  · rintro ⟨hc, hm⟩
    exact ⟨hclasses ▸ hc, hmembers.2 hm⟩

theorem ClassTable.Distinct.congr {t t' : ClassTable} (h : t.Distinct) (hplain : t'.plain = t.plain) :
    t'.Distinct := by
  rw [← distinct_plain, hplain, distinct_plain]
  exact h

end ClassCheck
