import Mathlib.Data.Finset.Card
import ClassCheck.Proofs.ClassTable.Building

/-!
# A variable is written where it was read

To read a name is to look through a method, its class and the classes above it. What is found is handed on as
a place, and when the variable is assigned to, the place is looked up again. Main statement: in any table that
was put together and in which no class is above itself, the second search comes to the variable that the first
one saw. If it is marked then nothing else in the table changes, and all names go on to stand for what they
stood for.
-/

namespace ClassCheck

/-! ## Lists that differ in one place -/

/-- The same elements but for one, and `R` relates what stood there to what stands there now. -/
inductive OneChanged {α : Type} (R : α → α → Prop) : List α → List α → Prop
  | head {a b : α} {as : List α} : R a b → OneChanged R (a :: as) (b :: as)
  | tail {a : α} {as bs : List α} : OneChanged R as bs → OneChanged R (a :: as) (a :: bs)

namespace OneChanged

variable {α : Type} {as : List α} {a : α}

theorem mono {R S : α → α → Prop} {bs : List α} (h : OneChanged R as bs) (hRS : ∀ a b, R a b → S a b) :
    OneChanged S as bs := by
  induction h with
  | head hab => exact .head (hRS _ _ hab)
  | tail _ ih => exact .tail ih

theorem of_find? {p : α → Bool} (h : as.find? p = some a) (f : α → α) :
    OneChanged (fun x y => x = a ∧ y = f a) as (modifyFirst p f as) := by
  induction as with
  | nil => cases h
  | cons x as ih =>
    rw [List.find?_cons] at h
    unfold modifyFirst
    split at h
    · next hx =>
      obtain rfl := Option.some.inj h
      rw [if_pos hx]
      exact .head ⟨rfl, rfl⟩
    · next hx =>
      rw [if_neg (by simp [hx])]
      exact .tail (ih h)

theorem of_getElem? {i : Nat} (h : as[i]? = some a) (f : α → α) :
    OneChanged (fun x y => x = a ∧ y = f a) as (as.modify i f) := by
  induction as generalizing i with
  | nil => simp at h
  | cons x as ih =>
    cases i with
    | zero =>
      obtain rfl : x = a := by simpa using h
      exact .head ⟨rfl, rfl⟩
    | succ i => exact .tail (ih (by simpa using h))

end OneChanged

/-! ## Tables that differ in one variable -/

/-- One variable of the list was `v` and is `w` now. -/
def OneReplaced (v w : Variable) : List Variable → List Variable → Prop :=
  OneChanged fun a b => a = v ∧ b = w

/-- The same method but for one parameter or local. -/
def MethodInfo.Replaced (v w : Variable) (m m' : MethodInfo) : Prop :=
  (∃ params, OneReplaced v w m.params params ∧ m' = { m with params }) ∨
    ∃ locals, OneReplaced v w m.locals locals ∧ m' = { m with locals }

/-- The same class but for one field. -/
def ClassInfo.FieldReplaced (v w : Variable) (c c' : ClassInfo) : Prop :=
  ∃ fields, OneReplaced v w c.fields fields ∧ c' = { c with fields }

/-- The same class but for one parameter or local in one method of this name. -/
def ClassInfo.VariableReplaced (method : String) (v w : Variable) (c c' : ClassInfo) : Prop :=
  ∃ methods, OneChanged (fun m m' => m.name = method ∧ m.Replaced v w m') c.methods methods ∧
    c' = { c with methods }

/-- The same table but for one variable of this place. It was `v` and is `w` now. -/
def ClassTable.Replaced (place : Place) (v w : Variable) (t t' : ClassTable) : Prop :=
  ∃ entries, t' = { t with entries } ∧
    match place with
    | .inMethod className method =>
      OneChanged (fun c c' => c.name = className ∧ c.VariableReplaced method v w c') t.entries entries
    | .inClass className =>
      OneChanged (fun c c' => c.name = className ∧ c.FieldReplaced v w c') t.entries entries

theorem MethodInfo.replaced_modifyVariable {m : MethodInfo} {name : String} {v : Variable}
    (h : m.findVar? name = some v) (f : Variable → Variable) :
    m.Replaced v (f v) (m.modifyVariable name f) := by
  rw [findVar?_eq_bind] at h
  obtain ⟨slot, hslot, hv⟩ := Option.bind_eq_some_iff.1 h
  unfold modifyVariable
  rw [hslot]
  cases slot with
  | param i => exact .inl ⟨_, OneChanged.of_getElem? hv f, rfl⟩
  | localVar i => exact .inr ⟨_, OneChanged.of_getElem? hv f, rfl⟩

theorem MethodInfo.findVar?_modifyVariable_self (m : MethodInfo) (name : String)
    (f : Variable → Variable) : (m.modifyVariable name f).findVar? name = (m.findVar? name).map f := by
  rw [findVar?_eq_bind, slot?_modifyVariable, findVar?_eq_bind]
  cases hslot : m.slot? name with
  | none => rfl
  | some slot => rw [Option.bind_some, varAt?_modifyVariable, if_pos hslot, Option.bind_some]

/-- Of what a name stands for, all but the mark. -/
def Resolved.meaning (r : Resolved) : Scope × Place × Ty := (r.scope, r.place, r.type)

namespace ClassTable

variable {t : ClassTable} {cx : Context} {place : Place} {name : String} {v : Variable} {r : Resolved}

theorem replaced_modifyVariableAt (h : t.variableAt? place name = some v) (f : Variable → Variable) :
    t.Replaced place v (f v) (t.modifyVariableAt place name f) := by
  cases place with
  | inMethod className method =>
    obtain ⟨c, hc, h⟩ := Option.bind_eq_some_iff.1 h
    obtain ⟨m, hm, hv⟩ := Option.bind_eq_some_iff.1 h
    refine ⟨_, rfl, (OneChanged.of_find? hc _).mono ?_⟩
    rintro _ _ ⟨rfl, rfl⟩
    refine ⟨name_of_get? hc, _, (OneChanged.of_find? hm _).mono ?_, rfl⟩
    rintro _ _ ⟨rfl, rfl⟩
    exact ⟨by simpa using List.find?_some hm, MethodInfo.replaced_modifyVariable hv f⟩
  | inClass className =>
    obtain ⟨c, hc, hv⟩ := Option.bind_eq_some_iff.1 h
    refine ⟨_, rfl, (OneChanged.of_find? hc _).mono ?_⟩
    rintro _ _ ⟨rfl, rfl⟩
    exact ⟨name_of_get? hc, _, OneChanged.of_find? hv f, rfl⟩

theorem variableAt?_modifyVariableAt_self {f : Variable → Variable} (hf : ∀ v, (f v).name = v.name)
    (t : ClassTable) (place : Place) (name : String) :
    (t.modifyVariableAt place name f).variableAt? place name = (t.variableAt? place name).map f := by
  cases place with
  | inMethod className method =>
    simp only [variableAt?, get?_modifyVariableAt_inMethod, if_true]
    cases t.get? className with
    | none => rfl
    | some c =>
      simp only [Option.map_some, Option.bind_eq_bind, Option.bind_some,
        ClassInfo.method?_modifyMethod fun m => m.name_modifyVariable name f, if_true]
      cases c.method? method with
      | none => rfl
      | some m => exact m.findVar?_modifyVariable_self name f
  | inClass className =>
    simp only [variableAt?, get?_modifyVariableAt_inClass, if_true]
    cases t.get? className with
    | none => rfl
    | some c => simp [ClassInfo.field?_modifyField hf]

/-! ## Classes above a class -/

/-- No class is above itself. -/
def Acyclic (t : ClassTable) : Prop := ∀ name, ¬ t.Descends name name

theorem acyclic_of_rank (rank : String → Nat)
    (h : ∀ c ∈ t.entries, ∀ parent ∈ c.parent, rank parent < rank c.name) : t.Acyclic := by
  have hstep : ∀ {name parent}, t.parent? name = some parent → rank parent < rank name := by
    intro name parent hp
    obtain ⟨c, hc, hparent⟩ := Option.bind_eq_some_iff.1 hp
    rw [← name_of_get? hc]
    exact h c (List.mem_of_find?_eq_some hc) parent hparent
  have hfalls : ∀ {name ancestor}, t.Descends name ancestor → rank ancestor < rank name := by
    intro name ancestor hd
    induction hd with
    | single hp => exact hstep hp
    | tail _ hp ih => exact Nat.lt_trans (hstep hp) ih
  exact fun name hself => Nat.lt_irrefl _ (hfalls hself)

open Classical in
/-- The number of entries for classes above a class. -/
noncomputable def height (t : ClassTable) (name : String) : Nat :=
  (t.entries.toFinset.filter fun c => t.Descends name c.name).card

theorem height_le (t : ClassTable) (name : String) : t.height name ≤ t.entries.length := by
  classical
  exact Nat.le_trans (Finset.card_filter_le _ _) (List.toFinset_card_le _)

theorem Acyclic.height_lt (h : t.Acyclic) {parent : String} {c : ClassInfo}
    (hp : t.parent? name = some parent) (hc : t.get? parent = some c) : t.height parent < t.height name := by
  classical
  apply Finset.card_lt_card
  rw [Finset.ssubset_iff_of_subset]
  · refine ⟨c, ?_, ?_⟩
    · rw [Finset.mem_filter, List.mem_toFinset, name_of_get? hc]
      exact ⟨List.mem_of_find?_eq_some hc, .single hp⟩
    · rw [Finset.mem_filter, name_of_get? hc]
      exact fun hself => h parent hself.2
  · intro d hd
    rw [Finset.mem_filter] at hd ⊢
    exact ⟨hd.1, (descends_iff_of_parent hp).2 (.inr hd.2)⟩

theorem Descends.exists_parent {ancestor : String} {c : ClassInfo} (h : t.Descends name ancestor)
    (hc : t.get? ancestor = some c) :
    ∃ parent d, t.parent? name = some parent ∧ t.get? parent = some d ∧
      (d = c ∨ t.Descends parent ancestor) := by
  cases hp : t.parent? name with
  | none => exact absurd h (not_descends_of_none hp)
  | some parent =>
    rcases (descends_iff_of_parent hp).1 h with rfl | habove
    · exact ⟨_, c, rfl, hc, .inl rfl⟩
    · cases hd : t.get? parent with
      | none => exact absurd habove (not_descends_of_none (by rw [parent?, hd, Option.bind_none]))
      | some d => exact ⟨parent, d, rfl, hd, .inr habove⟩

theorem chainWithin_of_parent {parent : String} {d : ClassInfo} (hp : t.parent? name = some parent)
    (hd : t.get? parent = some d) (bound : Nat) :
    t.chainWithin (bound + 1) (t.parent? name) = d :: t.chainWithin bound (t.parent? parent) := by
  have hnext : t.parent? parent = d.parent := by rw [parent?, hd, Option.bind_some]
  simp only [chainWithin, hp, Option.bind_some, hd, hnext]

/-- As many steps up as there are classes above reach every one of them. -/
theorem Acyclic.mem_chainWithin (h : t.Acyclic) {bound : Nat} (hb : t.height name ≤ bound)
    {ancestor : String} {c : ClassInfo} (hd : t.Descends name ancestor) (hc : t.get? ancestor = some c) :
    c ∈ t.chainWithin bound (t.parent? name) := by
  induction bound generalizing name with
  | zero =>
    obtain ⟨parent, d, hp, hparent, -⟩ := hd.exists_parent hc
    have hlt := h.height_lt hp hparent
    omega
  | succ bound ih =>
    obtain ⟨parent, d, hp, hparent, hrest⟩ := hd.exists_parent hc
    have hlt := h.height_lt hp hparent
    rw [chainWithin_of_parent hp hparent]
    rcases hrest with rfl | habove
    · exact List.mem_cons_self
    · exact List.mem_cons_of_mem _ (ih (by omega) habove)

theorem descends_of_mem_chainWithin {bound : Nat} {c : ClassInfo}
    (h : c ∈ t.chainWithin bound (t.parent? name)) : t.Descends name c.name := by
  induction bound generalizing name with
  | zero => cases h
  | succ bound ih =>
    cases hp : t.parent? name with
    | none =>
      rw [hp, chainWithin_none] at h
      cases h
    | some parent =>
      cases hd : t.get? parent with
      | none => simp [hp, chainWithin, hd] at h
      | some d =>
        rw [chainWithin_of_parent hp hd] at h
        rcases List.mem_cons.1 h with rfl | h
        · rw [name_of_get? hd]
          exact .single hp
        · exact (descends_iff_of_parent hp).2 (.inr (ih h))

theorem Acyclic.mem_ancestors_iff (h : t.Acyclic) {c : ClassInfo} :
    c ∈ t.ancestors name ↔ ∃ ancestor, t.Descends name ancestor ∧ t.get? ancestor = some c := by
  constructor
  · intro hmem
    exact ⟨c.name, descends_of_mem_chainWithin hmem, get?_of_mem_ancestors hmem⟩
  · rintro ⟨ancestor, hd, hc⟩
    exact h.mem_chainWithin (t.height_le name) hd hc

/-! ## Reading -/

theorem exists_of_resolve (h : t.resolve cx name = some r) :
    ∃ v, t.variableAt? r.place name = some v ∧ r = resolved r.scope r.place v := by
  rw [resolve, methodVariable?_eq, ownField?_eq] at h
  rcases Option.or_eq_some_iff.1 h with h | ⟨-, h⟩
  · obtain ⟨v, hv, rfl⟩ := Option.map_eq_some_iff.1 h
    exact ⟨v, hv, rfl⟩
  rcases Option.or_eq_some_iff.1 h with h | ⟨-, h⟩
  · obtain ⟨v, hv, rfl⟩ := Option.map_eq_some_iff.1 h
    exact ⟨v, hv, rfl⟩
  · obtain ⟨c, hc, h⟩ := List.exists_of_findSome?_eq_some h
    obtain ⟨v, hv, rfl⟩ := Option.map_eq_some_iff.1 h
    refine ⟨v, ?_, rfl⟩
    rw [resolved, variableAt?, get?_of_mem_ancestors hc]
    exact hv

theorem Built.name_of_variableAt? (h : t.Built) (hv : t.variableAt? place name = some v) :
    v.name = name := by
  cases place with
  | inMethod className method =>
    obtain ⟨c, hc, hv⟩ := Option.bind_eq_some_iff.1 hv
    obtain ⟨m, hm, hv⟩ := Option.bind_eq_some_iff.1 hv
    exact (h.keyed hc hm).name_of_findVar? hv
  | inClass className =>
    obtain ⟨c, -, hv⟩ := Option.bind_eq_some_iff.1 hv
    simpa using List.find?_some hv

/-- There is something of this name: a parameter or a local of the method, a field of its class, or a field of
a class above. -/
inductive Sees (t : ClassTable) (cx : Context) (name : String) : Prop
  | ofMethod {c : ClassInfo} {m : MethodInfo} {v : Variable} : t.get? cx.className = some c →
      c.method? cx.method = some m → v ∈ m.params ++ m.locals → v.name = name → Sees t cx name
  | ofClass {c : ClassInfo} {v : Variable} : t.get? cx.className = some c → v ∈ c.fields →
      v.name = name → Sees t cx name
  | ofAncestor {ancestor : String} {c : ClassInfo} {v : Variable} : t.Descends cx.className ancestor →
      t.get? ancestor = some c → v ∈ c.fields → v.name = name → Sees t cx name

theorem Built.methodVariable?_eq_none_iff (h : t.Built) :
    t.methodVariable? cx name = none ↔ ∀ c, t.get? cx.className = some c →
      ∀ m, c.method? cx.method = some m → ∀ v ∈ m.params ++ m.locals, v.name ≠ name := by
  rw [methodVariable?_eq, Option.map_eq_none_iff, variableAt?]
  cases hc : t.get? cx.className with
  | none => simp
  | some c =>
    cases hm : c.method? cx.method with
    | none => simp [hm]
    | some m =>
      have hnone : m.findVar? name = none ↔ _ := (h.keyed hc hm).findVar?_eq_none_iff
      simpa [hm] using hnone

theorem ownField?_eq_none_iff :
    t.ownField? cx name = none ↔
      ∀ c, t.get? cx.className = some c → ∀ v ∈ c.fields, v.name ≠ name := by
  rw [ownField?_eq, Option.map_eq_none_iff, variableAt?]
  cases t.get? cx.className with
  | none => simp
  | some c => simp [ClassInfo.field?]

theorem Acyclic.inheritedField?_eq_none_iff (h : t.Acyclic) :
    t.inheritedField? cx name = none ↔ ∀ ancestor c, t.Descends cx.className ancestor →
      t.get? ancestor = some c → ∀ v ∈ c.fields, v.name ≠ name := by
  have hfield : ∀ c : ClassInfo, (c.field? name).map (resolved .inheritedFields (.inClass c.name)) = none ↔
      ∀ v ∈ c.fields, v.name ≠ name := by
    intro c
    simp [ClassInfo.field?]
  rw [inheritedField?, List.findSome?_eq_none_iff]
  simp only [hfield, h.mem_ancestors_iff]
  constructor
  · exact fun hnone ancestor c hd hc => hnone c ⟨ancestor, hd, hc⟩
  · rintro hnone c ⟨ancestor, hd, hc⟩
    exact hnone ancestor c hd hc

theorem Built.resolve_eq_none_iff (h : t.Built) (ha : t.Acyclic) :
    t.resolve cx name = none ↔ ¬ t.Sees cx name := by
  rw [resolve, Option.or_eq_none_iff, Option.or_eq_none_iff, h.methodVariable?_eq_none_iff,
    ownField?_eq_none_iff, ha.inheritedField?_eq_none_iff]
  constructor
  · rintro ⟨hmethod, hown, hinherited⟩ hsees
    cases hsees with
    | ofMethod hc hm hv hname => exact hmethod _ hc _ hm _ hv hname
    | ofClass hc hv hname => exact hown _ hc _ hv hname
    | ofAncestor hd hc hv hname => exact hinherited _ _ hd hc _ hv hname
  · intro hnot
    refine ⟨fun c hc m hm v hv hname => ?_, fun c hc v hv hname => ?_, fun a c hd hc v hv hname => ?_⟩
    · exact hnot (.ofMethod hc hm hv hname)
    · exact hnot (.ofClass hc hv hname)
    · exact hnot (.ofAncestor hd hc hv hname)

/-! ## Writing -/

theorem meaning_resolve_markInitialized (t : ClassTable) (place : Place) (name : String) (cx : Context)
    (n : String) :
    ((t.markInitialized place name).resolve cx n).map Resolved.meaning =
      (t.resolve cx n).map Resolved.meaning := by
  have hplain : ∀ t : ClassTable, (t.resolve cx n).map Resolved.meaning =
      (t.plain.resolve cx n).map Resolved.meaning := by
    intro t
    rw [resolve_plain, Option.map_map]
    rfl
  rw [hplain, plain_markInitialized, ← hplain]

theorem variableAt?_markInitialized (h : t.variableAt? place name = some v) :
    (t.markInitialized place name).variableAt? place name = some { v with initialized := true } := by
  have hmodify := variableAt?_modifyVariableAt_self (f := fun v => { v with initialized := true })
    (fun _ => rfl) t place name
  rw [h] at hmodify
  exact hmodify

theorem resolve_markInitialized (h : t.resolve cx name = some r) :
    (t.markInitialized r.place name).resolve cx name = some { r with initialized := true } := by
  have hsame := t.meaning_resolve_markInitialized r.place name cx name
  rw [h, Option.map_some, Option.map_eq_some_iff] at hsame
  obtain ⟨r', hr', hsame⟩ := hsame
  obtain ⟨hscope, hplace, htype⟩ : r'.scope = r.scope ∧ r'.place = r.place ∧ r'.type = r.type := by
    simpa [Resolved.meaning] using hsame
  -- The place is the same, and the variable there has got the mark.
  obtain ⟨v, hv, -⟩ := exists_of_resolve h
  obtain ⟨v', hv', hfound⟩ := exists_of_resolve hr'
  rw [hplace, variableAt?_markInitialized hv] at hv'
  obtain rfl := Option.some.inj hv'
  have hmark : r'.initialized = true := by
    rw [hfound]
    rfl
  rw [hr', ← hscope, ← hplace, ← htype, ← hmark]

/-- For every table that was put together without a cycle, and every name in every method: the name stands for
nothing if and only if the method has no variable, and the class and the classes above it no field of that name.
Otherwise a variable of that name is found, with the type and the mark that were read, where the place leads.
Whatever is done to the variable at the place is done to this one, and nothing else is changed. After it was
marked it is found there with the mark, and every name in every method stands for what it stood for, in the same
scope, at the same place and with the same type. -/
theorem written_where_read (hb : t.Built) (ha : t.Acyclic) (cx : Context) (name : String) :
    (t.resolve cx name = none ↔ ¬ t.Sees cx name) ∧
    ∀ r, t.resolve cx name = some r →
      ∃ v, t.variableAt? r.place name = some v ∧
        v.name = name ∧ v.type = r.type ∧ v.initialized = r.initialized ∧
        (∀ f, t.Replaced r.place v (f v) (t.modifyVariableAt r.place name f)) ∧
        t.Replaced r.place v { v with initialized := true } (t.markInitialized r.place name) ∧
        (t.markInitialized r.place name).variableAt? r.place name = some { v with initialized := true } ∧
        (t.markInitialized r.place name).resolve cx name = some { r with initialized := true } ∧
        ∀ cx' name', ((t.markInitialized r.place name).resolve cx' name').map Resolved.meaning =
          (t.resolve cx' name').map Resolved.meaning := by
  refine ⟨hb.resolve_eq_none_iff ha, fun r hr => ?_⟩
  obtain ⟨v, hv, hfound⟩ := exists_of_resolve hr
  have htype : v.type = r.type := by
    rw [hfound]
    rfl
  have hmark : v.initialized = r.initialized := by
    rw [hfound]
    rfl
  exact ⟨v, hv, hb.name_of_variableAt? hv, htype, hmark, replaced_modifyVariableAt hv,
    replaced_modifyVariableAt hv _, variableAt?_markInitialized hv, resolve_markInitialized hr,
    t.meaning_resolve_markInitialized r.place name⟩

/-- `A` was first declared below `B`, and then replaced by a class with two fields `x`. The method `m` of `B` has
a parameter and a local of one name. -/
def repeatedNames : ClassTable :=
  let first : ClassInfo := { name := "A", parent := some "B" }
  let second : ClassInfo := ({ name := "A", parent := none } : ClassInfo)
    |>.edit (.addField { name := "x", type := .int, initialized := false })
    |>.edit (.addField { name := "x", type := .boolean, initialized := true })
  let method : MethodInfo := ({ name := "m", owner := "B", returnType := .int } : MethodInfo)
    |>.addParam { name := "y", type := .int, initialized := true }
  let below : ClassInfo := ({ name := "B", parent := some "A" } : ClassInfo) |>.edit (.addMethod method)
  let extended := ((ClassTable.empty.declare first).declare below).store second
  extended.modify "B" (·.edit (.addLocal "m" { name := "y", type := .intArray, initialized := false }))

theorem written_where_read_repeatedNames :
    repeatedNames.Built ∧ repeatedNames.Acyclic ∧
    repeatedNames.resolve ⟨"B", "m"⟩ "y" =
      some ⟨.method, .inMethod "B" "m", .intArray, false⟩ ∧
    ¬ repeatedNames.Sees ⟨"B", "m"⟩ "z" ∧
    repeatedNames.resolve ⟨"B", "m"⟩ "x" = some ⟨.inheritedFields, .inClass "A", .int, false⟩ ∧
    ∃ v : Variable, v.name = "x" ∧ v.type = .int ∧ v.initialized = false ∧
      repeatedNames.Replaced (.inClass "A") v { v with initialized := true }
        (repeatedNames.markInitialized (.inClass "A") "x") := by
  have hbuilt : repeatedNames.Built := by
    refine .edit "B" (.store (.declare (.declare .empty (.new _ _)) ?_) ?_) trivial
    · exact .edit (.new _ _) (.addParam _ (.new _ _ _))
    · exact .edit (.edit (.new _ _) trivial) trivial
  have hacyclic : repeatedNames.Acyclic :=
    acyclic_of_rank (fun name => if name = "B" then 1 else 0) (by decide)
  have hx : repeatedNames.resolve ⟨"B", "m"⟩ "x" =
      some ⟨.inheritedFields, .inClass "A", .int, false⟩ := by decide
  have hz := (written_where_read hbuilt hacyclic ⟨"B", "m"⟩ "z").1.1 (by decide)
  obtain ⟨v, -, hname, htype, hmark, -, hreplaced, -⟩ :=
    (written_where_read hbuilt hacyclic ⟨"B", "m"⟩ "x").2 _ hx
  exact ⟨hbuilt, hacyclic, by decide, hz, hx, v, hname, htype, hmark, hreplaced⟩

end ClassTable

end ClassCheck
