import ClassCheck.Proofs.Declare.Distinct

/-!
# Looking things up, as rules

Which method a call means, which variable a name means and which class is above which, said without a
way to find out. In the table of a program every search finds exactly what these rules say.
-/

namespace ClassCheck

/-! ## Members by name -/

theorem find?_iff_of_nodup {α : Type} {key : α → String} {xs : List α} (h : (xs.map key).Nodup)
    {name : String} {x : α} : xs.find? (key · == name) = some x ↔ x ∈ xs ∧ key x = name := by
  constructor
  · intro hx
    exact ⟨List.mem_of_find?_eq_some hx, by simpa using List.find?_some hx⟩
  · rintro ⟨hx, rfl⟩
    exact find?_of_nodup h hx

theorem MethodInfo.Indexed.findVar?_iff {m : MethodInfo} (h : m.Indexed) {name : String}
    {v : Variable} : m.findVar? name = some v ↔ v ∈ m.params ++ m.locals ∧ v.name = name := by
  rw [findVar?_eq_bind, Option.bind_eq_some_iff, mem_variables_iff]
  constructor
  · rintro ⟨slot, hslot, hv⟩
    rw [h, hv] at hslot
    exact ⟨⟨slot, hv⟩, by simpa using hslot⟩
  · rintro ⟨⟨slot, hv⟩, rfl⟩
    exact ⟨slot, (h _ _).2 (by rw [hv, Option.map_some]), hv⟩

namespace ClassTable

variable {t : ClassTable} {cx : Context} {name : String}

/-! ## The nearest class that has something -/

/-- Something that a class has, or if it has none, something that the nearest ancestor has. -/
inductive Nearest {α : Type} (t : ClassTable) (has : ClassInfo → α → Prop) : String → α → Prop
  | own {name : String} {c : ClassInfo} {a : α} : t.get? name = some c → has c a → Nearest t has name a
  | inherited {name parent : String} {c : ClassInfo} {a : α} : t.get? name = some c →
      (∀ b, ¬ has c b) → c.parent = some parent → Nearest t has parent a → Nearest t has name a

theorem Ordered.findSome?_ancestors {α : Type} (h : t.Ordered) {parent : String} {q : ClassInfo}
    (hp : t.parent? name = some parent) (hq : t.get? parent = some q) (find : ClassInfo → Option α) :
    (t.ancestors name).findSome? find = (find q).or ((t.ancestors parent).findSome? find) := by
  rw [h.ancestors_of_parent hp hq, List.findSome?_cons]
  cases find q <;> rfl

theorem Ordered.nearest_iff {α : Type} (h : t.Ordered) {has : ClassInfo → α → Prop}
    {find : ClassInfo → Option α}
    (hfind : ∀ name c, t.get? name = some c → ∀ a, find c = some a ↔ has c a) {a : α} :
    t.Nearest has name a ↔
      ∃ c, t.get? name = some c ∧ (find c).or ((t.ancestors name).findSome? find) = some a := by
  -- On both sides, what a class without an own one has is what its parent has.
  induction name using h.induction with
  | step name ih =>
    constructor
    · intro hnearest
      cases hnearest with
      | @own _ c _ hc ha =>
        refine ⟨c, hc, ?_⟩
        rw [(hfind name c hc a).2 ha, Option.some_or]
      | @inherited _ parent c _ hc hnone hparent habove =>
        have hp : t.parent? name = some parent := by rw [parent?, hc, Option.bind_some, hparent]
        obtain ⟨q, hq, hfound⟩ := (ih parent hp).1 habove
        refine ⟨c, hc, ?_⟩
        have hown : find c = none := Option.eq_none_iff_forall_ne_some.2 fun b hb =>
          hnone b ((hfind name c hc b).1 hb)
        rwa [hown, Option.none_or, h.findSome?_ancestors hp hq]
    · rintro ⟨c, hc, hfound⟩
      cases hown : find c with
      | some b =>
        rw [hown, Option.some_or] at hfound
        exact .own hc ((hfind name c hc a).1 (hown.trans hfound))
      | none =>
        have hnone : ∀ b, ¬ has c b := by
          intro b hb
          rw [(hfind name c hc b).2 hb] at hown
          cases hown
        rw [hown, Option.none_or] at hfound
        cases hp : t.parent? name with
        | none =>
          rw [ancestors_of_none hp] at hfound
          cases hfound
        | some parent =>
          obtain ⟨q, hq⟩ := h.exists_parent hp
          rw [h.findSome?_ancestors hp hq] at hfound
          have hparent : c.parent = some parent := by rwa [parent?, hc, Option.bind_some] at hp
          exact .inherited hc hnone hparent ((ih parent hp).2 ⟨q, hq, hfound⟩)

/-! ## Methods -/

/-- The method that a name means for the objects of a class. -/
def MethodOf (t : ClassTable) (className method : String) : MethodInfo → Prop :=
  t.Nearest (fun c m => m ∈ c.methods ∧ m.name = method) className

theorem Distinct.of_get? (h : t.Distinct) {c : ClassInfo} (hc : t.get? name = some c) : c.Distinct :=
  h.members c (List.mem_of_find?_eq_some hc)

theorem Ordered.method?_iff (h : t.Ordered) (hd : t.Distinct) {method : String} {m : MethodInfo} :
    t.method? name method = some m ↔ t.MethodOf name method m := by
  have hfind : ∀ n c, t.get? n = some c → ∀ m, c.method? method = some m ↔
      m ∈ c.methods ∧ m.name = method :=
    fun _ _ hc _ => find?_iff_of_nodup (hd.of_get? hc).methods
  rw [MethodOf, h.nearest_iff hfind]
  exact Option.bind_eq_some_iff

/-! ## Variables -/

/-- A variable of the method itself. -/
def InMethod (t : ClassTable) (cx : Context) (name : String) (v : Variable) : Prop :=
  ∃ c m, t.get? cx.className = some c ∧ (m ∈ c.methods ∧ m.name = cx.method) ∧
    v ∈ m.params ++ m.locals ∧ v.name = name

/-- The variable that a name means in a method: one of the method, or else a field of the nearest class
that has such a field. -/
def Means (t : ClassTable) (cx : Context) (name : String) (v : Variable) : Prop :=
  t.InMethod cx name v ∨ (∀ w, ¬ t.InMethod cx name w) ∧
    t.Nearest (fun c v => v ∈ c.fields ∧ v.name = name) cx.className v

theorem Distinct.variableAt?_iff (hd : t.Distinct) {v : Variable} :
    t.variableAt? (.inMethod cx.className cx.method) name = some v ↔ t.InMethod cx name v := by
  simp only [variableAt?, InMethod, Option.bind_eq_bind, Option.bind_eq_some_iff]
  constructor
  · rintro ⟨c, hc, m, hm, hv⟩
    have hm := (find?_iff_of_nodup (hd.of_get? hc).methods).1 hm
    exact ⟨c, m, hc, hm, ((hd.of_get? hc).indexed m hm.1).findVar?_iff.1 hv⟩
  · rintro ⟨c, m, hc, hm, hv⟩
    exact ⟨c, hc, m, (find?_iff_of_nodup (hd.of_get? hc).methods).2 hm,
      ((hd.of_get? hc).indexed m hm.1).findVar?_iff.2 hv⟩

theorem map_type_resolve (t : ClassTable) (cx : Context) (name : String) :
    (t.resolve cx name).map (·.type) =
      ((t.variableAt? (.inMethod cx.className cx.method) name).or
        ((t.get? cx.className).bind fun c =>
          (c.field? name).or ((t.ancestors cx.className).findSome? (·.field? name)))).map (·.type) := by
  have hmethod : (t.methodVariable? cx name).map (·.type) =
      (t.variableAt? (.inMethod cx.className cx.method) name).map (·.type) := by
    rw [methodVariable?_eq, Option.map_map]
    rfl
  have hinherited : (t.inheritedField? cx name).map (·.type) =
      ((t.ancestors cx.className).findSome? (·.field? name)).map (·.type) := by
    simp [inheritedField?, List.map_findSome?, Function.comp_def, resolved]
  rw [resolve, Option.map_or, Option.map_or, Option.map_or, hmethod, hinherited]
  congr 1
  cases hc : t.get? cx.className with
  | none =>
    have hp : t.parent? cx.className = none := by rw [parent?, hc, Option.bind_none]
    simp [ownField?, hc, ancestors_of_none hp]
  | some c =>
    have hown : (t.ownField? cx name).map (·.type) = (c.field? name).map (·.type) := by
      rw [ownField?_eq, Option.map_map, variableAt?, hc]
      rfl
    rw [hown, Option.bind_some, Option.map_or]

theorem Ordered.resolve_iff (h : t.Ordered) (hd : t.Distinct) {ty : Ty} :
    (t.resolve cx name).map (·.type) = some ty ↔ ∃ v, t.Means cx name v ∧ v.type = ty := by
  have hfind : ∀ n c, t.get? n = some c → ∀ v, c.field? name = some v ↔
      v ∈ c.fields ∧ v.name = name :=
    fun _ _ hc _ => find?_iff_of_nodup (hd.of_get? hc).fields
  rw [map_type_resolve, Option.map_eq_some_iff]
  refine exists_congr fun v => and_congr_left fun _ => ?_
  rw [Option.or_eq_some_iff, Means, Option.eq_none_iff_forall_ne_some, h.nearest_iff hfind]
  simp only [ne_eq, hd.variableAt?_iff, Option.bind_eq_some_iff]

theorem Ordered.resolve_eq_none_iff (h : t.Ordered) (hd : t.Distinct) :
    t.resolve cx name = none ↔ ∀ v, ¬ t.Means cx name v := by
  rw [← Option.map_eq_none_iff (f := (·.type)), Option.eq_none_iff_forall_ne_some]
  simp only [ne_eq, h.resolve_iff hd, not_exists, not_and]
  exact ⟨fun hnone v hv => hnone v.type v hv rfl, fun hnone _ v hv _ => hnone v hv⟩

/-! ## Assignment -/

/-- A value of type `value` can stand for one of type `target`. -/
def Conforms (t : ClassTable) (target value : Ty) : Prop :=
  target = value ∨ ∃ ancestor className, target = .object ancestor ∧ value = .object className ∧
    t.Descends className ancestor

theorem descends_iff_of_parent {parent ancestor : String} (hp : t.parent? name = some parent) :
    t.Descends name ancestor ↔ parent = ancestor ∨ t.Descends parent ancestor := by
  constructor
  · intro hd
    induction hd with
    | single h => exact .inl (Option.some.inj (hp.symm.trans h))
    | tail _ h ih =>
      rcases ih with rfl | ih
      · exact .inr (.single h)
      · exact .inr (.tail ih h)
  · rintro (rfl | hd)
    · exact .single hp
    · exact .trans (.single hp) hd

theorem not_descends_of_none {ancestor : String} (hp : t.parent? name = none) :
    ¬ t.Descends name ancestor := by
  intro hd
  induction hd with
  | single h => cases hp.symm.trans h
  | tail _ _ ih => exact ih

theorem Ordered.isSubclass_iff (h : t.Ordered) {ancestor : String} :
    t.isSubclass name ancestor = true ↔ t.Descends name ancestor := by
  induction name using h.induction with
  | step name ih =>
    unfold isSubclass
    cases hp : t.parent? name with
    | none => simp [ancestors_of_none hp, not_descends_of_none hp]
    | some parent =>
      obtain ⟨q, hq⟩ := h.exists_parent hp
      rw [descends_iff_of_parent hp, ← ih parent hp, h.ancestors_of_parent hp hq, List.any_cons,
        name_of_get? hq, Bool.or_eq_true, beq_iff_eq]
      rfl

theorem Ordered.isAssignable_iff (h : t.Ordered) {target value : Ty} :
    t.isAssignable target value = true ↔ t.Conforms target value := by
  unfold isAssignable Conforms
  rw [Bool.or_eq_true, beq_iff_eq]
  refine or_congr_right ?_
  split
  · simp [h.isSubclass_iff]
  · next hne =>
    refine ⟨nofun, ?_⟩
    rintro ⟨a, c, rfl, rfl, -⟩
    exact (hne a c rfl rfl).elim

end ClassTable

end ClassCheck
