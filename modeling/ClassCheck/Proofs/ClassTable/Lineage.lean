import ClassCheck.Proofs.Typing.Grounded

/-!
# Searching upwards

A method is looked for in a class and then in the classes above it, and a name in the method and then in
the same classes. So what is found depends on the way up and on what stands at each place on it.
-/

namespace ClassCheck

theorem findSome?_congr_of_mem {α β : Type} {f g : α → Option β} {as : List α}
    (h : ∀ a ∈ as, f a = g a) : as.findSome? f = as.findSome? g := by
  induction as with
  | nil => rfl
  | cons a as ih =>
    rw [List.forall_mem_cons] at h
    rw [List.findSome?_cons, List.findSome?_cons, h.1, ih h.2]

namespace ClassTable

variable {t t' : ClassTable} {name : String} {cx : Context}

/-- The names of a class and of its ancestors, from the class upwards. -/
def lineage (t : ClassTable) (name : String) : List String :=
  name :: (t.ancestors name).map (·.name)

theorem get?_of_mem_ancestors {c : ClassInfo} (h : c ∈ t.ancestors name) :
    t.get? c.name = some c := by
  obtain ⟨other, hother⟩ := exists_of_mem_ancestors h
  rwa [name_of_get? hother]

theorem ancestors_of_get?_none (h : t.get? name = none) : t.ancestors name = [] :=
  ancestors_of_none (by rw [parent?, h, Option.bind_none])

theorem findSome?_map_name_ancestors {α : Type} (find : ClassInfo → Option α) (name : String) :
    ((t.ancestors name).map (·.name)).findSome? (fun n => (t.get? n).bind find) =
      (t.ancestors name).findSome? find := by
  rw [List.findSome?_map]
  apply findSome?_congr_of_mem
  intro c hc
  rw [Function.comp_apply, get?_of_mem_ancestors hc, Option.bind_some]

theorem method?_eq_findSome? (t : ClassTable) (name method : String) :
    t.method? name method =
      (t.lineage name).findSome? fun n => (t.get? n).bind (·.method? method) := by
  rw [lineage, List.findSome?_cons, findSome?_map_name_ancestors]
  cases hc : t.get? name with
  | none =>
    rw [ancestors_of_get?_none hc, method?, hc]
    rfl
  | some c =>
    rw [method?_of_get? hc, Option.bind_some, inheritedMethod?]
    cases c.method? method <;> rfl

/-! ## Names -/

/-- Where a name is looked for in a method, in this order. -/
def places (t : ClassTable) (cx : Context) : List Place :=
  .inMethod cx.className cx.method :: (t.lineage cx.className).map .inClass

theorem map_place_type_resolve (t : ClassTable) (cx : Context) (name : String) :
    (t.resolve cx name).map (fun r => (r.place, r.type)) =
      (t.places cx).findSome? fun place =>
        (t.variableAt? place name).map fun v => (place, v.type) := by
  have hmethod : (t.methodVariable? cx name).map (fun r => (r.place, r.type)) =
      (t.variableAt? (.inMethod cx.className cx.method) name).map fun v =>
        (.inMethod cx.className cx.method, v.type) := by
    rw [methodVariable?_eq, Option.map_map]
    rfl
  have hown : (t.ownField? cx name).map (fun r => (r.place, r.type)) =
      (t.variableAt? (.inClass cx.className) name).map fun v =>
        (.inClass cx.className, v.type) := by
    rw [ownField?_eq, Option.map_map]
    rfl
  have hinherited : (t.inheritedField? cx name).map (fun r => (r.place, r.type)) =
      ((t.ancestors cx.className).map (·.name)).findSome? fun n =>
        (t.variableAt? (.inClass n) name).map fun v => (.inClass n, v.type) := by
    rw [inheritedField?, List.map_findSome?, List.findSome?_map]
    apply findSome?_congr_of_mem
    intro c hc
    simp only [Function.comp_apply, variableAt?, get?_of_mem_ancestors hc, Option.bind_eq_bind,
      Option.bind_some, Option.map_map]
    rfl
  rw [resolve, Option.map_or, Option.map_or, hmethod, hown, hinherited, places, lineage,
    List.findSome?_cons, List.map_cons, List.findSome?_cons,
    List.findSome?_map (f := Place.inClass), Function.comp_def]
  cases t.variableAt? (.inMethod cx.className cx.method) name with
  | some v => rfl
  | none => cases t.variableAt? (.inClass cx.className) name <;> rfl

theorem variableAt?_of_resolve {r : Resolved} (h : t.resolve cx name = some r) :
    ∃ v, t.variableAt? r.place name = some v ∧ v.type = r.type := by
  have hsearch := t.map_place_type_resolve cx name
  rw [h, Option.map_some] at hsearch
  obtain ⟨place, -, hfound⟩ := List.exists_of_findSome?_eq_some hsearch.symm
  obtain ⟨v, hv, heq⟩ := Option.map_eq_some_iff.1 hfound
  obtain ⟨rfl, htype⟩ := Prod.mk.inj heq
  exact ⟨v, hv, htype⟩

/-! ## Tables with the same ways up -/

/-- The same classes, with the same parents. -/
structure SameLinks (t t' : ClassTable) : Prop where
  size : t'.entries.length = t.entries.length
  parents : ∀ name, (t'.get? name).map (·.parent) = (t.get? name).map (·.parent)

namespace SameLinks

theorem contains_eq (h : t.SameLinks t') (name : String) : t'.contains name = t.contains name := by
  rw [contains, ← Option.isSome_map (f := fun c : ClassInfo => c.parent), h.parents, Option.isSome_map,
    contains]

theorem map_name_chainWithin (h : t.SameLinks t') (bound : Nat) (next : Option String) :
    (t'.chainWithin bound next).map (·.name) = (t.chainWithin bound next).map (·.name) := by
  induction bound generalizing next with
  | zero => rfl
  | succ bound ih =>
    cases next with
    | none => rfl
    | some name =>
      have hparent := h.parents name
      simp only [chainWithin, Option.bind_some]
      cases hc : t.get? name with
      | none =>
        rw [hc, Option.map_none, Option.map_eq_none_iff] at hparent
        simp only [hparent]
      | some c =>
        rw [hc, Option.map_some, Option.map_eq_some_iff] at hparent
        obtain ⟨c', hc', hsame⟩ := hparent
        simp only [hc', List.map_cons, ih, hsame, name_of_get? hc, name_of_get? hc']

theorem map_name_ancestors (h : t.SameLinks t') (name : String) :
    (t'.ancestors name).map (·.name) = (t.ancestors name).map (·.name) := by
  have hparent : (t'.get? name).bind (·.parent) = (t.get? name).bind (·.parent) := by
    have hjoin : ∀ t : ClassTable,
        (t.get? name).bind (·.parent) = ((t.get? name).map (·.parent)).bind id := by
      intro t
      cases t.get? name <;> rfl
    rw [hjoin, h.parents, ← hjoin]
  rw [ancestors, hparent, h.size, h.map_name_chainWithin, ancestors]

theorem lineage_eq (h : t.SameLinks t') (name : String) : t'.lineage name = t.lineage name := by
  rw [lineage, h.map_name_ancestors, lineage]

theorem places_eq (h : t.SameLinks t') (cx : Context) : t'.places cx = t.places cx := by
  rw [places, h.lineage_eq, places]

theorem isSubclass_eq (h : t.SameLinks t') (name ancestor : String) :
    t'.isSubclass name ancestor = t.isSubclass name ancestor := by
  have hnames : ∀ t : ClassTable, t.isSubclass name ancestor =
      ((t.ancestors name).map (·.name)).any (· == ancestor) := by
    intro t
    rw [List.any_map]
    rfl
  rw [hnames, h.map_name_ancestors, ← hnames]

theorem isAssignable_eq (h : t.SameLinks t') (target value : Ty) :
    t'.isAssignable target value = t.isAssignable target value := by
  unfold isAssignable
  simp only [h.isSubclass_eq]

end SameLinks

end ClassTable

end ClassCheck
