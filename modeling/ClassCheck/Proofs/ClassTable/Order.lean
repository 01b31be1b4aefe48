import ClassCheck.ClassTable.Ancestors

/-!
# Tables in order of declaration

A class is declared after its parent. So the way up from a class comes to an end, and the bound on
the number of ancestors is never met: the ancestors of a class are its parent and the ancestors of
that one.
-/

namespace ClassCheck.ClassTable

variable {t : ClassTable} {name parent : String} {c : ClassInfo}

theorem name_of_get? (h : t.get? name = some c) : c.name = name := by
  simpa using List.find?_some h

/-- The parent that the class of this name has, if there is such a class. -/
def parent? (t : ClassTable) (name : String) : Option String := (t.get? name).bind (·.parent)

/-- The second class is reached from the first by one or more steps from a class to its parent. -/
def Descends (t : ClassTable) : String → String → Prop :=
  Relation.TransGen fun name parent => t.parent? name = some parent

/-- One entry for each declared class, in the order of declaration, and every class after its
parent. The types are the basic ones and the classes. -/
structure Ordered (t : ClassTable) : Prop where
  names : t.entries.map (·.name) = t.order
  nodup : t.order.Nodup
  types : t.types = [.int, .boolean, .intArray] ++ t.order.map .object
  parents : ∀ before name after, t.order = before ++ name :: after →
    ∀ parent, t.parent? name = some parent → parent ∈ before

namespace Ordered

theorem isSome_get?_iff (h : t.Ordered) : (t.get? name).isSome ↔ name ∈ t.order := by
  rw [← h.names, get?, List.find?_isSome]
  simp

theorem contains_iff (h : t.Ordered) : t.contains name = true ↔ name ∈ t.order :=
  h.isSome_get?_iff

theorem isKnownType_object_iff (h : t.Ordered) :
    t.isKnownType (.object name) = true ↔ t.contains name = true := by
  rw [h.contains_iff, isKnownType, h.types]
  simp

theorem mem_order_of_parent (h : t.Ordered) (hp : t.parent? name = some parent) :
    name ∈ t.order := by
  obtain ⟨c, hc, -⟩ := Option.bind_eq_some_iff.1 hp
  rw [← h.isSome_get?_iff, hc]
  rfl

theorem parent_mem_take (h : t.Ordered) {k : Nat} (hn : name ∈ t.order.take (k + 1))
    (hp : t.parent? name = some parent) : parent ∈ t.order.take k := by
  obtain ⟨before, after, hsplit⟩ := List.append_of_mem hn
  have horder : t.order = before ++ name :: (after ++ t.order.drop (k + 1)) := by
    rw [← List.cons_append, ← List.append_assoc, ← hsplit, List.take_append_drop]
  have hlen : before.length ≤ k := by
    have := congrArg List.length hsplit
    rw [List.length_take, List.length_append, List.length_cons] at this
    omega
  have hbefore : parent ∈ t.order.take before.length := by
    rw [horder, List.take_left]
    exact h.parents _ _ _ horder _ hp
  rw [← Nat.min_eq_left hlen, ← List.take_take] at hbefore
  exact List.mem_of_mem_take hbefore

theorem parent_mem_of_append (h : t.Ordered) {done rest : List String}
    (horder : t.order = done ++ rest) (hn : name ∈ done) (hp : t.parent? name = some parent) :
    parent ∈ done := by
  obtain ⟨before, after, rfl⟩ := List.append_of_mem hn
  rw [List.append_assoc] at horder
  exact List.mem_append_left _ (h.parents _ _ _ horder _ hp)

theorem exists_parent (h : t.Ordered) (hp : t.parent? name = some parent) :
    ∃ c, t.get? parent = some c := by
  have hmem : parent ∈ t.order :=
    h.parent_mem_of_append (List.append_nil _).symm (h.mem_order_of_parent hp) hp
  exact Option.isSome_iff_exists.1 (h.isSome_get?_iff.2 hmem)

/-- What holds of a class whenever it holds of its parent holds of all classes. -/
theorem induction (h : t.Ordered) {P : String → Prop}
    (step : ∀ name, (∀ parent, t.parent? name = some parent → P parent) → P name) (name : String) :
    P name := by
  have hall : ∀ k, ∀ n ∈ t.order.take k, P n := by
    intro k
    induction k with
    | zero => simp
    | succ k ih => exact fun n hn => step n fun p hp => ih p (h.parent_mem_take hn hp)
  apply step
  intro p hp
  obtain ⟨c, hc⟩ := h.exists_parent hp
  have hmem : p ∈ t.order := h.isSome_get?_iff.1 (by rw [hc]; rfl)
  exact hall t.order.length p (by rwa [List.take_length])

end Ordered

/-! ## Ancestors -/

theorem chainWithin_none (t : ClassTable) (bound : Nat) : t.chainWithin bound none = [] := by
  cases bound <;> rfl

namespace Ordered

/-- Past the classes that can still follow, the bound does not matter. -/
theorem chainWithin_eq (h : t.Ordered) {k : Nat} {next : Option String}
    (hnext : ∀ name, next = some name → name ∈ t.order.take k) {bound bound' : Nat}
    (hb : k ≤ bound) (hb' : k ≤ bound') : t.chainWithin bound next = t.chainWithin bound' next := by
  induction k generalizing next bound bound' with
  | zero =>
    cases next with
    | none => rw [chainWithin_none, chainWithin_none]
    | some name => simpa using hnext name rfl
  | succ k ih =>
    obtain ⟨bound, rfl⟩ : ∃ b, bound = b + 1 := ⟨bound - 1, by omega⟩
    obtain ⟨bound', rfl⟩ : ∃ b, bound' = b + 1 := ⟨bound' - 1, by omega⟩
    cases hc : next.bind t.get? with
    | none => simp only [chainWithin, hc]
    | some c =>
      obtain ⟨name, rfl, hget⟩ := Option.bind_eq_some_iff.1 hc
      have hparent : ∀ parent, c.parent = some parent → parent ∈ t.order.take k := by
        intro parent hp
        apply h.parent_mem_take (hnext name rfl)
        rw [parent?, hget]
        exact hp
      simp only [chainWithin, hc]
      rw [ih hparent (Nat.le_of_succ_le_succ hb) (Nat.le_of_succ_le_succ hb')]

theorem ancestors_of_parent (h : t.Ordered) (hp : t.parent? name = some parent)
    (hc : t.get? parent = some c) : t.ancestors name = c :: t.ancestors parent := by
  have hlen : t.entries.length = t.order.length := by
    rw [← h.names, List.length_map]
  have hmem : parent ∈ t.order := h.isSome_get?_iff.1 (by rw [hc]; rfl)
  obtain ⟨n, hn⟩ : ∃ n, t.order.length = n + 1 :=
    ⟨t.order.length - 1, by have := List.length_pos_of_mem hmem; omega⟩
  have hnext : ∀ name, c.parent = some name → name ∈ t.order.take n := by
    intro name hname
    rw [← List.take_length (l := t.order), hn] at hmem
    exact h.parent_mem_take hmem (by rw [parent?, hc]; exact hname)
  unfold parent? at hp
  rw [ancestors, hp, hlen, hn, chainWithin, Option.bind_some, hc]
  rw [ancestors, hc, hlen, hn, Option.bind_some,
    ← h.chainWithin_eq hnext (Nat.le_refl n) (Nat.le_add_right n 1)]

end Ordered

theorem ancestors_of_none (hp : t.parent? name = none) : t.ancestors name = [] := by
  unfold parent? at hp
  rw [ancestors, hp, chainWithin_none]

/-! ## Methods -/

theorem method?_of_get? (hc : t.get? name = some c) (method : String) :
    t.method? name method = (c.method? method).or (t.inheritedMethod? name method) := by
  simp [method?, hc]

theorem inheritedMethod?_of_none (hp : t.parent? name = none) (method : String) :
    t.inheritedMethod? name method = none := by
  rw [inheritedMethod?, ancestors_of_none hp]
  rfl

theorem Ordered.inheritedMethod?_of_parent (h : t.Ordered) (hp : t.parent? name = some parent)
    (method : String) : t.inheritedMethod? name method = t.method? parent method := by
  obtain ⟨c, hc⟩ := h.exists_parent hp
  rw [method?_of_get? hc, inheritedMethod?, h.ancestors_of_parent hp hc, List.findSome?_cons,
    inheritedMethod?]
  cases c.method? method <;> rfl

theorem Ordered.method?_congr {t' : ClassTable} (h : t.Ordered) (h' : t'.Ordered)
    {F : String → Prop} (hsame : ∀ n, F n → t'.get? n = t.get? n)
    (hup : ∀ n p, F n → t.parent? n = some p → F p) {name : String} (hname : F name)
    (method : String) : t'.method? name method = t.method? name method := by
  induction name using h.induction with
  | step name ih =>
    have hget := hsame name hname
    cases hc : t.get? name with
    | none => simp [method?, hget, hc]
    | some c =>
      rw [method?_of_get? hc, method?_of_get? (hget.trans hc)]
      have hparent : t'.parent? name = t.parent? name := by rw [parent?, parent?, hget]
      cases hp : t.parent? name with
      | none => rw [inheritedMethod?_of_none hp, inheritedMethod?_of_none (hparent.trans hp)]
      | some parent =>
        rw [h.inheritedMethod?_of_parent hp, h'.inheritedMethod?_of_parent (hparent.trans hp),
          ih parent hp (hup name parent hname hp)]

theorem Ordered.inheritedMethod?_congr {t' : ClassTable} (h : t.Ordered) (h' : t'.Ordered)
    {before after : List String} (horder : t.order = before ++ name :: after)
    (hsame : ∀ n ∈ before, t'.get? n = t.get? n) (hparent : t'.parent? name = t.parent? name)
    (method : String) : t'.inheritedMethod? name method = t.inheritedMethod? name method := by
  cases hp : t.parent? name with
  | none => rw [inheritedMethod?_of_none hp, inheritedMethod?_of_none (hparent.trans hp)]
  | some parent =>
    rw [h.inheritedMethod?_of_parent hp, h'.inheritedMethod?_of_parent (hparent.trans hp)]
    exact h.method?_congr h' hsame (fun _ _ => h.parent_mem_of_append horder)
      (h.parents _ _ _ horder _ hp) method

/-! ## Keeping the order -/

theorem map_name_put (c : ClassInfo) (ds : List ClassInfo) :
    (put c ds).map (·.name) =
      if c.name ∈ ds.map (·.name) then ds.map (·.name) else ds.map (·.name) ++ [c.name] := by
  induction ds with
  | nil => rfl
  | cons d ds ih =>
    unfold put
    by_cases hd : d.name = c.name
    · simp [hd]
    · have hne : c.name ≠ d.name := Ne.symm hd
      rw [if_neg hd, List.map_cons, ih, List.map_cons]
      by_cases hmem : c.name ∈ ds.map (·.name)
      · rw [if_pos hmem, if_pos (List.mem_cons_of_mem _ hmem)]
      · rw [if_neg hmem, if_neg (List.not_mem_cons_of_ne_of_not_mem hne hmem), List.cons_append]

theorem Ordered.empty : ClassTable.empty.Ordered where
  names := rfl
  nodup := List.nodup_nil
  types := rfl
  parents := by simp [ClassTable.empty]

theorem Ordered.declare (h : t.Ordered) (hnew : t.contains c.name = false)
    (hparent : ∀ parent, c.parent = some parent → t.contains parent = true) :
    (t.declare c).Ordered := by
  have hmem : c.name ∉ t.order := by
    rw [← h.contains_iff, hnew]
    simp
  constructor
  · change (put c t.entries).map (·.name) = t.order ++ [c.name]
    rw [map_name_put, h.names, if_neg hmem]
  · refine List.nodup_append.2 ⟨h.nodup, by simp, ?_⟩
    rintro a ha b hb rfl
    exact hmem (List.mem_singleton.1 hb ▸ ha)
  · change t.types ++ [.object c.name] = _ ++ (t.order ++ [c.name]).map .object
    rw [h.types, List.map_append, List.append_assoc]
    rfl
  · intro before name after horder parent hp
    change t.order ++ [c.name] = _ at horder
    rw [parent?, get?_declare] at hp
    rcases List.eq_nil_or_concat after with rfl | ⟨after, last, rfl⟩
    · obtain ⟨rfl, hname⟩ := List.append_inj' horder rfl
      obtain rfl : c.name = name := by simpa using hname
      rw [if_pos rfl] at hp
      exact h.contains_iff.1 (hparent parent hp)
    · rw [List.concat_eq_append, ← List.cons_append, ← List.append_assoc] at horder
      obtain ⟨horder, -⟩ := List.append_inj' horder rfl
      have hne : c.name ≠ name := by
        rintro rfl
        exact hmem (by rw [horder]; simp)
      rw [if_neg hne] at hp
      exact h.parents before name after horder parent hp

theorem Ordered.store (h : t.Ordered) {d : ClassInfo} (hd : t.get? c.name = some d)
    (hp : c.parent = d.parent) : (t.store c).Ordered ∧ (t.store c).parent? = t.parent? := by
  have hparent : (t.store c).parent? = t.parent? := by
    funext name
    rw [parent?, parent?, get?_store]
    split
    · next hname => rw [← hname, hd, Option.bind_some, Option.bind_some, hp]
    · rfl
  have hmem : c.name ∈ t.order := h.isSome_get?_iff.1 (by rw [hd]; rfl)
  refine ⟨⟨?_, h.nodup, h.types, ?_⟩, hparent⟩
  · change (put c t.entries).map (·.name) = t.order
    rw [map_name_put, h.names, if_pos hmem]
  · rw [hparent]
    exact h.parents

end ClassCheck.ClassTable
