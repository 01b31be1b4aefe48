import ClassCheck.Proofs.Declare.Distinct

/-!
# When members are accepted

Whether a name is taken is looked up in what has been declared so far, and what a method overrides in the
classes that have been filled in so far. One statement for each step says what that comes to: the step
finds no error if and only if the declarations themselves are in order.
-/

namespace ClassCheck

/-- No name is declared twice in the class, and no method has the name of the class. -/
structure ClassDecl.NamesDistinct (d : ClassDecl) : Prop where
  fields : (d.fields.map (·.name.name)).Nodup
  methods : (d.methods.map (·.name.name)).Nodup
  notOwn : ∀ m ∈ d.methods, m.name.name ≠ d.name.name
  inMethods : ∀ m ∈ d.methods, ((m.params ++ m.locals).map (·.name.name)).Nodup

/-! ## Names that are taken -/

namespace MethodInfo

variable (m : MethodInfo) (v : Variable) (name : String)

theorem hasParam_addParam :
    (m.addParam v).hasParam name = (name == v.name || m.hasParam name) := by
  by_cases h : name = v.name
  · simp [hasParam, slot?_addParam, h]
  · simp [hasParam, slot?_addParam, h]

theorem hasVariable_addParam :
    (m.addParam v).hasVariable name = (name == v.name || m.hasVariable name) := by
  by_cases h : name = v.name
  · simp [hasVariable, slot?_addParam, h]
  · simp [hasVariable, slot?_addParam, h]

theorem hasVariable_addLocal :
    (m.addLocal v).hasVariable name = (name == v.name || m.hasVariable name) := by
  by_cases h : name = v.name
  · simp [hasVariable, slot?_addLocal, h]
  · simp [hasVariable, slot?_addLocal, h]

theorem hasVariable_foldl_addParam (f : VarDecl → Variable) (hf : ∀ d, (f d).name = d.name.name)
    (ds : List VarDecl) :
    (ds.foldl (fun m d => m.addParam (f d)) m).hasVariable name = true ↔
      name ∈ ds.map (·.name.name) ∨ m.hasVariable name = true := by
  induction ds generalizing m with
  | nil => simp
  | cons d ds ih =>
    rw [List.foldl_cons, ih, hasVariable_addParam, hf, List.map_cons, List.mem_cons, Bool.or_eq_true,
      beq_iff_eq, or_left_comm, or_assoc]

end MethodInfo

theorem MethodDecl.hasVariable_head (owner : String) (d : MethodDecl) (name : String) :
    (d.head owner).hasVariable name = true ↔ name ∈ d.params.map (·.name.name) := by
  rw [MethodDecl.head, MethodInfo.hasVariable_foldl_addParam _ _ _ fun _ => rfl]
  simp [MethodInfo.hasVariable, MethodInfo.slot?]

theorem MethodDecl.nodup_variables_iff (owner : String) (d : MethodDecl) :
    ((d.params ++ d.locals).map (·.name.name)).Nodup ↔
      (d.params.map (·.name.name)).Nodup ∧ (d.locals.map (·.name.name)).Nodup ∧
        ∀ v ∈ d.locals, (d.head owner).hasVariable v.name.name = false := by
  rw [List.map_append, List.nodup_append]
  refine and_congr_right fun _ => and_congr_right fun _ => ?_
  constructor
  · intro hdisjoint v hv
    rw [Bool.eq_false_iff, ne_eq, d.hasVariable_head]
    exact fun hmem => hdisjoint _ hmem _ (List.mem_map_of_mem hv) rfl
  · intro hnone a ha b hb hab
    obtain ⟨v, hv, rfl⟩ := List.mem_map.1 hb
    have hfree := hnone v hv
    rw [← hab, (d.hasVariable_head owner a).2 ha] at hfree
    cases hfree

theorem isSome_find?_concat {α : Type} (key : α → String) (xs : List α) (x : α) (name : String) :
    ((xs ++ [x]).find? (key · == name)).isSome =
      (name == key x || (xs.find? (key · == name)).isSome) := by
  rw [List.find?_append, Option.isSome_or, Bool.or_comm, List.find?_singleton]
  by_cases h : key x = name
  · simp [h]
  · simp [h, Ne.symm h]

namespace ClassTable

variable {t : ClassTable} {c : ClassInfo} {m : MethodInfo}

/-! ## Variables -/

theorem knownType_isOk_iff {ref : TypeRef} {name : String} :
    (∃ ty, t.knownType ref name = .ok ty) ↔ t.isKnownType (Ty.ofName ref.name) = true := by
  constructor
  · rintro ⟨ty, hty⟩
    exact (knownType_ok hty).2
  · intro hknown
    exact ⟨_, if_pos hknown⟩

/-- The loops over declarations differ in where they look a name up and in what they add. -/
theorem loop_isOk_iff {σ : Type} (has : σ → String → Bool)
    {loop : σ → List VarDecl → Except SemanticError σ} {e : σ → VarDecl → SemanticError}
    {add : σ → VarDecl → Ty → σ}
    (hnil : ∀ s, loop s [] = .ok s)
    (hcons : ∀ s d ds, loop s (d :: ds) = do
      let type ← t.knownType d.type d.name.name
      if has s d.name.name then .error (e s d) else loop (add s d type) ds)
    (hadd : ∀ s d ty name, has (add s d ty) name = (name == d.name.name || has s name))
    {ds : List VarDecl} {s : σ} :
    (∃ s', loop s ds = .ok s') ↔ t.KnowsAll ds ∧ (ds.map (·.name.name)).Nodup ∧
      ∀ d ∈ ds, has s d.name.name = false := by
  induction ds generalizing s with
  | nil => simp [hnil, KnowsAll]
  | cons d ds ih =>
    rw [hcons, Outcome.exists_bind_ok fun _ h => (knownType_ok h).1, knownType_isOk_iff]
    simp only [Outcome.ite_error_eq_ok, exists_and_left, Bool.not_eq_true]
    rw [ih]
    simp only [KnowsAll, List.forall_mem_cons, List.map_cons, List.nodup_cons, List.mem_map, hadd,
      Bool.or_eq_false_iff, beq_eq_false_iff_ne, ne_eq, not_exists, not_and]
    constructor
    · rintro ⟨hknown, hfree, hall, hnodup, hnone⟩
      exact ⟨⟨hknown, hall⟩, ⟨fun v hv => (hnone v hv).1, hnodup⟩, hfree, fun v hv => (hnone v hv).2⟩
    · rintro ⟨⟨hknown, hall⟩, ⟨hnew, hnodup⟩, hfree, hnone⟩
      exact ⟨hknown, hfree, hall, hnodup, fun v hv => ⟨hnew v hv, hnone v hv⟩⟩

theorem declareFields_isOk_iff {ds : List VarDecl} :
    (∃ c', t.declareFields c ds = .ok c') ↔ t.KnowsAll ds ∧ (ds.map (·.name.name)).Nodup ∧
      ∀ d ∈ ds, (c.field? d.name.name).isSome = false := by
  apply loop_isOk_iff (fun (c : ClassInfo) name => (c.field? name).isSome) (fun _ => rfl)
    (fun _ _ _ => rfl)
  intro c d ty name
  exact isSome_find?_concat Variable.name c.fields _ name

theorem declareParams_isOk_iff {ds : List VarDecl} :
    (∃ m', t.declareParams m ds = .ok m') ↔ t.KnowsAll ds ∧ (ds.map (·.name.name)).Nodup ∧
      ∀ d ∈ ds, m.hasParam d.name.name = false :=
  loop_isOk_iff MethodInfo.hasParam (fun _ => rfl) (fun _ _ _ => rfl)
    fun m _ _ name => m.hasParam_addParam _ name

theorem declareLocals_isOk_iff {ds : List VarDecl} :
    (∃ m', t.declareLocals m ds = .ok m') ↔ t.KnowsAll ds ∧ (ds.map (·.name.name)).Nodup ∧
      ∀ d ∈ ds, m.hasVariable d.name.name = false :=
  loop_isOk_iff MethodInfo.hasVariable (fun _ => rfl) (fun _ _ _ => rfl)
    fun m _ _ name => m.hasVariable_addLocal _ name

/-! ## Overriding -/

theorem paramMismatch?_of_same {method superclass : String} {position : Nat}
    {expected found : List Variable} {ds : List VarDecl}
    (h : expected.map (·.type) = found.map (·.type)) :
    paramMismatch? method superclass position expected found ds = none := by
  induction expected generalizing position found ds with
  | nil => rfl
  | cons e expected ih =>
    cases found with
    | nil => rfl
    | cons f found =>
      cases ds with
      | nil => rfl
      | cons d ds =>
        obtain ⟨htype, hrest⟩ := List.cons.inj h
        rw [paramMismatch?, if_pos htype, ih hrest]

theorem overrideError?_of_same {inherited : MethodInfo} {d : MethodDecl}
    (h : inherited.SameSignature m) : overrideError? inherited m d = none := by
  have hlen : inherited.params.length = m.params.length := by
    simpa using congrArg List.length h.2
  rw [overrideError?, if_neg (not_not_intro h.1), if_neg (not_not_intro hlen),
    paramMismatch?_of_same h.2]

theorem checkOverride_ok_iff {d : MethodDecl} (hlen : m.params.length = d.params.length) :
    t.checkOverride m d = .ok () ↔
      ∀ inherited, t.inheritedMethod? m.owner m.name = some inherited → inherited.SameSignature m := by
  refine ⟨fun hok inherited hi => checkOverride_ok hok hlen hi, fun hsame => ?_⟩
  have hnone : (t.inheritedMethod? m.owner m.name).bind (overrideError? · m d) = none := by
    cases hi : t.inheritedMethod? m.owner m.name with
    | none => rfl
    | some inherited => exact overrideError?_of_same (hsame inherited hi)
  rw [checkOverride, hnone]

/-! ## Methods and classes -/

theorem signature_head (owner : String) (d : MethodDecl) {inherited : MethodInfo} :
    inherited.SameSignature (d.head owner) ↔ inherited.SameSignature (d.declared owner) := by
  have hreturn : (d.head owner).returnType = (d.declared owner).returnType :=
    (MethodInfo.foldl_addLocal _ _ _).2.2.2.symm
  rw [MethodInfo.SameSignature, MethodInfo.SameSignature, hreturn, d.params_head, d.params_declared]

theorem checkOverride_head_iff {owner : String} {d : MethodDecl} :
    (∃ u, t.checkOverride (d.head owner) d = .ok u) ↔
      ∀ inherited, t.inheritedMethod? owner d.name.name = some inherited →
        inherited.SameSignature (d.declared owner) := by
  obtain ⟨-, -, hname, howner, -⟩ := MethodInfo.foldl_addParam (VarDecl.variable true) d.params
    { name := d.name.name, owner, returnType := Ty.ofName d.returnType.name }
  have hok := checkOverride_ok_iff (t := t) (m := d.head owner) (d := d) (by simp [d.params_head])
  rw [MethodDecl.head, hname, howner, ← MethodDecl.head] at hok
  simp only [signature_head] at hok
  constructor
  · rintro ⟨⟨⟩, hchecked⟩
    exact hok.1 hchecked
  · intro hsame
    exact ⟨(), hok.2 hsame⟩

theorem declareMethod_isOk_iff {d : MethodDecl} :
    (∃ c', t.declareMethod c d = .ok c') ↔
      (c.method? d.name.name).isSome = false ∧ d.name.name ≠ c.name ∧
        ((d.params ++ d.locals).map (·.name.name)).Nodup ∧ t.AcceptsMethod c.name d := by
  unfold declareMethod
  rw [Outcome.exists_bind_ok fun _ h => (knownType_ok h).1, knownType_isOk_iff]
  simp only [Outcome.ite_error_eq_ok, exists_and_left, Bool.not_eq_true]
  rw [Outcome.exists_bind_ok (a := d.head c.name) fun _ h => (declareParams_ok h).1,
    Outcome.exists_bind_ok (a := ()) fun _ _ => rfl,
    Outcome.exists_bind_ok fun _ h => (declareLocals_ok h).1, declareParams_isOk_iff,
    checkOverride_head_iff, declareLocals_isOk_iff, d.nodup_variables_iff c.name]
  constructor
  · rintro ⟨hreturn, hfree, hname, ⟨hparams, hnodup, -⟩, hoverriding, ⟨hlocals, hnodup', hnone⟩, -⟩
    exact ⟨hfree, hname, ⟨hnodup, hnodup', hnone⟩, hreturn, hparams, hlocals, hoverriding⟩
  · rintro ⟨hfree, hname, ⟨hnodup, hnodup', hnone⟩, haccepts⟩
    exact ⟨haccepts.returnType, hfree, hname, ⟨haccepts.params, hnodup, fun _ _ => rfl⟩,
      haccepts.overriding, ⟨haccepts.locals, hnodup', hnone⟩, _, rfl⟩

theorem declareMethods_isOk_iff {ds : List MethodDecl} :
    (∃ c', t.declareMethods c ds = .ok c') ↔
      (ds.map (·.name.name)).Nodup ∧ ∀ d ∈ ds, (c.method? d.name.name).isSome = false ∧
        d.name.name ≠ c.name ∧ ((d.params ++ d.locals).map (·.name.name)).Nodup ∧
        t.AcceptsMethod c.name d := by
  induction ds generalizing c with
  | nil => simp [declareMethods]
  | cons d ds ih =>
    let next : ClassInfo := { c with methods := c.methods ++ [d.declared c.name] }
    have htaken : ∀ name, (next.method? name).isSome =
        (name == d.name.name || (c.method? name).isSome) := by
      intro name
      rw [← d.name_declared c.name]
      exact isSome_find?_concat MethodInfo.name c.methods _ name
    rw [declareMethods, Outcome.exists_bind_ok (a := next) fun _ h => (declareMethod_ok h).1, ih,
      declareMethod_isOk_iff]
    simp only [htaken, Bool.or_eq_false_iff, beq_eq_false_iff_ne, List.map_cons, List.nodup_cons,
      List.mem_map, List.forall_mem_cons, not_exists, not_and]
    constructor
    · rintro ⟨hd, hnodup, hds⟩
      exact ⟨⟨fun m hm => (hds m hm).1.1, hnodup⟩, hd, fun m hm => ⟨(hds m hm).1.2, (hds m hm).2⟩⟩
    · rintro ⟨⟨hnew, hnodup⟩, hd, hds⟩
      exact ⟨hd, hnodup, fun m hm => ⟨⟨hnew m hm, (hds m hm).1⟩, (hds m hm).2⟩⟩

theorem fillClass_isOk_iff {d : ClassDecl} :
    (∃ t', t.fillClass d = .ok t') ↔ d.NamesDistinct ∧ t.AcceptsClass d := by
  unfold fillClass
  rw [Outcome.exists_bind_ok fun _ h => (declareFields_ok h).1,
    Outcome.exists_bind_ok fun _ h => (declareMethods_ok h).1, declareFields_isOk_iff,
    declareMethods_isOk_iff]
  constructor
  · rintro ⟨⟨hknown, hfields, -⟩, ⟨hmethods, hall⟩, -⟩
    exact ⟨⟨hfields, hmethods, fun m hm => (hall m hm).2.1, fun m hm => (hall m hm).2.2.1⟩,
      hknown, fun m hm => (hall m hm).2.2.2⟩
  · rintro ⟨hnames, haccepts⟩
    refine ⟨⟨haccepts.fields, hnames.fields, fun _ _ => rfl⟩, ⟨hnames.methods, fun m hm => ?_⟩, _, rfl⟩
    exact ⟨rfl, hnames.notOwn m hm, hnames.inMethods m hm, haccepts.methods m hm⟩

theorem fillMain_isOk_iff {d : MainClass} :
    (∃ t', t.fillMain d = .ok t') ↔
      t.KnowsAll d.locals ∧ (d.args.name :: d.locals.map (·.name.name)).Nodup := by
  unfold fillMain
  rw [Outcome.exists_bind_ok fun _ h => (declareLocals_ok h).1, declareLocals_isOk_iff]
  simp only [MethodInfo.hasVariable_addParam, List.nodup_cons, List.mem_map, not_exists, not_and,
    Bool.or_eq_false_iff, beq_eq_false_iff_ne, ne_eq]
  constructor
  · rintro ⟨⟨hknown, hnodup, hnone⟩, -⟩
    exact ⟨hknown, fun v hv => (hnone v hv).1, hnodup⟩
  · rintro ⟨hknown, hnew, hnodup⟩
    exact ⟨⟨hknown, hnodup, fun v hv => ⟨hnew v hv, rfl⟩⟩, _, rfl⟩

/-! ## The loop over the classes -/

/-- A class is compared with the classes that are filled in before it. These are as they are in the table
`last` that all classes are filled in in, so it is as good to compare with that one. -/
theorem Ordered.fillClasses_isOk_iff {last : ClassTable} {ds : List ClassDecl} {done : List String}
    (ht : t.Ordered) (hlast : last.Ordered) (htypes : last.types = t.types)
    (horder : t.order = done ++ ds.map (·.name.name))
    (hheader : ∀ d ∈ ds, t.get? d.name.name = some d.header.declared)
    (hdone : ∀ name ∈ done, last.get? name = t.get? name)
    (hds : ∀ d ∈ ds, last.get? d.name.name = some d.declared) :
    (∃ t', t.fillClasses ds = .ok t') ↔ ∀ d ∈ ds, d.NamesDistinct ∧ last.AcceptsClass d := by
  induction ds generalizing t done with
  | nil => exact ⟨fun _ => List.forall_mem_nil _, fun _ => ⟨t, rfl⟩⟩
  | cons d ds ih =>
    rw [List.forall_mem_cons] at hds ⊢
    rw [List.map_cons] at horder
    have hparent : last.parent? d.name.name = t.parent? d.name.name := by
      rw [parent?, parent?, hds.1, hheader d List.mem_cons_self]
      rfl
    have hinherited := ht.inheritedMethod?_congr hlast horder hdone hparent
    have haccepts : t.AcceptsClass d ↔ last.AcceptsClass d :=
      ⟨fun h => h.congr htypes hinherited, fun h => h.congr htypes.symm fun m => (hinherited m).symm⟩
    obtain ⟨hstore, horder', hheader', hkeep, hget⟩ := ht.store_next horder hheader
    have hdone' : ∀ name ∈ done ++ [d.name.name],
        last.get? name = (t.store d.declared).get? name := by
      intro name hname
      rcases List.mem_append.1 hname with hname | hname
      · rw [hkeep name hname, hdone name hname]
      · obtain rfl := List.mem_singleton.1 hname
        rw [hds.1, hget]
    rw [ClassTable.fillClasses, Outcome.exists_bind_ok fun _ h => (fillClass_ok h).1,
      fillClass_isOk_iff, haccepts, ih hstore htypes horder' hheader' hdone' hds.2]

end ClassTable

end ClassCheck
