import ClassCheck.Proofs.Layout.Table

/-!
# What holds of the table after every pass

The names of the classes are kept in three places: among the types, in the order of declaration and in
the entries. Filling in the members puts new entries in the place of the old ones, checking marks
variables, and laying out gives offsets. Through all of this the three places agree, every class keeps
its parent, which was declared before it, and the types in its members are known.
-/

namespace ClassCheck

/-! ## Ancestors come earlier -/

namespace ClassTable.Ordered

variable {t : ClassTable} {name : String}

theorem mem_before_of_mem_ancestors (h : t.Ordered) {before after : List String}
    (horder : t.order = before ++ name :: after) {c : ClassInfo} (hc : c ∈ t.ancestors name) :
    c.name ∈ before := by
  induction name using h.induction generalizing before after with
  | step name ih =>
    cases hp : t.parent? name with
    | none =>
      rw [ancestors_of_none hp] at hc
      exact absurd hc List.not_mem_nil
    | some parent =>
      obtain ⟨q, hq⟩ := h.exists_parent hp
      have hparent : parent ∈ before := h.parents before name after horder parent hp
      rw [h.ancestors_of_parent hp hq, List.mem_cons] at hc
      rcases hc with rfl | hc
      · rwa [name_of_get? hq]
      · obtain ⟨first, last, rfl⟩ := List.append_of_mem hparent
        rw [List.append_assoc, List.cons_append] at horder
        exact List.mem_append_left _ (ih parent hp horder hc)

theorem not_mem_ancestors (h : t.Ordered) : name ∉ (t.ancestors name).map (·.name) := by
  intro hmem
  obtain ⟨c, hc, hname⟩ := List.mem_map.1 hmem
  cases hp : t.parent? name with
  | none =>
    rw [ancestors_of_none hp] at hc
    exact List.not_mem_nil hc
  | some parent =>
    obtain ⟨before, after, horder⟩ := List.append_of_mem (h.mem_order_of_parent hp)
    have hbefore : name ∈ before := hname ▸ h.mem_before_of_mem_ancestors horder hc
    have hnodup := h.nodup
    rw [horder, List.nodup_append] at hnodup
    exact hnodup.2.2 name hbefore name List.mem_cons_self rfl

theorem nodup_ancestors (h : t.Ordered) (name : String) :
    (name :: (t.ancestors name).map (·.name)).Nodup := by
  induction name using h.induction with
  | step name ih =>
    refine List.nodup_cons.2 ⟨h.not_mem_ancestors, ?_⟩
    cases hp : t.parent? name with
    | none =>
      rw [ancestors_of_none hp]
      exact List.nodup_nil
    | some parent =>
      obtain ⟨q, hq⟩ := h.exists_parent hp
      rw [h.ancestors_of_parent hp hq, List.map_cons, name_of_get? hq]
      exact ih parent hp

end ClassTable.Ordered

/-! ## Members -/

section

variable (p : Program) (t : ClassTable)

/-- A method belongs to the class that it is found in. The types in it are known, but for the signature
of `main`. -/
structure Program.KnowsMethod (c : ClassInfo) (m : MethodInfo) : Prop where
  owner : m.owner = c.name
  locals : ∀ v ∈ m.locals, t.isKnownType v.type = true
  signature : c.name ≠ p.main.name.name →
    t.isKnownType m.returnType = true ∧ ∀ v ∈ m.params, t.isKnownType v.type = true
  mainSignature : c.name = p.main.name.name →
    m.name = ClassTable.mainMethod ∧ m.returnType = .void ∧ m.params.map (·.type) = [.stringArray]

structure Program.KnowsClass (c : ClassInfo) : Prop where
  fields : ∀ v ∈ c.fields, t.isKnownType v.type = true
  methods : ∀ m ∈ c.methods, p.KnowsMethod t c m

end

/-! ## The invariant -/

/-- The table is that of the program as far as classes, their parents and the types of their members
go. -/
structure Program.Tabled (p : Program) (t : ClassTable) : Prop where
  order : t.order = p.main.name.name :: p.classes.map (·.name.name)
  nodup : t.order.Nodup
  keys : t.entries.map (·.name) = t.order
  named : ∀ name c, t.get? name = some c → c.name = name
  contains : ∀ name, t.contains name = true ↔ name ∈ t.order
  types : t.types = [.int, .boolean, .intArray] ++ t.order.map .object
  known : ∀ name, t.isKnownType (.object name) = true ↔ t.contains name = true
  links : ∀ header ∈ p.headers, t.parent? header.name.name = header.superclass.map (·.name)
  parents : ∀ before name after, t.order = before ++ name :: after →
    ∀ parent, t.parent? name = some parent → parent ∈ before
  /-- The walk over the ancestors ends at a class that has no parent. -/
  chain : ∀ name c, t.get? name = some c → t.IsChain (c :: t.ancestors name)
  acyclic : ∀ name, (name :: (t.ancestors name).map (·.name)).Nodup
  members : ∀ name c, t.get? name = some c → p.KnowsClass t c

namespace Program

variable {p : Program} {t t' : ClassTable}

theorem tabled_of_ordered (h : t.Ordered) (horder : t.order = p.headers.map (·.name.name))
    (hlinks : ∀ header ∈ p.headers, t.parent? header.name.name = header.superclass.map (·.name))
    (hmembers : ∀ name c, t.get? name = some c → p.KnowsClass t c) : p.Tabled t where
  order := by
    rw [horder, headers, List.map_cons, List.map_map]
    rfl
  nodup := h.nodup
  keys := h.names
  named := fun _ _ hc => ClassTable.name_of_get? hc
  contains := fun _ => h.contains_iff
  types := h.types
  known := fun _ => h.isKnownType_object_iff
  links := hlinks
  parents := h.parents
  chain := fun _ _ hc => h.isChain hc
  acyclic := h.nodup_ancestors
  members := hmembers

/-! ## Declaring -/

theorem tabled_declareClasses (h : p.declareClasses.outcome = .ok t) : p.Tabled t := by
  obtain ⟨hordered, horder, hheaders⟩ := ordered_declareClasses h
  apply tabled_of_ordered hordered horder
  · intro header hheader
    rw [ClassTable.parent?, hheaders header hheader]
    rfl
  · intro name c hc
    have hmem : name ∈ t.order := hordered.isSome_get?_iff.1 (by rw [hc]; rfl)
    rw [horder] at hmem
    obtain ⟨header, hheader, rfl⟩ := List.mem_map.1 hmem
    obtain rfl := Option.some.inj ((hheaders header hheader).symm.trans hc)
    exact ⟨List.forall_mem_nil _, List.forall_mem_nil _⟩

theorem DeclaredIn.knowsMethod_main (h : p.DeclaredIn t) :
    p.KnowsMethod t p.main.declared p.main.mainInfo := by
  constructor
  · exact p.main.owner_mainInfo
  · rw [p.main.locals_mainInfo]
    exact List.forall_mem_map.2 h.mainLocals
  · exact fun hne => absurd rfl hne
  · intro _
    rw [p.main.params_mainInfo]
    exact ⟨p.main.name_mainInfo, p.main.returnType_mainInfo, rfl⟩

theorem DeclaredIn.knowsMethod (h : p.DeclaredIn t) {d : ClassDecl} (hd : d ∈ p.classes)
    {m : MethodDecl} (hm : m ∈ d.methods) :
    p.KnowsMethod t d.declared (m.declared d.name.name) := by
  have haccepts := (h.classes d hd).2.methods m hm
  constructor
  · exact m.owner_declared _
  · rw [m.locals_declared]
    exact List.forall_mem_map.2 haccepts.locals
  · intro _
    rw [m.returnType_declared, m.params_declared]
    exact ⟨haccepts.returnType, List.forall_mem_map.2 haccepts.params⟩
  · -- No class of the program has the name of the main class.
    intro hname
    have hnodup := h.ordered.nodup
    rw [h.order, headers, List.map_cons, List.map_map, List.nodup_cons] at hnodup
    exact absurd (List.mem_map.2 ⟨d, hd, hname⟩) hnodup.1

theorem DeclaredIn.tabled (h : p.DeclaredIn t) : p.Tabled t := by
  apply tabled_of_ordered h.ordered h.order
  · rw [headers, List.forall_mem_cons, List.forall_mem_map]
    constructor
    · rw [ClassTable.parent?, h.main]
      rfl
    · intro d hd
      change t.parent? d.name.name = d.superclass.map (·.name)
      rw [ClassTable.parent?, (h.classes d hd).1]
      rfl
  · intro name c hc
    rcases h.eq_declared hc with rfl | ⟨d, hd, -, rfl⟩
    · exact ⟨List.forall_mem_nil _, List.forall_mem_singleton.2 h.knowsMethod_main⟩
    · exact ⟨List.forall_mem_map.2 (h.classes d hd).2.fields,
        List.forall_mem_map.2 fun m hm => h.knowsMethod hd hm⟩

/-! ## Checking and laying out -/

theorem forall_mem_of_map_eq {α β : Type} {f : α → β} {as bs : List α} (h : as.map f = bs.map f)
    {P : α → Prop} (hP : ∀ a b, f a = f b → P b → P a) (hall : ∀ b ∈ bs, P b) : ∀ a ∈ as, P a := by
  intro a ha
  have hmem : f a ∈ bs.map f := h ▸ List.mem_map_of_mem ha
  obtain ⟨b, hb, hab⟩ := List.mem_map.1 hmem
  exact hP a b hab.symm (hall b hb)

section

variable {c c' : ClassInfo} {m m' : MethodInfo}

theorem isKnownType_of_plain (htypes : t'.types = t.types) {vs vs' : List Variable}
    (h : vs'.map Variable.plain = vs.map Variable.plain)
    (hvs : ∀ v ∈ vs, t.isKnownType v.type = true) : ∀ v ∈ vs', t'.isKnownType v.type = true := by
  have hknown : ∀ v ∈ vs, t'.isKnownType v.type = true := by
    intro v hv
    rw [ClassTable.isKnownType, htypes]
    exact hvs v hv
  apply forall_mem_of_map_eq h _ hknown
  intro v' v hv hold
  have htype : v'.type = v.type := (congrArg Variable.type hv :)
  rwa [htype]

theorem KnowsMethod.congr (h : p.KnowsMethod t c m) (htypes : t'.types = t.types)
    (hname : c'.name = c.name) (hm : m'.plain = m.plain) : p.KnowsMethod t' c' m' := by
  have hparams : m'.params.map Variable.plain = m.params.map Variable.plain :=
    congrArg MethodInfo.params hm
  have hlocals : m'.locals.map Variable.plain = m.locals.map Variable.plain :=
    congrArg MethodInfo.locals hm
  have howner : m'.owner = m.owner := (congrArg MethodInfo.owner hm :)
  have hreturn : m'.returnType = m.returnType := (congrArg MethodInfo.returnType hm :)
  have hmethod : m'.name = m.name := (congrArg MethodInfo.name hm :)
  constructor
  · rw [howner, hname, h.owner]
  · exact isKnownType_of_plain htypes hlocals h.locals
  · intro hne
    obtain ⟨hr, hps⟩ := h.signature (hname ▸ hne)
    refine ⟨?_, isKnownType_of_plain htypes hparams hps⟩
    rwa [hreturn, ClassTable.isKnownType, htypes]
  · intro hmain
    obtain ⟨hn, hr, hps⟩ := h.mainSignature (hname ▸ hmain)
    have hsame := congrArg (List.map Variable.type) hparams
    rw [List.map_map, List.map_map] at hsame
    exact ⟨hmethod.trans hn, hreturn.trans hr, hsame.trans hps⟩

theorem KnowsClass.congr (h : p.KnowsClass t c) (htypes : t'.types = t.types)
    (hc : c'.plain = c.plain) : p.KnowsClass t' c' := by
  have hname : c'.name = c.name := (congrArg ClassInfo.name hc :)
  constructor
  · exact isKnownType_of_plain htypes (congrArg ClassInfo.fields hc) h.fields
  · have hmethods : c'.methods.map MethodInfo.plain = c.methods.map MethodInfo.plain :=
      congrArg ClassInfo.methods hc
    exact forall_mem_of_map_eq hmethods (fun _ _ hm hknows => hknows.congr rfl rfl hm) fun m hm =>
      (h.methods m hm).congr htypes hname rfl

end

theorem Tabled.congr (h : p.Tabled t) (hplain : t'.plain = t.plain) : p.Tabled t' := by
  have hordered : t.Ordered := ⟨h.keys, h.nodup, h.types, h.parents⟩
  have horder : t'.order = t.order := (congrArg ClassTable.order hplain :)
  apply tabled_of_ordered (hordered.congr hplain)
  · rw [horder, h.order, headers, List.map_cons, List.map_map]
    rfl
  · intro header hheader
    rw [← ClassTable.parent?_plain, hplain, ClassTable.parent?_plain]
    exact h.links header hheader
  · intro name c' hc'
    have hmap : (t.get? name).map ClassInfo.plain = some c'.plain := by
      rw [← ClassTable.get?_plain, ← hplain, ClassTable.get?_plain, hc', Option.map_some]
    obtain ⟨c, hc, heq⟩ := Option.map_eq_some_iff.1 hmap
    exact (h.members name c hc).congr (congrArg ClassTable.types hplain :) heq.symm

theorem plain_check {t₀ t₁ t₂ : ClassTable} (h₀ : p.declareClasses.outcome = .ok t₀)
    (h₁ : (p.declareMembers t₀).outcome = .ok t₁) (h₂ : (p.check t₁).outcome = .ok t₂) :
    t₂.plain = t₁.plain := by
  rw [ClassTable.outcome_check] at h₂
  obtain rfl := ((distinct_declareMembers h₀ h₁).blind_checkBodies p.bodies).eq_mark h₂
  exact ClassTable.plain_mark _ t₁

/-- After every pass that is reached the table is that of the program. -/
theorem tabled_after_each_pass {t₀ : ClassTable} (h₀ : p.declareClasses.outcome = .ok t₀) :
    p.Tabled t₀ ∧
      ∀ t₁, (p.declareMembers t₀).outcome = .ok t₁ → p.Tabled t₁ ∧
        ∀ t₂, (p.check t₁).outcome = .ok t₂ → p.Tabled t₂ ∧ p.Tabled t₂.layOut := by
  refine ⟨tabled_declareClasses h₀, fun t₁ h₁ => ?_⟩
  have h : p.Tabled t₁ := (declaredIn_declareMembers h₀ h₁).tabled
  refine ⟨h, fun t₂ h₂ => ?_⟩
  have hchecked : p.Tabled t₂ := h.congr (plain_check h₀ h₁ h₂)
  exact ⟨hchecked, hchecked.congr t₂.plain_layOut⟩

/-- A row of three classes below each other. Checking marks a local of `main` and a field, and both
fields get offsets. -/
def threeGenerations : Program :=
  let here : Span := ⟨0, 0⟩
  let name (text : String) : Ident := ⟨text, here⟩
  let object (type text : String) : VarDecl := ⟨⟨.named type, here⟩, name text⟩
  let join : MethodDecl :=
    { returnType := ⟨.named "A", here⟩
      name := name "join"
      params := [object "C" "other"]
      locals := [object "B" "last"]
      body := [.assign (name "next") (.ident here "other")]
      returned := .ident here "other" }
  { main :=
      { name := name "M", args := name "args", locals := [object "C" "c"],
        body := [.assign (name "c") (.newObject here (name "C"))] }
    classes :=
      [{ name := name "A", superclass := none, fields := [object "A" "next"], methods := [join] },
        { name := name "B", superclass := some (name "A"), fields := [], methods := [] },
        { name := name "C", superclass := some (name "B"), fields := [object "M" "root"],
          methods := [join] }] }

theorem tabled_after_each_pass_threeGenerations :
    ∃ t₀ t₁ t₂, threeGenerations.declareClasses.outcome = .ok t₀ ∧
      (threeGenerations.declareMembers t₀).outcome = .ok t₁ ∧
      (threeGenerations.check t₁).outcome = .ok t₂ ∧ t₁ ≠ t₂ ∧ t₂ ≠ t₂.layOut ∧
      (t₂.layOut.ancestors "C").map (·.name) = ["B", "A"] ∧
      threeGenerations.Tabled t₀ ∧ threeGenerations.Tabled t₁ ∧ threeGenerations.Tabled t₂ ∧
      threeGenerations.Tabled t₂.layOut := by
  have hrun : (threeGenerations.declareClasses.outcome.toOption.any fun t₀ =>
      (threeGenerations.declareMembers t₀).outcome.toOption.any fun t₁ =>
        (threeGenerations.check t₁).outcome.toOption.any fun t₂ =>
          decide (t₁ ≠ t₂ ∧ t₂ ≠ t₂.layOut ∧
            (t₂.layOut.ancestors "C").map (·.name) = ["B", "A"])) = true := by decide +kernel
  obtain ⟨t₀, h₀, hrest⟩ := Outcome.any_toOption_iff.1 hrun
  obtain ⟨t₁, h₁, hrest⟩ := Outcome.any_toOption_iff.1 hrest
  obtain ⟨t₂, h₂, hlast⟩ := Outcome.any_toOption_iff.1 hrest
  obtain ⟨hmarks, hoffsets, hancestors⟩ := of_decide_eq_true hlast
  obtain ⟨hfirst, hrest⟩ := tabled_after_each_pass h₀
  obtain ⟨hsecond, hrest⟩ := hrest t₁ h₁
  obtain ⟨hthird, hfourth⟩ := hrest t₂ h₂
  exact ⟨t₀, t₁, t₂, h₀, h₁, h₂, hmarks, hoffsets, hancestors, hfirst, hsecond, hthird, hfourth⟩

end Program

end ClassCheck
