import Mathlib.Logic.Relation
import ClassCheck.Proofs.ClassTable.Lookup
import ClassCheck.Proofs.Passes

/-!
# Assignability is a partial order

A class stands below its parent, the parent of that one and so on. Since a parent is declared before the
classes that extend it, no class stands below itself, and since a class has one parent at most, of two
classes above it one stands above the other. This is settled once the classes are declared: no pass
changes a parent any more.
-/

namespace ClassCheck

namespace ClassTable

variable {t : ClassTable} {name a b : String} {ty ty₁ ty₂ ty₃ : Ty}

/-! ## The way up from a class -/

theorem Ordered.not_descends_self (h : t.Ordered) : ¬ t.Descends name name := by
  intro hself
  obtain ⟨c, hc, hname⟩ := List.any_eq_true.1 (h.isSubclass_iff.2 hself)
  exact h.not_mem_ancestors (List.mem_map.2 ⟨c, hc, by simpa using hname⟩)

theorem descends_total (ha : t.Descends name a) (hb : t.Descends name b) :
    a = b ∨ t.Descends a b ∨ t.Descends b a := by
  have hunique : Relator.RightUnique fun name parent => t.parent? name = some parent :=
    fun _ _ _ hp hp' => Option.some.inj (hp.symm.trans hp')
  rcases Relation.ReflTransGen.total_of_right_unique hunique ha.to_reflTransGen
    hb.to_reflTransGen with hab | hba
  · rcases Relation.reflTransGen_iff_eq_or_transGen.1 hab with rfl | hab
    · exact .inl rfl
    · exact .inr (.inl hab)
  · rcases Relation.reflTransGen_iff_eq_or_transGen.1 hba with rfl | hba
    · exact .inl rfl
    · exact .inr (.inr hba)

/-! ## Conforming types -/

theorem conforms_trans (h₁₂ : t.Conforms ty₁ ty₂) (h₂₃ : t.Conforms ty₂ ty₃) : t.Conforms ty₁ ty₃ := by
  rcases h₁₂ with rfl | ⟨a, b, rfl, rfl, hba⟩
  · exact h₂₃
  rcases h₂₃ with rfl | ⟨b', c, hb, rfl, hcb⟩
  · exact .inr ⟨a, b, rfl, rfl, hba⟩
  · obtain rfl := Ty.object.inj hb
    exact .inr ⟨a, c, rfl, rfl, hcb.trans hba⟩

theorem Ordered.conforms_antisymm (h : t.Ordered) (h₁₂ : t.Conforms ty₁ ty₂)
    (h₂₁ : t.Conforms ty₂ ty₁) : ty₁ = ty₂ := by
  rcases h₁₂ with rfl | ⟨a, b, rfl, rfl, hba⟩
  · rfl
  rcases h₂₁ with heq | ⟨b', a', hb, ha, hab⟩
  · exact heq.symm
  · obtain rfl := Ty.object.inj hb
    obtain rfl := Ty.object.inj ha
    exact absurd (hba.trans hab) h.not_descends_self

theorem conforms_total (ha : t.Descends name a) (hb : t.Descends name b) :
    t.Conforms (.object a) (.object b) ∨ t.Conforms (.object b) (.object a) := by
  rcases descends_total ha hb with rfl | hab | hba
  · exact .inl (.inl rfl)
  · exact .inr (.inr ⟨b, a, rfl, rfl, hab⟩)
  · exact .inl (.inr ⟨a, b, rfl, rfl, hba⟩)

end ClassTable

/-! ## Passes -/

namespace Program

/-- A pass over the program takes the first table to the second one. -/
inductive Pass (p : Program) : ClassTable → ClassTable → Prop
  | declareMembers {t t' : ClassTable} : (p.declareMembers t).outcome = .ok t' → Pass p t t'
  | check {t t' : ClassTable} : (p.check t).outcome = .ok t' → Pass p t t'
  | layOut (t : ClassTable) : Pass p t t.layOut

/-- The tables that come from declaring the classes of the program and then taking passes, in whatever
order and however often. -/
def Produces (p : Program) (t : ClassTable) : Prop :=
  ∃ t₀, p.declareClasses.outcome = .ok t₀ ∧ Relation.ReflTransGen p.Pass t₀ t

/-- The table holds the classes of the program, each with the parent that it is declared with. -/
structure Linked (p : Program) (t : ClassTable) : Prop where
  ordered : t.Ordered
  distinct : t.Distinct
  links : ∀ h ∈ p.headers,
    h.name.name ∈ t.order ∧ t.parent? h.name.name = h.superclass.map (·.name)

variable {p : Program} {t t' : ClassTable}

theorem linked_declareClasses (h : p.declareClasses.outcome = .ok t) : p.Linked t := by
  obtain ⟨hordered, horder, hheaders⟩ := ordered_declareClasses h
  refine ⟨hordered, ⟨hordered.names ▸ hordered.nodup, ?_⟩, ?_⟩
  · intro c hc
    have hmem : c.name ∈ p.headers.map (·.name.name) := by
      rw [← horder, ← hordered.names]
      exact List.mem_map_of_mem hc
    obtain ⟨header, hheader, hname⟩ := List.mem_map.1 hmem
    have hget := hordered.get?_of_mem hc
    rw [← hname, hheaders header hheader] at hget
    obtain rfl := Option.some.inj hget
    exact ⟨List.nodup_nil, List.nodup_nil, List.forall_mem_nil _⟩
  · intro header hheader
    constructor
    · rw [horder]
      exact List.mem_map_of_mem hheader
    · rw [ClassTable.parent?, hheaders header hheader]
      rfl

namespace Linked

theorem congr (h : p.Linked t) (hplain : t'.plain = t.plain) : p.Linked t' := by
  have horder : t'.order = t.order := (congrArg ClassTable.order hplain :)
  refine ⟨h.ordered.congr hplain, h.distinct.congr hplain, fun header hheader => ?_⟩
  rw [horder, ← ClassTable.parent?_plain, hplain, ClassTable.parent?_plain]
  exact h.links header hheader

theorem store (h : p.Linked t) {header : ClassHeader} (hheader : header ∈ p.headers) {c : ClassInfo}
    (hname : c.name = header.name.name) (hparent : c.parent = header.superclass.map (·.name))
    (hc : c.Distinct) : p.Linked (t.store c) := by
  obtain ⟨hmem, hlink⟩ := h.links header hheader
  rw [← hname] at hmem hlink
  obtain ⟨d, hd⟩ := Option.isSome_iff_exists.1 (h.ordered.isSome_get?_iff.2 hmem)
  rw [ClassTable.parent?, hd, Option.bind_some, ← hparent] at hlink
  obtain ⟨hordered, hparents⟩ := h.ordered.store hd hlink.symm
  refine ⟨hordered, ⟨hordered.names ▸ hordered.nodup, fun e he => ?_⟩, ?_⟩
  · have hget := hordered.get?_of_mem he
    rw [ClassTable.get?_store] at hget
    split at hget
    · rwa [← Option.some.inj hget]
    · exact h.distinct.of_get? hget
  · rw [hparents]
    exact h.links

theorem fillClasses (h : p.Linked t) {ds : List ClassDecl} (hds : ∀ d ∈ ds, d.header ∈ p.headers)
    (hok : t.fillClasses ds = .ok t') : p.Linked t' := by
  induction ds generalizing t with
  | nil =>
    obtain rfl := Except.ok.inj hok
    exact h
  | cons d ds ih =>
    rw [List.forall_mem_cons] at hds
    obtain ⟨t₁, hfill, hrest⟩ := Outcome.bind_eq_ok.1 hok
    have hdistinct := ClassTable.distinct_fillClass hfill
    obtain ⟨rfl, -⟩ := ClassTable.fillClass_ok hfill
    exact ih (h.store hds.1 rfl rfl hdistinct) hds.2 hrest

theorem pass (h : p.Linked t) (hpass : p.Pass t t') : p.Linked t' := by
  cases hpass with
  | declareMembers hok =>
    obtain ⟨t₁, hmain, hclasses⟩ := Outcome.bind_eq_ok.1 (declareMembers_ok_iff.1 hok)
    have hdistinct := ClassTable.distinct_fillMain hmain
    obtain ⟨rfl, -⟩ := ClassTable.fillMain_ok hmain
    have hheaders : ∀ d ∈ p.classes, d.header ∈ p.headers :=
      fun d hd => List.mem_cons_of_mem _ (List.mem_map_of_mem hd)
    exact (h.store List.mem_cons_self rfl rfl hdistinct).fillClasses hheaders hclasses
  | check hok =>
    rw [ClassTable.outcome_check] at hok
    obtain rfl := (h.distinct.blind_checkBodies p.bodies).eq_mark hok
    exact h.congr (ClassTable.plain_mark _ t)
  | layOut => exact h.congr t.plain_layOut

end Linked

theorem Produces.linked (h : p.Produces t) : p.Linked t := by
  obtain ⟨t₀, hclasses, hpasses⟩ := h
  induction hpasses with
  | refl => exact linked_declareClasses hclasses
  | tail _ hpass ih => exact ih.pass hpass

/-- On all types, known or not, assignability is a partial order: in every table that the passes over a
program give. A class is a subclass of the classes that are reached from it by one or more steps to a
parent, and of two of these one is assignable to the other. -/
theorem assignability_of_produces (h : p.Produces t) :
    (∀ ty, t.isAssignable ty ty = true) ∧
      (∀ ty₁ ty₂ ty₃, t.isAssignable ty₁ ty₂ = true → t.isAssignable ty₂ ty₃ = true →
        t.isAssignable ty₁ ty₃ = true) ∧
      (∀ ty₁ ty₂, t.isAssignable ty₁ ty₂ = true → t.isAssignable ty₂ ty₁ = true → ty₁ = ty₂) ∧
      (∀ name ancestor, t.isSubclass name ancestor = true ↔ t.Descends name ancestor) ∧
      ∀ name a b, t.isSubclass name a = true → t.isSubclass name b = true →
        t.isAssignable (.object a) (.object b) = true ∨
          t.isAssignable (.object b) (.object a) = true := by
  have hordered := h.linked.ordered
  refine ⟨?_, ?_, ?_, ?_, ?_⟩
  · intro ty
    exact hordered.isAssignable_iff.2 (.inl rfl)
  · intro ty₁ ty₂ ty₃ h₁₂ h₂₃
    rw [hordered.isAssignable_iff] at h₁₂ h₂₃ ⊢
    exact ClassTable.conforms_trans h₁₂ h₂₃
  · intro ty₁ ty₂ h₁₂ h₂₁
    rw [hordered.isAssignable_iff] at h₁₂ h₂₁
    exact hordered.conforms_antisymm h₁₂ h₂₁
  · intro name ancestor
    exact hordered.isSubclass_iff
  · intro name a b ha hb
    rw [hordered.isSubclass_iff] at ha hb
    rw [hordered.isAssignable_iff, hordered.isAssignable_iff]
    exact ClassTable.conforms_total ha hb

/-- The main class `M`, `A` below it, and `B` below `A`, whose field is marked by a body. -/
def belowMain : Program :=
  let here : Span := ⟨0, 0⟩
  let name (text : String) : Ident := ⟨text, here⟩
  let f : MethodDecl :=
    { returnType := ⟨.named "M", here⟩, name := name "f", params := [], locals := [],
      body := [.assign (name "x") (.newObject here (name "B"))], returned := .ident here "x" }
  { main := { name := name "M", args := name "args", locals := [], body := [] }
    classes :=
      [{ name := name "A", superclass := some (name "M"), fields := [⟨⟨.named "A", here⟩, name "x"⟩],
         methods := [f] },
        { name := name "B", superclass := some (name "A"), fields := [], methods := [] }] }

theorem assignability_of_produces_belowMain :
    ∃ t, belowMain.Produces t ∧ belowMain.analyze.outcome = .ok t ∧
      t.isAssignable (.object "M") (.object "B") = true ∧
      t.isAssignable (.object "B") (.object "M") = false ∧
      (∀ ty, t.isAssignable ty ty = true) ∧ t.Descends "B" "M" ∧
      (t.isAssignable (.object "M") (.object "A") = true ∨
        t.isAssignable (.object "A") (.object "M") = true) := by
  have hrun : (belowMain.declareClasses.outcome.toOption.any fun t₀ =>
      (belowMain.declareMembers t₀).outcome.toOption.any fun t₁ =>
        (belowMain.check t₁).outcome.toOption.any fun t₂ =>
          t₂.layOut.isSubclass "B" "M" && t₂.layOut.isSubclass "B" "A") = true := by
    decide +kernel
  obtain ⟨t₀, h₀, hrest⟩ := Outcome.any_toOption_iff.1 hrun
  obtain ⟨t₁, h₁, hrest⟩ := Outcome.any_toOption_iff.1 hrest
  obtain ⟨t₂, h₂, hsubclass⟩ := Outcome.any_toOption_iff.1 hrest
  obtain ⟨hm, ha⟩ := Bool.and_eq_true_iff.1 hsubclass
  have hproduces : belowMain.Produces t₂.layOut :=
    ⟨t₀, h₀, .tail (.tail (.single (.declareMembers h₁)) (.check h₂)) (.layOut t₂)⟩
  have hanalyze : belowMain.analyze.outcome = .ok t₂.layOut := by
    rw [outcome_analyze, h₀, Outcome.bind_eq_ok]
    exact ⟨t₀, rfl, Outcome.bind_eq_ok.2 ⟨t₁, h₁, Outcome.bind_eq_ok.2 ⟨t₂, h₂, rfl⟩⟩⟩
  obtain ⟨hrefl, -, hantisymm, hdescends, htotal⟩ := assignability_of_produces hproduces
  have hmb : t₂.layOut.isAssignable (.object "M") (.object "B") = true := by
    rw [ClassTable.isAssignable, hm, Bool.or_true]
  refine ⟨t₂.layOut, hproduces, hanalyze, hmb, ?_, hrefl, (hdescends "B" "M").1 hm,
    htotal "B" "M" "A" hm ha⟩
  rw [Bool.eq_false_iff]
  intro hbm
  exact absurd (hantisymm _ _ hmb hbm) (by decide)

end Program

end ClassCheck
