import ClassCheck.Proofs.ClassTable.Plain
import ClassCheck.Proofs.Declare.Members

/-!
# Types that name classes

A type in a table that was built from a program is a basic one or that of a class of the program, but
for those of `main`. So what may be assigned, passed or returned has such a type too.
-/

namespace ClassCheck

namespace ClassTable

variable {t t' : ClassTable} {ty : Ty}

/-- If this is the type of the objects of a class, then there is such a class. -/
def Grounded (t : ClassTable) : Ty → Prop
  | .object name => t.contains name = true
  | _ => True

/-- All types that can be asked for are grounded. -/
structure Meaningful (t : ClassTable) : Prop where
  resolved : ∀ cx name found, t.resolve cx name = some found → t.Grounded found.type
  methods : ∀ className method m, t.method? className method = some m →
    t.Grounded m.returnType ∧ ∀ v ∈ m.params, t.Grounded v.type

theorem Grounded.of_resolveSelf {className : String} (h : t.Grounded (ty.resolveSelf className)) :
    t.Grounded ty := by
  cases ty with
  | object name => exact h
  | int | boolean | intArray | self | void | stringArray => trivial

theorem contains_of_isSubclass {name ancestor : String} (h : t.isSubclass name ancestor = true) :
    t.contains name = true := by
  cases hp : t.parent? name with
  | none => simp [isSubclass, ancestors_of_none hp] at h
  | some parent =>
    obtain ⟨c, hc, -⟩ := Option.bind_eq_some_iff.1 hp
    rw [contains, hc]
    rfl

theorem Grounded.of_isAssignable {target : Ty} (h : t.Grounded target)
    (ha : t.isAssignable target ty = true) : t.Grounded ty := by
  unfold isAssignable at ha
  rw [Bool.or_eq_true, beq_iff_eq] at ha
  rcases ha with rfl | ha
  · exact h
  · split at ha
    · exact contains_of_isSubclass ha
    · cases ha

/-! ## Tables that differ in marks and offsets only -/

section

variable (hplain : t'.plain = t.plain)

include hplain

theorem contains_congr (name : String) : t'.contains name = t.contains name := by
  rw [← contains_plain t', hplain, contains_plain]

theorem grounded_congr : t'.Grounded ty ↔ t.Grounded ty := by
  cases ty with
  | object name => rw [Grounded, Grounded, contains_congr hplain]
  | int | boolean | intArray | self | void | stringArray => exact Iff.rfl

theorem Meaningful.congr (h : t.Meaningful) : t'.Meaningful := by
  constructor
  · intro cx name found hfound
    have hmap : (t.resolve cx name).map Resolved.plain = some found.plain := by
      rw [← resolve_plain, ← hplain, resolve_plain, hfound, Option.map_some]
    obtain ⟨found₀, hfound₀, heq⟩ := Option.map_eq_some_iff.1 hmap
    have htype : found₀.type = found.type := (congrArg Resolved.type heq :)
    rw [grounded_congr hplain, ← htype]
    exact h.resolved cx name found₀ hfound₀
  · intro className method m hm
    have hmap : (t.method? className method).map MethodInfo.plain = some m.plain := by
      rw [← method?_plain, ← hplain, method?_plain, hm, Option.map_some]
    obtain ⟨m₀, hm₀, heq⟩ := Option.map_eq_some_iff.1 hmap
    obtain ⟨hreturn, hparams⟩ := h.methods className method m₀ hm₀
    have hreturnType : m₀.returnType = m.returnType := (congrArg MethodInfo.returnType heq :)
    have hvariables : m₀.params.map Variable.plain = m.params.map Variable.plain :=
      congrArg MethodInfo.params heq
    refine ⟨by rwa [grounded_congr hplain, ← hreturnType], fun v hv => ?_⟩
    have hmem : v.plain ∈ m₀.params.map Variable.plain := by
      rw [hvariables]
      exact List.mem_map_of_mem hv
    obtain ⟨v₀, hv₀, hv⟩ := List.mem_map.1 hmem
    have htype : v₀.type = v.type := (congrArg Variable.type hv :)
    rw [grounded_congr hplain, ← htype]
    exact hparams v₀ hv₀

end

/-! ## Where members come from -/

theorem exists_of_mem_ancestors {name : String} {c : ClassInfo} (h : c ∈ t.ancestors name) :
    ∃ other, t.get? other = some c := by
  have hall : ∀ bound next, ∀ c ∈ t.chainWithin bound next, ∃ other, t.get? other = some c := by
    intro bound
    induction bound with
    | zero => exact fun _ => nofun
    | succ bound ih =>
      intro next
      unfold chainWithin
      split
      · exact nofun
      · next d hd =>
        obtain ⟨other, -, hother⟩ := Option.bind_eq_some_iff.1 hd
        exact List.forall_mem_cons.2 ⟨⟨other, hother⟩, ih d.parent⟩
  exact hall _ _ c h

theorem exists_of_method? {className method : String} {m : MethodInfo}
    (h : t.method? className method = some m) : ∃ name c, t.get? name = some c ∧ m ∈ c.methods := by
  unfold method? at h
  obtain ⟨c, hc, hm⟩ := Option.bind_eq_some_iff.1 h
  rcases Option.or_eq_some_iff.1 hm with hm | ⟨-, hm⟩
  · exact ⟨className, c, hc, List.mem_of_find?_eq_some hm⟩
  · obtain ⟨d, hd, hm⟩ := List.exists_of_findSome?_eq_some hm
    obtain ⟨name, hname⟩ := exists_of_mem_ancestors hd
    exact ⟨name, d, hname, List.mem_of_find?_eq_some hm⟩

end ClassTable

theorem MethodInfo.mem_of_findVar? {m : MethodInfo} {name : String} {v : Variable}
    (h : m.findVar? name = some v) : v ∈ m.params ++ m.locals := by
  unfold findVar? at h
  split at h
  · exact List.mem_append_left _ (List.mem_of_getElem? h)
  · exact List.mem_append_right _ (List.mem_of_getElem? h)
  · cases h

/-! ## Tables of programs -/

namespace Program.DeclaredIn

open ClassTable

variable {p : Program} {t : ClassTable}

/-! What holds of every known type and of the types of `main` holds of all types in the table. -/

section

variable {P : Ty → Prop} (hknown : ∀ ty, t.isKnownType ty = true → P ty)

include hknown

theorem types_variables {ds : List VarDecl} (hk : t.KnowsAll ds) (initialized : Bool) :
    ∀ v ∈ ds.map (VarDecl.variable initialized), P v.type :=
  List.forall_mem_map.2 fun d hd => hknown _ (hk d hd)

theorem types_method {owner : String} {d : MethodDecl} (hd : t.AcceptsMethod owner d) :
    P (d.declared owner).returnType ∧
      ∀ v ∈ (d.declared owner).params ++ (d.declared owner).locals, P v.type := by
  rw [MethodDecl.returnType_declared, MethodDecl.params_declared, MethodDecl.locals_declared]
  refine ⟨hknown _ hd.returnType, List.forall_mem_append.2 ⟨?_, ?_⟩⟩
  · exact types_variables hknown hd.params true
  · exact types_variables hknown hd.locals false

variable (hvoid : P .void) (hargs : P .stringArray)

include hvoid hargs

theorem types_mainInfo (h : p.DeclaredIn t) :
    P p.main.mainInfo.returnType ∧
      ∀ v ∈ p.main.mainInfo.params ++ p.main.mainInfo.locals, P v.type := by
  obtain ⟨hparams, hlocals, -, hreturn⟩ := MethodInfo.foldl_addLocal (VarDecl.variable false)
    p.main.locals (MethodInfo.addParam
      { name := ClassTable.mainMethod, owner := p.main.name.name, returnType := .void }
      { name := p.main.args.name, type := .stringArray, initialized := true })
  rw [MainClass.mainInfo, hparams, hlocals, hreturn]
  refine ⟨hvoid, List.forall_mem_append.2 ⟨?_, ?_⟩⟩
  · exact List.forall_mem_singleton.2 hargs
  · exact types_variables hknown h.mainLocals false

theorem types_members (h : p.DeclaredIn t) {name : String} {c : ClassInfo}
    (hc : t.get? name = some c) :
    (∀ v ∈ c.fields, P v.type) ∧
      ∀ m ∈ c.methods, P m.returnType ∧ ∀ v ∈ m.params ++ m.locals, P v.type := by
  rcases h.eq_declared hc with rfl | ⟨d, hd, -, rfl⟩
  · exact ⟨nofun, List.forall_mem_singleton.2 (types_mainInfo hknown hvoid hargs h)⟩
  · have haccepts := (h.classes d hd).2
    refine ⟨types_variables hknown haccepts.fields _, List.forall_mem_map.2 fun m hm => ?_⟩
    exact types_method hknown (haccepts.methods m hm)

end

theorem grounded_of_known (h : p.DeclaredIn t) {ty : Ty} (hk : t.isKnownType ty = true) :
    t.Grounded ty := by
  cases ty with
  | object name => exact h.ordered.isKnownType_object_iff.1 hk
  | int | boolean | intArray | self | void | stringArray => trivial

theorem grounded_members (h : p.DeclaredIn t) {name : String} {c : ClassInfo}
    (hc : t.get? name = some c) :
    (∀ v ∈ c.fields, t.Grounded v.type) ∧
      ∀ m ∈ c.methods, t.Grounded m.returnType ∧ ∀ v ∈ m.params ++ m.locals, t.Grounded v.type :=
  types_members (fun _ hk => h.grounded_of_known hk) trivial trivial h hc

theorem grounded_field (h : p.DeclaredIn t) {name field : String} {c : ClassInfo} {v : Variable}
    (hc : t.get? name = some c) (hv : c.field? field = some v) : t.Grounded v.type :=
  (h.grounded_members hc).1 v (List.mem_of_find?_eq_some hv)

theorem meaningful (h : p.DeclaredIn t) : t.Meaningful := by
  constructor
  · intro cx name found hfound
    unfold ClassTable.resolve at hfound
    rcases Option.or_eq_some_iff.1 hfound with hfound | ⟨-, hfound⟩
    · obtain ⟨c, hc, hfound⟩ := Option.bind_eq_some_iff.1 hfound
      obtain ⟨m, hm, hfound⟩ := Option.bind_eq_some_iff.1 hfound
      obtain ⟨v, hv, hfound⟩ := Option.bind_eq_some_iff.1 hfound
      obtain rfl := Option.some.inj hfound
      obtain ⟨-, hvars⟩ := (h.grounded_members hc).2 m (List.mem_of_find?_eq_some hm)
      exact hvars v (MethodInfo.mem_of_findVar? hv)
    rcases Option.or_eq_some_iff.1 hfound with hfound | ⟨-, hfound⟩
    · obtain ⟨c, hc, hfound⟩ := Option.bind_eq_some_iff.1 hfound
      obtain ⟨v, hv, hfound⟩ := Option.bind_eq_some_iff.1 hfound
      obtain rfl := Option.some.inj hfound
      exact h.grounded_field hc hv
    · obtain ⟨c, hmem, hfound⟩ := List.exists_of_findSome?_eq_some hfound
      obtain ⟨v, hv, rfl⟩ := Option.map_eq_some_iff.1 hfound
      obtain ⟨other, hc⟩ := exists_of_mem_ancestors hmem
      exact h.grounded_field hc hv
  · intro className method m hm
    obtain ⟨name, c, hc, hmem⟩ := exists_of_method? hm
    obtain ⟨hreturn, hvars⟩ := (h.grounded_members hc).2 m hmem
    exact ⟨hreturn, fun v hv => hvars v (List.mem_append_left _ hv)⟩

end Program.DeclaredIn

end ClassCheck
