import ClassCheck.Declare.Members
import ClassCheck.Proofs.Declare.Classes

/-!
# What declaring members gives

A class that is filled in holds just what its declaration says. All types in it are known, and its
methods agree with those they override, in the table that is there in the end: filling in later
classes changes nothing above a class.
-/

namespace ClassCheck

/-! ## Declarations and what is kept of them -/

def VarDecl.variable (initialized : Bool) (d : VarDecl) : Variable :=
  { name := d.name.name, type := Ty.ofName d.type.name, initialized }

/-- A method before its locals are declared. -/
def MethodDecl.head (owner : String) (d : MethodDecl) : MethodInfo :=
  d.params.foldl (fun m v => m.addParam (v.variable true))
    { name := d.name.name, owner, returnType := Ty.ofName d.returnType.name }

def MethodDecl.declared (owner : String) (d : MethodDecl) : MethodInfo :=
  d.locals.foldl (fun m v => m.addLocal (v.variable false)) (d.head owner)

def ClassDecl.declared (d : ClassDecl) : ClassInfo :=
  { name := d.name.name
    parent := d.superclass.map (·.name)
    fields := d.fields.map (VarDecl.variable d.superclass.isSome)
    methods := d.methods.map (MethodDecl.declared d.name.name) }

def MainClass.mainInfo (d : MainClass) : MethodInfo :=
  let main : MethodInfo :=
    { name := ClassTable.mainMethod, owner := d.name.name, returnType := .void }
  d.locals.foldl (fun m v => m.addLocal (v.variable false))
    (main.addParam { name := d.args.name, type := .stringArray, initialized := true })

def MainClass.declared (d : MainClass) : ClassInfo :=
  { name := d.name.name, parent := none, methods := [d.mainInfo] }

/-- The classes of a program as they are declared, in the order of the program. -/
def Program.declared (p : Program) : List ClassInfo :=
  p.main.declared :: p.classes.map ClassDecl.declared

namespace MethodInfo

theorem foldl_addParam (f : VarDecl → Variable) (ds : List VarDecl) (m : MethodInfo) :
    let n := ds.foldl (fun m d => m.addParam (f d)) m
    n.params = m.params ++ ds.map f ∧ n.locals = m.locals ∧ n.name = m.name ∧ n.owner = m.owner ∧
      n.returnType = m.returnType := by
  induction ds generalizing m with
  | nil => simp
  | cons d ds ih => simpa [addParam] using ih (m.addParam (f d))

theorem foldl_addLocal (f : VarDecl → Variable) (ds : List VarDecl) (m : MethodInfo) :
    let n := ds.foldl (fun m d => m.addLocal (f d)) m
    n.params = m.params ∧ n.locals = m.locals ++ ds.map f ∧ n.name = m.name ∧
      n.returnType = m.returnType := by
  induction ds generalizing m with
  | nil => simp
  | cons d ds ih => simpa [addLocal] using ih (m.addLocal (f d))

theorem owner_foldl_addLocal (f : VarDecl → Variable) (ds : List VarDecl) (m : MethodInfo) :
    (ds.foldl (fun m d => m.addLocal (f d)) m).owner = m.owner := by
  induction ds generalizing m with
  | nil => rfl
  | cons d ds ih => exact ih (m.addLocal (f d))

/-- The same return type and the same parameter types. -/
def SameSignature (m n : MethodInfo) : Prop :=
  m.returnType = n.returnType ∧ m.params.map (·.type) = n.params.map (·.type)

end MethodInfo

namespace MethodDecl

variable (owner : String) (d : MethodDecl)

theorem params_head : (d.head owner).params = d.params.map (VarDecl.variable true) :=
  (MethodInfo.foldl_addParam _ _ _).1

theorem params_declared : (d.declared owner).params = d.params.map (VarDecl.variable true) :=
  (MethodInfo.foldl_addLocal _ _ _).1.trans (d.params_head owner)

theorem locals_declared : (d.declared owner).locals = d.locals.map (VarDecl.variable false) := by
  rw [declared, (MethodInfo.foldl_addLocal _ _ _).2.1, head, (MethodInfo.foldl_addParam _ _ _).2.1]
  rfl

theorem name_declared : (d.declared owner).name = d.name.name :=
  (MethodInfo.foldl_addLocal _ _ _).2.2.1.trans (MethodInfo.foldl_addParam _ _ _).2.2.1

theorem owner_declared : (d.declared owner).owner = owner :=
  (MethodInfo.owner_foldl_addLocal _ _ _).trans (MethodInfo.foldl_addParam _ _ _).2.2.2.1

theorem returnType_declared : (d.declared owner).returnType = Ty.ofName d.returnType.name :=
  (MethodInfo.foldl_addLocal _ _ _).2.2.2.trans (MethodInfo.foldl_addParam _ _ _).2.2.2.2

end MethodDecl

namespace MainClass

variable (d : MainClass)

theorem params_mainInfo :
    d.mainInfo.params = [{ name := d.args.name, type := .stringArray, initialized := true }] :=
  (MethodInfo.foldl_addLocal _ _ _).1

theorem locals_mainInfo : d.mainInfo.locals = d.locals.map (VarDecl.variable false) :=
  (MethodInfo.foldl_addLocal _ _ _).2.1

theorem name_mainInfo : d.mainInfo.name = ClassTable.mainMethod :=
  (MethodInfo.foldl_addLocal _ _ _).2.2.1

theorem owner_mainInfo : d.mainInfo.owner = d.name.name :=
  MethodInfo.owner_foldl_addLocal _ _ _

theorem returnType_mainInfo : d.mainInfo.returnType = .void :=
  (MethodInfo.foldl_addLocal _ _ _).2.2.2

theorem method?_declared : d.declared.method? ClassTable.mainMethod = some d.mainInfo := by
  simp [declared, ClassInfo.method?, d.name_mainInfo]

end MainClass

namespace ClassTable

variable {t t' : ClassTable} {c c' : ClassInfo} {m m' : MethodInfo}

/-! ## Variables -/

/-- All types written in these declarations are known. -/
def KnowsAll (t : ClassTable) (ds : List VarDecl) : Prop :=
  ∀ d ∈ ds, t.isKnownType (Ty.ofName d.type.name) = true

theorem knownType_ok {ref : TypeRef} {name : String} {ty : Ty} (h : t.knownType ref name = .ok ty) :
    ty = Ty.ofName ref.name ∧ t.isKnownType (Ty.ofName ref.name) = true := by
  unfold knownType at h
  dsimp only at h
  split at h
  · next hknown => exact ⟨(Except.ok.inj h).symm, hknown⟩
  · cases h

/-- The loops over declarations differ in what they refuse and in what they add. -/
theorem foldl_of_loop_ok {σ : Type} {loop : σ → List VarDecl → Except SemanticError σ}
    {taken : σ → VarDecl → Bool} {e : σ → VarDecl → SemanticError} {add : σ → VarDecl → Ty → σ}
    (hnil : ∀ s, loop s [] = .ok s)
    (hcons : ∀ s d ds, loop s (d :: ds) = do
      let type ← t.knownType d.type d.name.name
      if taken s d then .error (e s d) else loop (add s d type) ds)
    {ds : List VarDecl} {s s' : σ} (h : loop s ds = .ok s') :
    s' = ds.foldl (fun s d => add s d (Ty.ofName d.type.name)) s ∧ t.KnowsAll ds := by
  induction ds generalizing s with
  | nil =>
    rw [hnil] at h
    obtain rfl := Except.ok.inj h
    exact ⟨rfl, by simp [KnowsAll]⟩
  | cons d ds ih =>
    rw [hcons] at h
    obtain ⟨ty, hty, h⟩ := Outcome.bind_eq_ok.1 h
    obtain ⟨rfl, hknown⟩ := knownType_ok hty
    obtain ⟨-, h⟩ := Outcome.ite_error_eq_ok.1 h
    obtain ⟨rfl, hrest⟩ := ih h
    exact ⟨rfl, List.forall_mem_cons.2 ⟨hknown, hrest⟩⟩

theorem declareFields_ok {ds : List VarDecl} (h : t.declareFields c ds = .ok c') :
    c' = { c with fields := c.fields ++ ds.map (VarDecl.variable c.parent.isSome) } ∧
      t.KnowsAll ds := by
  obtain ⟨rfl, hknown⟩ := foldl_of_loop_ok (fun _ => rfl) (fun _ _ _ => rfl) h
  refine ⟨?_, hknown⟩
  clear h hknown
  induction ds generalizing c with
  | nil => simp
  | cons d ds ih => simp [ih, VarDecl.variable]

theorem declareParams_ok {ds : List VarDecl} (h : t.declareParams m ds = .ok m') :
    m' = ds.foldl (fun m d => m.addParam (d.variable true)) m ∧ t.KnowsAll ds :=
  foldl_of_loop_ok (fun _ => rfl) (fun _ _ _ => rfl) h

theorem declareLocals_ok {ds : List VarDecl} (h : t.declareLocals m ds = .ok m') :
    m' = ds.foldl (fun m d => m.addLocal (d.variable false)) m ∧ t.KnowsAll ds :=
  foldl_of_loop_ok (fun _ => rfl) (fun _ _ _ => rfl) h

/-! ## Overriding -/

theorem paramMismatch?_eq_none {method superclass : String} {position : Nat}
    {expected found : List Variable} {ds : List VarDecl} (hlen : expected.length = found.length)
    (hds : found.length = ds.length)
    (h : paramMismatch? method superclass position expected found ds = none) :
    expected.map (·.type) = found.map (·.type) := by
  induction expected generalizing position found ds with
  | nil =>
    obtain rfl := List.eq_nil_of_length_eq_zero hlen.symm
    rfl
  | cons e expected ih =>
    obtain ⟨f, found, rfl⟩ := List.exists_cons_of_length_eq_add_one hlen.symm
    obtain ⟨d, ds, rfl⟩ := List.exists_cons_of_length_eq_add_one hds.symm
    unfold paramMismatch? at h
    split at h
    · next htype =>
      rw [List.map_cons, List.map_cons, htype,
        ih (by simpa using hlen) (by simpa using hds) h]
    · simp at h

theorem overrideError?_eq_none {inherited : MethodInfo} {d : MethodDecl}
    (hlen : m.params.length = d.params.length) (h : overrideError? inherited m d = none) :
    inherited.SameSignature m := by
  unfold overrideError? at h
  split at h
  · simp at h
  · next hreturn =>
    split at h
    · simp at h
    · next harity =>
      exact ⟨Decidable.not_not.1 hreturn,
        paramMismatch?_eq_none (Decidable.not_not.1 harity) hlen h⟩

theorem checkOverride_ok {d : MethodDecl} (h : t.checkOverride m d = .ok ())
    (hlen : m.params.length = d.params.length) {inherited : MethodInfo}
    (hi : t.inheritedMethod? m.owner m.name = some inherited) : inherited.SameSignature m := by
  unfold checkOverride at h
  split at h
  · cases h
  · next hnone =>
    rw [hi, Option.bind_some] at hnone
    exact overrideError?_eq_none hlen hnone

/-! ## Methods and classes -/

/-- The types in a method declaration are known, and it agrees with what it overrides. -/
structure AcceptsMethod (t : ClassTable) (owner : String) (d : MethodDecl) : Prop where
  returnType : t.isKnownType (Ty.ofName d.returnType.name) = true
  params : t.KnowsAll d.params
  locals : t.KnowsAll d.locals
  overriding : ∀ inherited, t.inheritedMethod? owner d.name.name = some inherited →
    inherited.SameSignature (d.declared owner)

structure AcceptsClass (t : ClassTable) (d : ClassDecl) : Prop where
  fields : t.KnowsAll d.fields
  methods : ∀ m ∈ d.methods, t.AcceptsMethod d.name.name m

theorem declareMethod_ok {d : MethodDecl} (h : t.declareMethod c d = .ok c') :
    c' = { c with methods := c.methods ++ [d.declared c.name] } ∧ t.AcceptsMethod c.name d := by
  obtain ⟨ty, hty, h⟩ := Outcome.bind_eq_ok.1 h
  obtain ⟨rfl, hreturn⟩ := knownType_ok hty
  obtain ⟨-, h⟩ := Outcome.ite_error_eq_ok.1 h
  obtain ⟨-, h⟩ := Outcome.ite_error_eq_ok.1 h
  obtain ⟨head, hhead, h⟩ := Outcome.bind_eq_ok.1 h
  obtain ⟨⟨⟩, hoverride, h⟩ := Outcome.bind_eq_ok.1 h
  obtain ⟨m, hm, h⟩ := Outcome.bind_eq_ok.1 h
  obtain ⟨rfl, hparams⟩ := declareParams_ok hhead
  obtain ⟨rfl, hlocals⟩ := declareLocals_ok hm
  refine ⟨(Except.ok.inj h).symm, hreturn, hparams, hlocals, ?_⟩
  intro inherited hi
  change t.checkOverride (d.head c.name) d = .ok () at hoverride
  have hhead := MethodInfo.foldl_addParam (VarDecl.variable true) d.params
    { name := d.name.name, owner := c.name, returnType := Ty.ofName d.returnType.name }
  obtain ⟨hr, hp⟩ := checkOverride_ok hoverride (by simp [MethodDecl.params_head])
    (by rwa [MethodDecl.head, hhead.2.2.1, hhead.2.2.2.1])
  refine ⟨?_, ?_⟩
  · rw [hr, MethodDecl.returnType_declared, MethodDecl.head, hhead.2.2.2.2]
  · rw [hp, MethodDecl.params_declared, MethodDecl.params_head]

theorem declareMethods_ok {ds : List MethodDecl} (h : t.declareMethods c ds = .ok c') :
    c' = { c with methods := c.methods ++ ds.map (MethodDecl.declared c.name) } ∧
      ∀ d ∈ ds, t.AcceptsMethod c.name d := by
  induction ds generalizing c with
  | nil =>
    obtain rfl := Except.ok.inj h
    simp
  | cons d ds ih =>
    obtain ⟨c₁, hc₁, h⟩ := Outcome.bind_eq_ok.1 h
    obtain ⟨rfl, hd⟩ := declareMethod_ok hc₁
    obtain ⟨rfl, hds⟩ := ih h
    exact ⟨by simp, List.forall_mem_cons.2 ⟨hd, hds⟩⟩

theorem fillClass_ok {d : ClassDecl} (h : t.fillClass d = .ok t') :
    t' = t.store d.declared ∧ t.AcceptsClass d := by
  obtain ⟨c₁, hc₁, h⟩ := Outcome.bind_eq_ok.1 h
  obtain ⟨c₂, hc₂, h⟩ := Outcome.bind_eq_ok.1 h
  obtain ⟨rfl, hfields⟩ := declareFields_ok hc₁
  obtain ⟨rfl, hmethods⟩ := declareMethods_ok hc₂
  obtain rfl := Except.ok.inj h
  refine ⟨?_, hfields, hmethods⟩
  simp [ClassDecl.declared]

theorem fillMain_ok {d : MainClass} (h : t.fillMain d = .ok t') :
    t' = t.store d.declared ∧ t.KnowsAll d.locals := by
  obtain ⟨m, hm, h⟩ := Outcome.bind_eq_ok.1 h
  obtain ⟨rfl, hlocals⟩ := declareLocals_ok hm
  exact ⟨(Except.ok.inj h).symm, hlocals⟩

/-! ## Later classes change nothing above a class -/

theorem AcceptsClass.congr {d : ClassDecl} (h : t.AcceptsClass d) (htypes : t'.types = t.types)
    (hinherited : ∀ m, t'.inheritedMethod? d.name.name m = t.inheritedMethod? d.name.name m) :
    t'.AcceptsClass d := by
  have hknown : t'.isKnownType = t.isKnownType := by
    funext ty
    rw [isKnownType, isKnownType, htypes]
  have hall : ∀ ds, t.KnowsAll ds → t'.KnowsAll ds := by
    intro ds hds v hv
    rw [hknown]
    exact hds v hv
  refine ⟨hall _ h.fields, fun m hm => ?_⟩
  obtain ⟨hreturn, hparams, hlocals, hover⟩ := h.methods m hm
  refine ⟨by rwa [hknown], hall _ hparams, hall _ hlocals, fun inherited hi => ?_⟩
  rw [hinherited] at hi
  exact hover inherited hi

/-- When the next class is filled in, the classes before it stay as they are, and those after it are still to
come. -/
theorem Ordered.store_next {d : ClassDecl} {ds : List ClassDecl} {done : List String} (ht : t.Ordered)
    (horder : t.order = done ++ d.name.name :: ds.map (·.name.name))
    (hheader : ∀ e ∈ d :: ds, t.get? e.name.name = some e.header.declared) :
    (t.store d.declared).Ordered ∧
      (t.store d.declared).order = (done ++ [d.name.name]) ++ ds.map (·.name.name) ∧
      (∀ e ∈ ds, (t.store d.declared).get? e.name.name = some e.header.declared) ∧
      (∀ name ∈ done, (t.store d.declared).get? name = t.get? name) ∧
      (t.store d.declared).get? d.name.name = some d.declared := by
  rw [List.forall_mem_cons] at hheader
  have hnodup := ht.nodup
  rw [horder, List.nodup_append, List.nodup_cons] at hnodup
  obtain ⟨-, ⟨hds, -⟩, hdone⟩ := hnodup
  refine ⟨(ht.store (c := d.declared) hheader.1 rfl).1, ?_, ?_, ?_, ?_⟩
  · rw [List.append_assoc]
    exact horder
  · intro e he
    rw [get?_store, if_neg, hheader.2 e he]
    exact fun hname => hds (List.mem_map.2 ⟨e, he, hname.symm⟩)
  · intro name hname
    rw [get?_store, if_neg]
    exact (hdone name hname _ List.mem_cons_self).symm
  · rw [get?_store]
    exact if_pos rfl

/-- The classes named in `done` are filled in already, and they are the first ones. -/
theorem Ordered.fillClasses {ds : List ClassDecl} {done : List String} (ht : t.Ordered)
    (horder : t.order = done ++ ds.map (·.name.name))
    (hheader : ∀ d ∈ ds, t.get? d.name.name = some d.header.declared)
    (hok : t.fillClasses ds = .ok t') :
    t'.Ordered ∧ t'.order = t.order ∧ t'.types = t.types ∧
      (∀ name ∈ done, t'.get? name = t.get? name) ∧
      ∀ d ∈ ds, t'.get? d.name.name = some d.declared ∧ t'.AcceptsClass d := by
  induction ds generalizing t done with
  | nil =>
    obtain rfl := Except.ok.inj hok
    simp [ht]
  | cons d ds ih =>
    obtain ⟨t₁, hfill, hrest⟩ := Outcome.bind_eq_ok.1 hok
    obtain ⟨rfl, haccept⟩ := fillClass_ok hfill
    rw [List.map_cons] at horder
    obtain ⟨hstore, horder₁, hother, hkeep₁, hget₁⟩ := ht.store_next horder hheader
    obtain ⟨hordered', horder', htypes', hget', hall⟩ := ih hstore horder₁ hother hrest
    have hkeep : ∀ name ∈ done, t'.get? name = t.get? name := by
      intro name hname
      rw [hget' name (List.mem_append_left _ hname), hkeep₁ name hname]
    have hget : t'.get? d.name.name = some d.declared := by
      rw [hget' _ (List.mem_append_right _ (List.mem_singleton_self _)), hget₁]
    refine ⟨hordered', horder', htypes', hkeep, List.forall_mem_cons.2 ⟨⟨hget, ?_⟩, hall⟩⟩
    have hparent' : t'.parent? d.name.name = t.parent? d.name.name := by
      rw [parent?, parent?, hget, hheader d List.mem_cons_self]
      rfl
    exact haccept.congr htypes' (ht.inheritedMethod?_congr hordered' horder hkeep hparent')

end ClassTable

/-! ## Programs -/

/-- The table holds the classes of the program as they are declared, and nothing else. All types in
them are known, and methods agree with what they override. -/
structure Program.DeclaredIn (p : Program) (t : ClassTable) : Prop where
  ordered : t.Ordered
  order : t.order = p.headers.map (·.name.name)
  main : t.get? p.main.name.name = some p.main.declared
  mainLocals : t.KnowsAll p.main.locals
  classes : ∀ d ∈ p.classes, t.get? d.name.name = some d.declared ∧ t.AcceptsClass d

theorem Program.ordered_store_main {p : Program} {t₀ : ClassTable}
    (h₀ : p.declareClasses.outcome = .ok t₀) :
    (t₀.store p.main.declared).Ordered ∧
      (t₀.store p.main.declared).order = [p.main.name.name] ++ p.classes.map (·.name.name) ∧
      ∀ d ∈ p.classes, (t₀.store p.main.declared).get? d.name.name = some d.header.declared := by
  obtain ⟨hordered, horder, hheaders⟩ := Program.ordered_declareClasses h₀
  rw [headers, List.forall_mem_cons, List.forall_mem_map] at hheaders
  obtain ⟨hstore, -⟩ := hordered.store (c := p.main.declared) hheaders.1 rfl
  have hnames : t₀.order = [p.main.name.name] ++ p.classes.map (·.name.name) := by
    rw [horder, headers, List.map_cons, List.map_map]
    rfl
  refine ⟨hstore, hnames, fun d hd => ?_⟩
  have hnodup := hordered.nodup
  rw [hnames, List.singleton_append, List.nodup_cons] at hnodup
  rw [ClassTable.get?_store, if_neg, ← hheaders.2 d hd]
  · rfl
  · exact fun hname => hnodup.1 (List.mem_map.2 ⟨d, hd, hname.symm⟩)

theorem Program.declareMembers_ok_iff {p : Program} {t₀ t : ClassTable} :
    (p.declareMembers t₀).outcome = .ok t ↔
      (t₀.fillMain p.main >>= fun t => t.fillClasses p.classes) = .ok t := by
  rw [declareMembers, Logged.bind_ok]
  constructor
  · rintro ⟨t', hfill, hrest⟩
    rw [Logged.record_bind_ok] at hrest
    obtain rfl := Logged.pure_ok.1 hrest
    exact hfill
  · intro hfill
    exact ⟨t, hfill, Logged.record_bind_ok.2 (Logged.pure_ok.2 rfl)⟩

theorem Program.declaredIn_declareMembers {p : Program} {t₀ t : ClassTable}
    (h₀ : p.declareClasses.outcome = .ok t₀) (h : (p.declareMembers t₀).outcome = .ok t) :
    p.DeclaredIn t := by
  obtain ⟨t₁, hmain, hclasses⟩ := Outcome.bind_eq_ok.1 (declareMembers_ok_iff.1 h)
  obtain ⟨rfl, hlocals⟩ := ClassTable.fillMain_ok hmain
  obtain ⟨hstore, hnames, hother⟩ := Program.ordered_store_main h₀
  obtain ⟨hordered', horder', htypes', hget', hall⟩ := hstore.fillClasses hnames hother hclasses
  refine ⟨hordered', ?_, ?_, ?_, hall⟩
  · rw [horder', hnames, headers, List.map_cons, List.map_map]
    rfl
  · rw [hget' _ (List.mem_singleton_self _), ClassTable.get?_store]
    exact if_pos rfl
  · intro d hd
    rw [ClassTable.isKnownType, htypes']
    exact hlocals d hd

theorem Program.DeclaredIn.eq_declared {p : Program} {t : ClassTable} (h : p.DeclaredIn t)
    {name : String} {c : ClassInfo} (hc : t.get? name = some c) :
    c = p.main.declared ∨ ∃ d ∈ p.classes, d.name.name = name ∧ c = d.declared := by
  have hmem : name ∈ t.order := h.ordered.isSome_get?_iff.1 (by rw [hc]; rfl)
  rw [h.order, headers, List.map_cons, List.map_map, List.mem_cons, List.mem_map] at hmem
  rcases hmem with rfl | ⟨d, hd, rfl⟩
  · exact .inl (Option.some.inj (hc.symm.trans h.main))
  · exact .inr ⟨d, hd, rfl, Option.some.inj (hc.symm.trans (h.classes d hd).1)⟩

end ClassCheck
