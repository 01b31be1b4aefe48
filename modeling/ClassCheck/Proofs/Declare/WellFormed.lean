import Mathlib.Data.List.Forall2
import ClassCheck.Proofs.ClassTable.Lookup
import ClassCheck.Proofs.Declare.Acceptance
import ClassCheck.Proofs.Declare.Hierarchy
import ClassCheck.Proofs.Declare.Overriding
import ClassCheck.Proofs.Program.Trees

/-!
# Well-formed programs

What a program has to be like for its members to be accepted, said of the program alone: a class may be used
before it is declared, and what a method overrides is the declaration of the nearest class above that has one.
The members of a program are accepted if and only if it is well-formed, and then the table holds them as they
are declared.
-/

namespace ClassCheck

open ClassHeader (ForwardFree)
open ClassTable

/-- What a method returns and takes. -/
structure MethodType where
  returnType : Ty
  params : List Ty

def MethodInfo.type (m : MethodInfo) : MethodType := ⟨m.returnType, m.params.map (·.type)⟩

def MethodDecl.type (d : MethodDecl) : MethodType :=
  ⟨Ty.ofName d.returnType.name, d.params.map fun v => Ty.ofName v.type.name⟩

theorem MethodInfo.sameSignature_iff {m n : MethodInfo} : m.SameSignature n ↔ n.type = m.type := by
  rw [SameSignature, type, type, MethodType.mk.injEq]
  exact and_congr eq_comm eq_comm

theorem MethodDecl.type_declared (owner : String) (d : MethodDecl) : (d.declared owner).type = d.type := by
  rw [MethodInfo.type, d.returnType_declared, d.params_declared, List.map_map]
  rfl

theorem MainClass.type_mainInfo (d : MainClass) : d.mainInfo.type = ⟨.void, [.stringArray]⟩ := by
  rw [MethodInfo.type, d.params_mainInfo, d.returnType_mainInfo]
  rfl

/-! ## Rules for programs -/

namespace Program

/-- A basic type, or a class of the program wherever it is declared. -/
def Knows (p : Program) : TypeName → Prop
  | .int | .boolean | .intArray => True
  | .named name => name ∈ ClassHeader.names p.headers

/-- The first class names the second one as its superclass. -/
def Extends (p : Program) (name parent : String) : Prop :=
  ∃ d ∈ p.classes, d.name.name = name ∧ d.superclass.map (·.name) = some parent

/-- The class itself declares a method of this name and type. -/
inductive Declares (p : Program) : String → String → MethodType → Prop
  | main : Declares p p.main.name.name mainMethod ⟨.void, [.stringArray]⟩
  | method {d : ClassDecl} {m : MethodDecl} : d ∈ p.classes → m ∈ d.methods →
      Declares p d.name.name m.name.name m.type

/-- The nearest ancestor of the class that declares a method of this name gives it this type. -/
inductive Inherits (p : Program) : String → String → MethodType → Prop
  | fromParent {name parent method : String} {type : MethodType} : p.Extends name parent →
      p.Declares parent method type → Inherits p name method type
  | fromAbove {name parent method : String} {type : MethodType} : p.Extends name parent →
      (∀ type, ¬ p.Declares parent method type) → Inherits p parent method type →
      Inherits p name method type

/-- All types are known, no name is declared twice, and methods have the types of those they override. -/
structure WellFormed (p : Program) : Prop where
  types : ∀ ref ∈ p.typeRefs, p.Knows ref.name
  mainNames : (p.main.args.name :: p.main.locals.map (·.name.name)).Nodup
  names : ∀ d ∈ p.classes, d.NamesDistinct
  overriding : ∀ d ∈ p.classes, ∀ m ∈ d.methods, ∀ type,
    p.Inherits d.name.name m.name.name type → m.type = type

/-! ## The table of a program -/

/-- The table that holds the classes of the program as they are declared. -/
def table (p : Program) : ClassTable := { ofHeaders p.headers with entries := p.declared }

variable {p : Program} {t₀ t : ClassTable} {name parent method : String} {type : MethodType}

theorem names_declared (p : Program) : p.declared.map (·.name) = ClassHeader.names p.headers := by
  simp [Program.declared, headers, ClassHeader.names, Function.comp_def, ClassDecl.declared,
    MainClass.declared, ClassDecl.header]

theorem parent?_table (p : Program) : p.table.parent? = (ofHeaders p.headers).parent? := by
  have hfind : ∀ (cs : List ClassInfo) (name : String), (cs.find? (·.name == name)).bind (·.parent) =
      ((cs.map fun c => (c.name, c.parent)).find? (·.1 == name)).bind (·.2) := by
    intro cs name
    rw [List.find?_map, Option.bind_map]
    rfl
  have hlinks : p.declared.map (fun c => (c.name, c.parent)) =
      (p.headers.map ClassHeader.declared).map fun c => (c.name, c.parent) := by
    rw [Program.declared, headers, List.map_cons, List.map_cons, List.map_cons, List.map_map, List.map_map,
      List.map_map]
    rfl
  funext name
  exact (hfind p.declared name).trans (hlinks ▸ (hfind _ name).symm)

theorem ordered_table (hfree : ForwardFree p.headers) : p.table.Ordered := by
  obtain ⟨hordered, -, -⟩ := ordered_declareClasses (declareClasses_ok_iff.2 ⟨hfree, rfl⟩)
  refine ⟨p.names_declared, hfree.distinct, hordered.types, ?_⟩
  rw [parent?_table]
  exact hordered.parents

theorem get?_table_iff (hfree : ForwardFree p.headers) {c : ClassInfo} :
    p.table.get? name = some c ↔ c ∈ p.declared ∧ c.name = name :=
  find?_iff_of_nodup (p.names_declared ▸ hfree.distinct)

theorem get?_table_main (hfree : ForwardFree p.headers) :
    p.table.get? p.main.name.name = some p.main.declared :=
  (get?_table_iff hfree).2 ⟨List.mem_cons_self, rfl⟩

theorem get?_table (hfree : ForwardFree p.headers) {d : ClassDecl} (hd : d ∈ p.classes) :
    p.table.get? d.name.name = some d.declared :=
  (get?_table_iff hfree).2 ⟨List.mem_cons_of_mem _ (List.mem_map_of_mem hd), rfl⟩

theorem extends_iff (hfree : ForwardFree p.headers) :
    p.Extends name parent ↔ p.table.parent? name = some parent := by
  rw [parent?, Option.bind_eq_some_iff]
  constructor
  · rintro ⟨d, hd, rfl, hparent⟩
    exact ⟨d.declared, get?_table hfree hd, hparent⟩
  · rintro ⟨c, hc, hparent⟩
    obtain ⟨hmem, rfl⟩ := (get?_table_iff hfree).1 hc
    rcases List.mem_cons.1 hmem with rfl | hmem
    · cases hparent
    · obtain ⟨d, hd, rfl⟩ := List.mem_map.1 hmem
      exact ⟨d, hd, rfl, hparent⟩

theorem declares_iff (hfree : ForwardFree p.headers) (hnames : ∀ d ∈ p.classes, d.NamesDistinct) :
    p.Declares name method type ↔
      ∃ c m, p.table.get? name = some c ∧ c.method? method = some m ∧ m.type = type := by
  constructor
  · intro hdeclares
    cases hdeclares with
    | main =>
      exact ⟨_, p.main.mainInfo, get?_table_main hfree, p.main.method?_declared, p.main.type_mainInfo⟩
    | @method d m hd hm =>
      refine ⟨_, m.declared d.name.name, get?_table hfree hd, ?_, m.type_declared _⟩
      have hnodup : (d.declared.methods.map (·.name)).Nodup := by
        rw [ClassDecl.declared, List.map_map]
        simpa only [Function.comp_def, MethodDecl.name_declared] using (hnames d hd).methods
      exact (find?_iff_of_nodup hnodup).2 ⟨List.mem_map_of_mem hm, m.name_declared _⟩
  · rintro ⟨c, m, hc, hm, rfl⟩
    obtain ⟨hmem, rfl⟩ := (get?_table_iff hfree).1 hc
    rcases List.mem_cons.1 hmem with rfl | hmem
    · obtain rfl := List.mem_singleton.1 (List.mem_of_find?_eq_some hm)
      obtain rfl : p.main.mainInfo.name = method := by simpa using List.find?_some hm
      rw [p.main.type_mainInfo, p.main.name_mainInfo]
      exact .main
    · obtain ⟨d, hd, rfl⟩ := List.mem_map.1 hmem
      obtain ⟨md, hmd, rfl, rfl⟩ := ClassDecl.method?_declared hm
      rw [md.type_declared]
      exact .method hd hmd

/-- The rule and the search go up from class to class in the same way. -/
theorem inherits_iff (hfree : ForwardFree p.headers) (hnames : ∀ d ∈ p.classes, d.NamesDistinct) :
    p.Inherits name method type ↔
      ∃ m, p.table.inheritedMethod? name method = some m ∧ m.type = type := by
  have hordered := ordered_table hfree
  constructor
  · intro hinherits
    induction hinherits with
    | @fromParent name parent method type hextends hparent =>
      have hp := (extends_iff hfree).1 hextends
      obtain ⟨c, m, hc, hm, htype⟩ := (declares_iff hfree hnames).1 hparent
      refine ⟨m, ?_, htype⟩
      rw [hordered.inheritedMethod?_of_parent hp, method?_of_get? hc, hm, Option.some_or]
    | @fromAbove name parent method type hextends hnone _ ih =>
      have hp := (extends_iff hfree).1 hextends
      obtain ⟨c, hc⟩ := hordered.exists_parent hp
      obtain ⟨m, hm, htype⟩ := ih
      have hown : c.method? method = none := Option.eq_none_iff_forall_ne_some.2 fun own hown =>
        hnone own.type ((declares_iff hfree hnames).2 ⟨c, own, hc, hown, rfl⟩)
      refine ⟨m, ?_, htype⟩
      rw [hordered.inheritedMethod?_of_parent hp, method?_of_get? hc, hown, Option.none_or, hm]
  · rintro ⟨m, hm, rfl⟩
    induction name using hordered.induction with
    | step name ih =>
      cases hp : p.table.parent? name with
      | none =>
        rw [inheritedMethod?_of_none hp] at hm
        cases hm
      | some parent =>
        have hextends := (extends_iff hfree).2 hp
        obtain ⟨c, hc⟩ := hordered.exists_parent hp
        rw [hordered.inheritedMethod?_of_parent hp, method?_of_get? hc] at hm
        cases hown : c.method? method with
        | some own =>
          rw [hown, Option.some_or] at hm
          obtain rfl := Option.some.inj hm
          exact .fromParent hextends ((declares_iff hfree hnames).2 ⟨c, own, hc, hown, rfl⟩)
        | none =>
          rw [hown, Option.none_or] at hm
          refine .fromAbove hextends ?_ (ih parent hp hm)
          intro type hparent
          obtain ⟨c', own, hc', hm', -⟩ := (declares_iff hfree hnames).1 hparent
          obtain rfl := Option.some.inj (hc.symm.trans hc')
          cases hown.symm.trans hm'

theorem isKnownType_table_iff {written : TypeName} :
    p.table.isKnownType (Ty.ofName written) = true ↔ p.Knows written := by
  cases written <;> simp [isKnownType, table, ofHeaders, Ty.ofName, Knows]

theorem types_iff : (∀ ref ∈ p.typeRefs, p.Knows ref.name) ↔
    p.table.KnowsAll p.main.locals ∧ ∀ d ∈ p.classes, p.table.KnowsAll d.fields ∧
      ∀ m ∈ d.methods, p.Knows m.returnType.name ∧ p.table.KnowsAll m.params ∧
        p.table.KnowsAll m.locals := by
  simp only [typeRefs, MainClass.typeRefs, ClassDecl.typeRefs, MethodDecl.typeRefs, KnowsAll,
    isKnownType_table_iff, List.forall_mem_append, List.forall_mem_cons, List.forall_mem_map,
    List.forall_mem_flatMap]

theorem wellFormed_iff (hfree : ForwardFree p.headers) :
    p.WellFormed ↔
      (p.table.KnowsAll p.main.locals ∧ (p.main.args.name :: p.main.locals.map (·.name.name)).Nodup) ∧
        ∀ d ∈ p.classes, d.NamesDistinct ∧ p.table.AcceptsClass d := by
  constructor
  · rintro ⟨htypes, hmain, hnames, hoverriding⟩
    obtain ⟨hlocals, hclasses⟩ := types_iff.1 htypes
    refine ⟨⟨hlocals, hmain⟩, fun d hd => ⟨hnames d hd, (hclasses d hd).1, fun m hm => ?_⟩⟩
    obtain ⟨hreturn, hparams, hlocals⟩ := (hclasses d hd).2 m hm
    refine ⟨isKnownType_table_iff.2 hreturn, hparams, hlocals, fun inherited hinherited => ?_⟩
    rw [MethodInfo.sameSignature_iff, m.type_declared]
    exact hoverriding d hd m hm _ ((inherits_iff hfree hnames).2 ⟨inherited, hinherited, rfl⟩)
  · rintro ⟨⟨hlocals, hmain⟩, hclasses⟩
    have hnames : ∀ d ∈ p.classes, d.NamesDistinct := fun d hd => (hclasses d hd).1
    refine ⟨types_iff.2 ⟨hlocals, fun d hd => ?_⟩, hmain, hnames, fun d hd m hm type hinherits => ?_⟩
    · refine ⟨(hclasses d hd).2.fields, fun m hm => ?_⟩
      obtain ⟨hreturn, hparams, hlocals, -⟩ := (hclasses d hd).2.methods m hm
      exact ⟨isKnownType_table_iff.1 hreturn, hparams, hlocals⟩
    · obtain ⟨inherited, hinherited, rfl⟩ := (inherits_iff hfree hnames).1 hinherits
      have hsame := ((hclasses d hd).2.methods m hm).overriding inherited hinherited
      rwa [MethodInfo.sameSignature_iff, m.type_declared] at hsame

/-! ## Filling in the members -/

theorem declareMembers_isOk_iff (h₀ : p.declareClasses.outcome = .ok t₀) :
    (∃ t, (p.declareMembers t₀).outcome = .ok t) ↔ p.WellFormed := by
  obtain ⟨hstore, horder, hheader⟩ := ordered_store_main h₀
  obtain ⟨hfree, rfl⟩ := declareClasses_ok_iff.1 h₀
  have hmain : ∀ name ∈ [p.main.name.name],
      p.table.get? name = ((ofHeaders p.headers).store p.main.declared).get? name := by
    intro name hname
    obtain rfl := List.mem_singleton.1 hname
    rw [get?_store, get?_table_main hfree]
    exact (if_pos rfl).symm
  simp only [declareMembers_ok_iff]
  rw [Outcome.exists_bind_ok fun _ h => (fillMain_ok h).1, fillMain_isOk_iff,
    hstore.fillClasses_isOk_iff (ordered_table hfree) rfl horder hheader hmain fun d => get?_table hfree,
    wellFormed_iff hfree]
  rfl

theorem eq_table_of_declareMembers (h₀ : p.declareClasses.outcome = .ok t₀)
    (h : (p.declareMembers t₀).outcome = .ok t) : t = p.table := by
  have hin := declaredIn_declareMembers h₀ h
  have hget : ∀ c ∈ p.declared, t.get? c.name = some c := by
    rw [Program.declared, List.forall_mem_cons, List.forall_mem_map]
    exact ⟨hin.main, fun d hd => (hin.classes d hd).1⟩
  have hentries : t.entries = p.declared := by
    rw [← classes_eq hin.ordered.names fun c => hin.ordered.get?_of_mem,
      classes_eq (p.names_declared.trans hin.order.symm) hget]
  have htypes : t.types = p.table.types := by rw [hin.ordered.types, hin.order]; rfl
  obtain ⟨types, order, entries⟩ := t
  obtain rfl : entries = p.declared := hentries
  obtain rfl : types = p.table.types := htypes
  obtain rfl : order = p.headers.map (·.name.name) := hin.order
  rfl

end Program

/-! ## What is kept of declarations -/

/-- The method has just these variables, and each of them is found by its name. -/
structure MethodInfo.Holds (m : MethodInfo) (params locals : List Variable) : Prop where
  takes : m.params = params
  keeps : m.locals = locals
  finds : ∀ name v, m.findVar? name = some v ↔ v ∈ params ++ locals ∧ v.name = name

/-- Parameters are initialized, and locals are not. -/
structure MethodDecl.HeldAs (owner : String) (d : MethodDecl) (m : MethodInfo) : Prop where
  name : m.name = d.name.name
  owner : m.owner = owner
  returnType : m.returnType = Ty.ofName d.returnType.name
  holds : m.Holds (d.params.map (VarDecl.variable true)) (d.locals.map (VarDecl.variable false))

/-- Fields are initialized if the class extends another one. -/
structure ClassDecl.HeldAs (d : ClassDecl) (c : ClassInfo) : Prop where
  name : c.name = d.name.name
  parent : c.parent = d.superclass.map (·.name)
  fields : c.fields = d.fields.map (VarDecl.variable d.superclass.isSome)
  methods : List.Forall₂ (MethodDecl.HeldAs d.name.name) d.methods c.methods

structure MainClass.HeldAs (d : MainClass) (c : ClassInfo) : Prop where
  name : c.name = d.name.name
  parent : c.parent = none
  fields : c.fields = []
  method : ∃ m, c.methods = [m] ∧ m.name = mainMethod ∧ m.owner = d.name.name ∧ m.returnType = .void ∧
    m.Holds [{ name := d.args.name, type := .stringArray, initialized := true }]
      (d.locals.map (VarDecl.variable false))

theorem MethodInfo.Indexed.holds {m : MethodInfo} (h : m.Indexed) {params locals : List Variable}
    (hparams : m.params = params) (hlocals : m.locals = locals) : m.Holds params locals := by
  subst hparams hlocals
  exact ⟨rfl, rfl, fun _ _ => h.findVar?_iff⟩

theorem ClassDecl.heldAs_declared {d : ClassDecl} (h : d.declared.Distinct) : d.HeldAs d.declared := by
  refine ⟨rfl, rfl, rfl, ?_⟩
  rw [declared, List.forall₂_map_right_iff, List.forall₂_same]
  intro m hm
  have hindexed := h.indexed _ (List.mem_map_of_mem hm)
  exact ⟨m.name_declared _, m.owner_declared _, m.returnType_declared _,
    hindexed.holds (m.params_declared _) (m.locals_declared _)⟩

theorem MainClass.heldAs_declared {d : MainClass} (h : d.declared.Distinct) : d.HeldAs d.declared := by
  have hindexed : d.mainInfo.Indexed := h.indexed _ List.mem_cons_self
  exact ⟨rfl, rfl, rfl, d.mainInfo, rfl, d.name_mainInfo, d.owner_mainInfo, d.returnType_mainInfo,
    hindexed.holds d.params_mainInfo d.locals_mainInfo⟩

/-- If the classes of a program are accepted, then its members are accepted if and only if the program is
well-formed. Then all that changes in the table are the entries: they hold just what is declared, in the order of
declaration. -/
theorem Program.members_accepted_iff_wellFormed {p : Program} {t₀ : ClassTable}
    (h₀ : p.declareClasses.outcome = .ok t₀) :
    ((∃ t, (p.declareMembers t₀).outcome = .ok t) ↔ p.WellFormed) ∧
      ∀ t, (p.declareMembers t₀).outcome = .ok t → ∃ main classes,
        t = { t₀ with entries := main :: classes } ∧ p.main.HeldAs main ∧
          List.Forall₂ ClassDecl.HeldAs p.classes classes := by
  refine ⟨declareMembers_isOk_iff h₀, fun t h => ?_⟩
  have hdistinct := distinct_declareMembers h₀ h
  obtain rfl := eq_table_of_declareMembers h₀ h
  obtain ⟨-, rfl⟩ := declareClasses_ok_iff.1 h₀
  refine ⟨p.main.declared, p.classes.map ClassDecl.declared, rfl, ?_, ?_⟩
  · exact MainClass.heldAs_declared (hdistinct.members _ List.mem_cons_self)
  · rw [List.forall₂_map_right_iff, List.forall₂_same]
    intro d hd
    exact ClassDecl.heldAs_declared
      (hdistinct.members _ (List.mem_cons_of_mem _ (List.mem_map_of_mem hd)))

/-- The method `f` of `A` is overridden in `C`, where it returns the given type. Between the two is `B`, which
does not declare it. A field, a parameter and a return type are of classes that come later. -/
def overriddenBelow (returnType : TypeName) : Program :=
  let here : Span := ⟨0, 0⟩
  let name (text : String) : Ident := ⟨text, here⟩
  let ref (text : String) : TypeRef := ⟨.named text, here⟩
  { main := { name := name "M", args := name "args", locals := [⟨ref "C", name "c"⟩], body := [] }
    classes :=
      [{ name := name "A", superclass := some (name "M"), fields := [⟨ref "C", name "x"⟩],
         methods :=
          [{ returnType := ref "B", name := name "f", params := [⟨ref "C", name "c"⟩], locals := [],
             body := [], returned := .newObject here (name "B") }] },
        { name := name "B", superclass := some (name "A"), fields := [], methods := [] },
        { name := name "C", superclass := some (name "B"), fields := [],
          methods :=
          [{ returnType := ⟨returnType, here⟩, name := name "f", params := [⟨ref "C", name "d"⟩],
             locals := [⟨ref "A", name "x"⟩], body := [], returned := .newObject here (name "B") }] }] }

theorem Program.members_accepted_iff_wellFormed_overriddenBelow :
    (overriddenBelow (.named "B")).WellFormed ∧ ¬ (overriddenBelow (.named "C")).WellFormed ∧
      ∃ t₀ t, (overriddenBelow (.named "B")).declareClasses.outcome = .ok t₀ ∧
        ((overriddenBelow (.named "B")).declareMembers t₀).outcome = .ok t ∧
        ∃ main classes, t = { t₀ with entries := main :: classes } ∧
          List.Forall₂ ClassDecl.HeldAs (overriddenBelow (.named "B")).classes classes := by
  have hrun : ((overriddenBelow (.named "B")).declareClasses.outcome.toOption.any fun t₀ =>
      ((overriddenBelow (.named "B")).declareMembers t₀).outcome.toOption.any fun _ => true) = true := by
    decide +kernel
  have hrun' : ((overriddenBelow (.named "C")).declareClasses.outcome.toOption.any fun t₀ =>
      !((overriddenBelow (.named "C")).declareMembers t₀).outcome.isOk) = true := by
    decide +kernel
  obtain ⟨t₀, h₀, hrest⟩ := Outcome.any_toOption_iff.1 hrun
  obtain ⟨t, h, -⟩ := Outcome.any_toOption_iff.1 hrest
  obtain ⟨t₀', h₀', hrefused⟩ := Outcome.any_toOption_iff.1 hrun'
  obtain ⟨haccepted, hheld⟩ := members_accepted_iff_wellFormed h₀
  obtain ⟨main, classes, ht, -, hclasses⟩ := hheld t h
  refine ⟨haccepted.1 ⟨t, h⟩, ?_, t₀, t, h₀, h, main, classes, ht, hclasses⟩
  intro hwellFormed
  have hok := Outcome.isOk_iff.2 ((members_accepted_iff_wellFormed h₀').1.2 hwellFormed)
  rw [hok] at hrefused
  cases hrefused

end ClassCheck
