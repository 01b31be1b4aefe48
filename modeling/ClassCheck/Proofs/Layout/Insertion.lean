import ClassCheck.Proofs.Passes
import ClassCheck.Report

/-!
# Other classes do not move a class

Where the members of a class are placed depends on the class and on its ancestors. So if a class is put into a
program, all others keep their offsets, their slots and their cursors, and in the report they keep their text.
The new class may extend them and may assign to their fields: the marks on variables are all that can change.
-/

namespace ClassCheck

/-! ## Classes without marks -/

def Variable.unmarked (v : Variable) : Variable := { v with initialized := false }

/-- The offsets of parameters and locals mean nothing. -/
def MethodInfo.unmarked (m : MethodInfo) : MethodInfo :=
  { m with params := m.params.map Variable.plain, locals := m.locals.map Variable.plain }

/-- A class but for the marks on its variables. The offsets and the cursors are kept. -/
def ClassInfo.unmarked (c : ClassInfo) : ClassInfo :=
  { c with fields := c.fields.map Variable.unmarked, methods := c.methods.map MethodInfo.unmarked }

namespace ClassInfo

theorem slotOf?_unmarked (c : ClassInfo) (method : String) :
    c.unmarked.slotOf? method = c.slotOf? method := by
  simp only [slotOf?, unmarked, ← List.map_reverse, List.find?_map, Option.map_map]
  rfl

theorem parentSlot?_unmarked (parent : Option ClassInfo) (method : String) :
    parentSlot? (parent.map unmarked) method = parentSlot? parent method := by
  cases parent with
  | none => rfl
  | some p => exact p.slotOf?_unmarked method

/-! ## Laying out without marks -/

theorem unmarked_placeFields (cursor : Nat) (fs : List Variable) :
    ((placeFields cursor fs).1.map Variable.unmarked, (placeFields cursor fs).2) =
      placeFields cursor (fs.map Variable.plain) := by
  induction fs generalizing cursor with
  | nil => rfl
  | cons f fs ih =>
    rw [List.map_cons, placeFields, placeFields]
    have hsize : f.plain.type.size = f.type.size := rfl
    rw [hsize, ← ih]
    rfl

theorem unmarked_placeMethods (parent : Option ClassInfo) (cursor : Nat) (ms : List MethodInfo) :
    ((placeMethods parent cursor ms).1.map MethodInfo.unmarked, (placeMethods parent cursor ms).2) =
      placeMethods (parent.map unmarked) cursor (ms.map MethodInfo.plain) := by
  induction ms generalizing cursor with
  | nil => rfl
  | cons m ms ih =>
    have hslot : parentSlot? (parent.map unmarked) m.plain.name = parentSlot? parent m.name :=
      parentSlot?_unmarked parent m.name
    rw [List.map_cons, placeMethods, placeMethods, hslot]
    split
    · rw [← ih]
      rfl
    · rw [← ih]
      rfl

theorem unmarked_layOut {c : ClassInfo} (hfields : c.fieldCursor = 0) (hmethods : c.methodCursor = 0)
    (parent : Option ClassInfo) : (c.layOut parent).unmarked = c.plain.layOut (parent.map unmarked) := by
  have hfirst : c.plain.firstField (parent.map unmarked) = c.firstField parent := by
    cases parent <;> simp [firstField, plain, unmarked, hfields]
  have hslot : c.plain.firstSlot (parent.map unmarked) = c.firstSlot parent := by
    cases parent with
    | none => simp [firstSlot, plain, hmethods]
    | some p =>
      simp only [firstSlot, plain, Option.map_some, List.head?_map]
      cases c.methods.head? with
      | none => exact hmethods.symm
      | some m =>
        simp only [Option.map_some, slotOf?_unmarked, hmethods]
        rfl
  simp only [layOut, hfirst, hslot]
  have hplaced := unmarked_placeFields (c.firstField parent) c.fields
  have hslotted := unmarked_placeMethods parent (c.firstSlot parent) c.methods
  simp only [plain, unmarked, ← hplaced, ← hslotted]

end ClassInfo

namespace ClassTable

variable {t t' : ClassTable} {name : String} {c c' : ClassInfo}

theorem LaidOut.unmarked_eq (h : t.LaidOut) (hc : t.get? name = some c) :
    c.unmarked = c.plain.layOut ((t.parentOf? c).map ClassInfo.unmarked) := by
  obtain ⟨c₀, hfields, hmethods, heq⟩ := h.layout name c hc
  have hplain : c.plain = c₀.plain := by rw [heq, ClassInfo.plain_layOut]
  rw [hplain, ← ClassInfo.unmarked_layOut hfields hmethods, ← heq]

/-! ## Two tables -/

/-- All classes of the first table are in the second one, with the same parents and members. -/
def PartOf (t t' : ClassTable) : Prop :=
  ∀ name c, t.get? name = some c → ∃ c', t'.get? name = some c' ∧ c'.plain = c.plain

theorem PartOf.parent?_eq (h : t.PartOf t') (hc : t.get? name = some c) :
    t'.parent? name = t.parent? name := by
  obtain ⟨c', hc', hplain⟩ := h name c hc
  have hparent : c'.parent = c.parent := (congrArg ClassInfo.parent hplain :)
  rw [parent?, parent?, hc, hc', Option.bind_some, Option.bind_some, hparent]

/-- A class is laid out in the same way in both tables, since its parent is. -/
theorem PartOf.unmarked_eq (h : t.PartOf t') (ht : t.LaidOut) (ht' : t'.LaidOut)
    (hc : t.get? name = some c) (hc' : t'.get? name = some c') : c'.unmarked = c.unmarked := by
  induction name using ht.ordered.induction generalizing c c' with
  | step name ih =>
    have hplain : c'.plain = c.plain := by
      obtain ⟨d, hd, hplain⟩ := h name c hc
      rw [← hplain, Option.some.inj (hc'.symm.trans hd)]
    have hparent : c'.parent = c.parent := (congrArg ClassInfo.parent hplain :)
    rw [ht'.unmarked_eq hc', ht.unmarked_eq hc, hplain, parentOf?, parentOf?, hparent]
    cases hp : c.parent with
    | none => rfl
    | some parent =>
      have hlink : t.parent? name = some parent := by rw [parent?, hc, Option.bind_some, hp]
      obtain ⟨q, hq⟩ := ht.ordered.exists_parent hlink
      obtain ⟨q', hq', -⟩ := h parent q hq
      rw [Option.bind_some, Option.bind_some, hq, hq', Option.map_some, Option.map_some, ih parent hlink hq hq']

theorem PartOf.ancestors_eq (h : t.PartOf t') (ht : t.LaidOut) (ht' : t'.LaidOut)
    (hc : t.get? name = some c) :
    (t'.ancestors name).map ClassInfo.unmarked = (t.ancestors name).map ClassInfo.unmarked := by
  induction name using ht.ordered.induction generalizing c with
  | step name ih =>
    have hlink := h.parent?_eq hc
    cases hp : t.parent? name with
    | none => rw [ancestors_of_none hp, ancestors_of_none (hlink.trans hp)]
    | some parent =>
      obtain ⟨q, hq⟩ := ht.ordered.exists_parent hp
      obtain ⟨q', hq', -⟩ := h parent q hq
      rw [ht.ordered.ancestors_of_parent hp hq, ht'.ordered.ancestors_of_parent (hlink.trans hp) hq',
        List.map_cons, List.map_cons, ih parent hp hq, h.unmarked_eq ht ht' hq hq']

end ClassTable

/-! ## Reports -/

/-- What the report says of a class that has these ancestors. -/
def ClassInfo.reportBelow (above : List ClassInfo) (c : ClassInfo) : ClassReport :=
  { name := c.name
    fields := c.fields.map fun f => ⟨c.name, f.name, f.offset⟩
    methods := (c.methods.filter fun m => (above.findSome? (·.method? m.name)).isNone).map
      fun m => ⟨m.owner, m.name, m.offset⟩ }

theorem ClassInfo.method?_unmarked (c : ClassInfo) (name : String) :
    c.unmarked.method? name = (c.method? name).map MethodInfo.unmarked := by
  rw [method?, unmarked, List.find?_map]
  rfl

theorem ClassInfo.reportBelow_unmarked (above : List ClassInfo) (c : ClassInfo) :
    c.unmarked.reportBelow (above.map unmarked) = c.reportBelow above := by
  have hinherited : ∀ name, ((above.map unmarked).findSome? (·.method? name)).isNone =
      (above.findSome? (·.method? name)).isNone := by
    intro name
    have hfound : (above.map unmarked).findSome? (·.method? name) =
        (above.findSome? (·.method? name)).map MethodInfo.unmarked := by
      rw [List.findSome?_map, List.map_findSome?]
      congr 1
      funext d
      exact d.method?_unmarked name
    rw [hfound, Option.isNone_map]
  simp only [reportBelow, hinherited]
  simp only [unmarked, List.map_map, List.filter_map]
  rfl

/-- The text of the report on one class. -/
def ClassReport.text (r : ClassReport) : String := String.join (r.lines.map (· ++ "\n"))

namespace ClassTable

variable {t t' : ClassTable} {name : String}

/-- What the report says of the class of this name. -/
def blockOf? (t : ClassTable) (name : String) : Option ClassReport := (t.get? name).map t.classReport

theorem PartOf.blockOf?_eq (h : t.PartOf t') (ht : t.LaidOut) (ht' : t'.LaidOut) (hname : name ∈ t.order) :
    t'.blockOf? name = t.blockOf? name := by
  obtain ⟨c, hc⟩ := Option.isSome_iff_exists.1 (ht.ordered.isSome_get?_iff.2 hname)
  obtain ⟨c', hc', -⟩ := h name c hc
  have hreport : ∀ (t : ClassTable) (c : ClassInfo), t.get? name = some c →
      t.classReport c = c.unmarked.reportBelow ((t.ancestors name).map ClassInfo.unmarked) := by
    intro t c hc
    rw [ClassInfo.reportBelow_unmarked, ← name_of_get? hc]
    rfl
  rw [blockOf?, blockOf?, hc, hc', Option.map_some, Option.map_some, hreport t c hc, hreport t' c' hc',
    h.unmarked_eq ht ht' hc hc', h.ancestors_eq ht ht' hc]

theorem PartOf.blocks_eq (h : t.PartOf t') (ht : t.LaidOut) (ht' : t'.LaidOut) {names : List String}
    (hnames : names ⊆ t.order) : names.filterMap t'.blockOf? = names.filterMap t.blockOf? := by
  induction names with
  | nil => rfl
  | cons name names ih =>
    rw [List.cons_subset] at hnames
    rw [List.filterMap_cons, List.filterMap_cons, h.blockOf?_eq ht ht' hnames.1, ih hnames.2]

theorem map_name_blocks {names : List String} (h : ∀ name ∈ names, (t.get? name).isSome = true) :
    (names.filterMap t.blockOf?).map (·.name) = names := by
  induction names with
  | nil => rfl
  | cons name names ih =>
    rw [List.forall_mem_cons] at h
    obtain ⟨c, hc⟩ := Option.isSome_iff_exists.1 h.1
    have hblock : t.blockOf? name = some (t.classReport c) := by rw [blockOf?, hc, Option.map_some]
    rw [List.filterMap_cons_some hblock, List.map_cons, ih h.2]
    exact congrArg (· :: names) (name_of_get? hc)

theorem report_eq (h : (t.get? name).isSome = true) {names : List String} (horder : t.order = name :: names) :
    t.report = names.filterMap t.blockOf? := by
  obtain ⟨c, hc⟩ := Option.isSome_iff_exists.1 h
  rw [report, classes, horder, List.filterMap_cons_some hc, List.drop_succ_cons, List.drop_zero,
    List.map_filterMap]
  rfl

theorem PartOf.report_insert (h : t.PartOf t') (ht : t.LaidOut) (ht' : t'.LaidOut) {main new : String}
    {before after : List String} (horder : t.order = main :: (before ++ after))
    (horder' : t'.order = main :: (before ++ new :: after)) :
    ∃ block, t'.blockOf? new = some block ∧
      t.report = before.filterMap t.blockOf? ++ after.filterMap t.blockOf? ∧
      t'.report = before.filterMap t.blockOf? ++ block :: after.filterMap t.blockOf? := by
  have hmain : (t.get? main).isSome = true := ht.ordered.isSome_get?_iff.2 (by simp [horder])
  have hmain' : (t'.get? main).isSome = true := ht'.ordered.isSome_get?_iff.2 (by simp [horder'])
  have hnew : (t'.get? new).isSome = true := ht'.ordered.isSome_get?_iff.2 (by simp [horder'])
  obtain ⟨c, hc⟩ := Option.isSome_iff_exists.1 hnew
  have hblock : t'.blockOf? new = some (t'.classReport c) := by rw [blockOf?, hc, Option.map_some]
  have hbefore : before ⊆ t.order := by simp [horder]
  have hafter : after ⊆ t.order := by simp [horder]
  refine ⟨t'.classReport c, hblock, ?_, ?_⟩
  · rw [report_eq hmain horder, List.filterMap_append]
  · rw [report_eq hmain' horder', List.filterMap_append, List.filterMap_cons_some hblock,
      h.blocks_eq ht ht' hbefore, h.blocks_eq ht ht' hafter]

theorem reportText_eq (t : ClassTable) : t.reportText = String.join (t.report.map ClassReport.text) := by
  unfold reportText
  induction t.report with
  | nil => rfl
  | cons r rs ih =>
    rw [List.flatMap_cons, List.map_append, String.join_append, ih, List.map_cons, String.join_cons]
    rfl

end ClassTable

/-! ## Programs -/

namespace Program

variable {p : Program} {t : ClassTable}

theorem plain_analyze (h : p.analyze.outcome = .ok t) : ∃ t₁, p.DeclaredIn t₁ ∧ t.plain = t₁.plain := by
  rw [outcome_analyze] at h
  obtain ⟨t₀, h₀, hrest⟩ := Outcome.bind_eq_ok.1 h
  obtain ⟨t₁, h₁, hlast⟩ := Outcome.bind_eq_ok.1 hrest
  obtain ⟨t₂, h₂, hresult⟩ := Outcome.bind_eq_ok.1 hlast
  obtain rfl := Outcome.pure_eq_ok.1 hresult
  exact ⟨t₁, declaredIn_declareMembers h₀ h₁, t₂.plain_layOut.trans (plain_check h₀ h₁ h₂)⟩

theorem order_analyze (h : p.analyze.outcome = .ok t) :
    t.order = p.main.name.name :: p.classes.map (·.name.name) := by
  obtain ⟨t₁, h₁, hplain⟩ := plain_analyze h
  have horder : t.order = t₁.order := (congrArg ClassTable.order hplain :)
  rw [horder, h₁.order, headers, List.map_cons, List.map_map]
  rfl

theorem get?_declared (h : p.analyze.outcome = .ok t) {d : ClassInfo} (hd : d ∈ p.declared) :
    ∃ c, t.get? d.name = some c ∧ c.plain = d.plain := by
  obtain ⟨t₁, h₁, hplain⟩ := plain_analyze h
  have hget : t₁.get? d.name = some d := by
    rcases List.mem_cons.1 hd with rfl | hd
    · exact h₁.main
    · obtain ⟨e, he, rfl⟩ := List.mem_map.1 hd
      exact (h₁.classes e he).1
  have hmap : (t.get? d.name).map ClassInfo.plain = some d.plain := by
    rw [← ClassTable.get?_plain, hplain, ClassTable.get?_plain, hget, Option.map_some]
  exact Option.map_eq_some_iff.1 hmap

theorem partOf_analyze {p' : Program} {t' : ClassTable} (h : p.analyze.outcome = .ok t)
    (h' : p'.analyze.outcome = .ok t') (hsub : p.declared ⊆ p'.declared) : t.PartOf t' := by
  intro name c hc
  obtain ⟨d, hd, hplain⟩ := (laidOut_analyze h).2 name c hc
  obtain ⟨c', hc', hplain'⟩ := get?_declared h' (hsub hd)
  have hname : d.name = name := by
    rw [← ClassTable.name_of_get? hc]
    exact (congrArg ClassInfo.name hplain.symm :)
  rw [hname] at hc'
  exact ⟨c', hc', hplain'.trans hplain.symm⟩

/-- With one more class `d` after the main class, wherever it stands, all classes of the program keep their
field offsets, their slots, their cursors and everything else but marks. The report has one block more, at the
position of `d`, and the text around it is the same. -/
theorem layout_of_insert {main : MainClass} {before after : List ClassDecl} {d : ClassDecl}
    {t t' : ClassTable} (h : ({ main, classes := before ++ after } : Program).analyze.outcome = .ok t)
    (h' : ({ main, classes := before ++ d :: after } : Program).analyze.outcome = .ok t') :
    (∀ name ∈ main.name.name :: (before ++ after).map (·.name.name),
      ∃ c c', t.get? name = some c ∧ t'.get? name = some c' ∧ c'.unmarked = c.unmarked) ∧
    ∃ front block back, t'.blockOf? d.name.name = some block ∧
      front.map (·.name) = before.map (·.name.name) ∧ t.report = front ++ back ∧
      t'.report = front ++ block :: back ∧
      t.reportText = String.join (front.map ClassReport.text) ++ String.join (back.map ClassReport.text) ∧
      t'.reportText = String.join (front.map ClassReport.text) ++ block.text ++
        String.join (back.map ClassReport.text) := by
  obtain ⟨hlaid, -⟩ := laidOut_analyze h
  obtain ⟨hlaid', -⟩ := laidOut_analyze h'
  have hpart : t.PartOf t' := by
    apply partOf_analyze h h'
    have hsublist := (List.sublist_cons_self d after).append_left before
    exact List.cons_subset_cons _ (hsublist.map ClassDecl.declared).subset
  have horder : t.order = main.name.name ::
      (before.map (·.name.name) ++ after.map (·.name.name)) := by
    rw [order_analyze h, List.map_append]
  have horder' : t'.order = main.name.name ::
      (before.map (·.name.name) ++ d.name.name :: after.map (·.name.name)) := by
    rw [order_analyze h', List.map_append, List.map_cons]
  have hsome : ∀ name ∈ t.order, (t.get? name).isSome = true := fun _ => hlaid.ordered.isSome_get?_iff.2
  obtain ⟨block, hblock, hreport, hreport'⟩ := hpart.report_insert hlaid hlaid' horder horder'
  refine ⟨?_, _, block, _, hblock, ?_, hreport, hreport', ?_, ?_⟩
  · intro name hname
    rw [← order_analyze h] at hname
    obtain ⟨c, hc⟩ := Option.isSome_iff_exists.1 (hsome name hname)
    obtain ⟨c', hc', -⟩ := hpart name c hc
    exact ⟨c, c', hc, hc', hpart.unmarked_eq hlaid hlaid' hc hc'⟩
  · apply ClassTable.map_name_blocks
    intro name hname
    exact hsome name (by rw [horder]; simp [List.mem_append.2 (.inl hname)])
  · rw [t.reportText_eq, hreport, List.map_append, String.join_append]
  · rw [t'.reportText_eq, hreport', List.map_append, String.join_append, List.map_cons, String.join_cons,
      String.append_assoc]

/-- A class `A` with a field, `C` that extends it and overrides one of its methods, and the given classes
between them. -/
def family (between : List ClassDecl) : Program :=
  let here : Span := ⟨0, 0⟩
  let name (text : String) : Ident := ⟨text, here⟩
  let method (text : String) : MethodDecl :=
    { returnType := ⟨.int, here⟩, name := name text, params := [], locals := [], body := [],
      returned := .int here 0 }
  { main := { name := name "M", args := name "args", locals := [], body := [] }
    classes :=
      [{ name := name "A", superclass := none, fields := [⟨⟨.int, here⟩, name "x"⟩],
         methods := [method "f", method "g"] }] ++
      (between ++
        [{ name := name "C", superclass := some (name "A"), fields := [⟨⟨.boolean, here⟩, name "y"⟩],
           methods := [method "g", method "h"] }]) }

/-- Another class that extends `A`. It assigns to the field of `A`. -/
def sibling : ClassDecl :=
  let here : Span := ⟨0, 0⟩
  let name (text : String) : Ident := ⟨text, here⟩
  { name := name "B", superclass := some (name "A"), fields := [⟨⟨.intArray, here⟩, name "z"⟩]
    methods :=
      [{ returnType := ⟨.int, here⟩, name := name "k", params := [], locals := [],
         body := [.assign (name "x") (.int here 1)], returned := .int here 0 }] }

/-- The new class leaves a mark on the field of `A`, but moves nothing. -/
theorem layout_of_insert_sibling :
    ∃ t t', (family []).analyze.outcome = .ok t ∧ (family [sibling]).analyze.outcome = .ok t' ∧
      t.get? "A" ≠ t'.get? "A" ∧
      (∀ name ∈ ["M", "A", "C"],
        (t'.get? name).map ClassInfo.unmarked = (t.get? name).map ClassInfo.unmarked) ∧
      ∃ front block back, front.map (·.name) = ["A"] ∧ t.report = front ++ back ∧
        t'.report = front ++ block :: back := by
  have hrun : ((family []).analyze.outcome.toOption.any fun t =>
      (family [sibling]).analyze.outcome.toOption.any fun t' => decide (t.get? "A" ≠ t'.get? "A")) = true := by
    decide +kernel
  obtain ⟨t, h, hrest⟩ := Outcome.any_toOption_iff.1 hrun
  obtain ⟨t', h', hmarks⟩ := Outcome.any_toOption_iff.1 hrest
  obtain ⟨hclasses, front, block, back, -, hfront, hreport, hreport', -⟩ := layout_of_insert h h'
  refine ⟨t, t', h, h', of_decide_eq_true hmarks, ?_, front, block, back, hfront, hreport, hreport'⟩
  intro name hname
  obtain ⟨c, c', hc, hc', hsame⟩ := hclasses name hname
  rw [hc, hc', Option.map_some, Option.map_some, hsame]

end Program

end ClassCheck
