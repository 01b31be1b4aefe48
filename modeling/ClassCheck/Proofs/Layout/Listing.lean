import Mathlib.Data.List.Forall2
import ClassCheck.Proofs.ClassTable.Lookup
import ClassCheck.Proofs.Declare.Overriding
import ClassCheck.Proofs.Layout.Blocks
import ClassCheck.Proofs.Layout.Insertion
import ClassCheck.Proofs.Layout.Slots

/-!
# Which methods the report lists

A method has a fresh slot if the parent of its class does not declare it, and it is listed in the report if no
ancestor does. So what is listed is fresh, and along a class and its ancestors every method is listed once: with
the farthest class that declares it. The main class has no block of its own. It cannot be that farthest class
either, since nobody can write down the type of `main` to override it. All this is said of the lines that are
printed, read back block by block.
-/

namespace ClassCheck

open PrintedReport

/-! ## Lists -/

theorem filter_of_nodup {α : Type} {key : α → String} {xs : List α} (h : (xs.map key).Nodup) {x : α}
    (hx : x ∈ xs) : xs.filter (key · == key x) = [x] := by
  obtain ⟨before, after, rfl, hbefore, hafter⟩ := split_of_nodup h hx
  have hnil : ∀ ys : List α, (∀ y ∈ ys, key y ≠ key x) → ys.filter (key · == key x) = [] := by
    intro ys hys
    rw [List.filter_eq_nil_iff]
    simpa using hys
  simp [hnil before hbefore, hnil after hafter]

theorem exists_last {α : Type} {P : α → Prop} {xs : List α} (h : ∃ x ∈ xs, P x) :
    ∃ before x after, xs = before ++ x :: after ∧ P x ∧ ∀ y ∈ after, ¬ P y := by
  induction xs with
  | nil => simp at h
  | cons x xs ih =>
    by_cases hrest : ∃ y ∈ xs, P y
    · obtain ⟨before, y, after, rfl, hy, hafter⟩ := ih hrest
      exact ⟨x :: before, y, after, rfl, hy, hafter⟩
    · have hx : P x := by simpa [hrest] using h
      exact ⟨[], x, xs, rfl, hx, fun y hy hP => hrest ⟨y, hy, hP⟩⟩

/-! ## Blocks -/

/-- The class itself declares a method of this name. -/
def ClassInfo.Declares (c : ClassInfo) (method : String) : Prop := ∃ m ∈ c.methods, m.name = method

namespace ClassTable

variable {t : ClassTable} {c d : ClassInfo} {name method : String}

theorem inheritedMethod?_eq_none_iff :
    t.inheritedMethod? name method = none ↔ ∀ a ∈ t.ancestors name, ¬ a.Declares method := by
  rw [inheritedMethod?, List.findSome?_eq_none_iff]
  simp [ClassInfo.method?, ClassInfo.Declares]

theorem mem_methods_classReport {line : OffsetLine} :
    line ∈ (t.classReport c).methods ↔
      ∃ m ∈ c.methods, (∀ a ∈ t.ancestors c.name, ¬ a.Declares m.name) ∧
        line = ⟨m.owner, m.name, m.offset⟩ := by
  simp only [classReport, List.mem_map, List.mem_filter, Option.isNone_iff_eq_none,
    inheritedMethod?_eq_none_iff, and_assoc, @eq_comm _ line]

theorem filter_classReport_eq_nil (h : c.Declares method → ∃ a ∈ t.ancestors c.name, a.Declares method) :
    (t.classReport c).methods.filter (·.name == method) = [] := by
  rw [List.filter_eq_nil_iff]
  intro line hline hname
  obtain ⟨m, hm, hnone, rfl⟩ := mem_methods_classReport.1 hline
  obtain rfl : m.name = method := by simpa using hname
  obtain ⟨a, ha, hdeclares⟩ := h ⟨m, hm, rfl⟩
  exact hnone a ha hdeclares

theorem filter_classReport_of_top (hc : c.Distinct) {m : MethodInfo} (hm : m ∈ c.methods)
    (htop : ∀ a ∈ t.ancestors c.name, ¬ a.Declares m.name) :
    (t.classReport c).methods.filter (·.name == m.name) = [⟨m.owner, m.name, m.offset⟩] := by
  have hnodup : ((t.classReport c).methods.map (·.name)).Nodup := by
    rw [classReport, List.map_map]
    exact hc.methods.sublist (List.filter_sublist.map _)
  exact filter_of_nodup hnodup (mem_methods_classReport.2 ⟨m, hm, htop, rfl⟩)

/-- What is listed is fresh: if no ancestor declares a method, then neither does the parent. -/
theorem mem_fresh_of_top (hchain : t.IsChain (c :: t.ancestors c.name)) {m : MethodInfo} (hm : m ∈ c.methods)
    (htop : ∀ a ∈ t.ancestors c.name, ¬ a.Declares m.name) : m ∈ t.fresh c := by
  refine List.mem_filter.2 ⟨hm, ?_⟩
  rw [hchain.2.1]
  cases hancestors : t.ancestors c.name with
  | nil => rfl
  | cons parent above =>
    have hparent := htop parent (by simp [hancestors])
    simpa [ClassInfo.isFresh, ClassInfo.Declares] using hparent

/-- What the block of a class says: the offsets of all fields in order, and of methods that are fresh. -/
structure Describes (t : ClassTable) (c : ClassInfo) (block : List String) : Prop where
  head : block.head? = some (heading c.name)
  fields : fieldLines block = c.fields.map fun f => c.name ++ "." ++ f.name ++ " : " ++ toString f.offset
  methods : ∀ line ∈ methodLines block, ∃ k m, (t.fresh c)[k]? = some m ∧
    line = c.name ++ "." ++ m.name ++ " : " ++ toString (t.slotStart c + slotSize * k)

theorem LaidOut.describes (h : t.LaidOut) (hc : t.get? c.name = some c)
    (howner : ∀ m ∈ c.methods, m.owner = c.name) : t.Describes c (t.classReport c).body := by
  refine ⟨rfl, ?_, fun line hline => ?_⟩
  · rw [ClassReport.fieldLines_body]
    exact List.map_map
  · rw [ClassReport.methodLines_body] at hline
    obtain ⟨entry, hentry, rfl⟩ := List.mem_map.1 hline
    obtain ⟨m, hm, htop, rfl⟩ := mem_methods_classReport.1 hentry
    obtain ⟨k, hk⟩ := List.mem_iff_getElem?.1 (mem_fresh_of_top (h.ordered.isChain hc) hm htop)
    refine ⟨k, m, hk, ?_⟩
    rw [howner m hm, (h.slotted hc).1.offset_getElem? hk]
    rfl

/-! ## Chains of classes -/

namespace IsChain

variable {chain below above : List ClassInfo}

theorem get?_of_mem (h : t.IsChain chain) (hc : c ∈ chain) : t.get? c.name = some c := by
  induction chain with
  | nil => cases hc
  | cons a chain ih =>
    rcases List.mem_cons.1 hc with rfl | hc
    · exact h.1
    · exact ih h.2.2.2 hc

theorem ancestors_eq (h : t.IsChain (below ++ d :: above)) : t.ancestors d.name = above := by
  induction below with
  | nil => exact h.2.2.1
  | cons a below ih => exact ih h.2.2.2

theorem mem_ancestors (h : t.IsChain (below ++ d :: above)) (hc : c ∈ below) : d ∈ t.ancestors c.name := by
  induction below with
  | nil => cases hc
  | cons a below ih =>
    rcases List.mem_cons.1 hc with rfl | hc
    · rw [h.2.2.1]
      simp
    · exact ih h.2.2.2 hc

end IsChain

/-- All lines of the report. -/
def printedLines (t : ClassTable) : List String := t.report.flatMap ClassReport.lines

/-- A class has one block, unless it has none. -/
def HasBlocks (t : ClassTable) (chain : List ClassInfo) : Prop :=
  ∀ c ∈ chain, blocksOf t.printedLines c.name = [] ∨ blocksOf t.printedLines c.name = [(t.classReport c).body]

theorem methodLines_classReport (howner : ∀ m ∈ c.methods, m.owner = c.name) (method : String) :
    (methodLines (t.classReport c).body).filter (isLineOn c.name method) =
      ((t.classReport c).methods.filter (·.name == method)).map OffsetLine.text := by
  apply ClassReport.filter_methodLines_body (r := t.classReport c)
  intro line hline
  obtain ⟨m, hm, -, rfl⟩ := mem_methods_classReport.1 hline
  exact howner m hm

theorem HasBlocks.linesOn_eq_nil {chain : List ClassInfo} (h : t.HasBlocks chain)
    (howner : ∀ c ∈ chain, ∀ m ∈ c.methods, m.owner = c.name)
    (hnone : ∀ c ∈ chain, c.Declares method → ∃ a ∈ t.ancestors c.name, a.Declares method) :
    linesOn t.printedLines (chain.map (·.name)) method = [] := by
  rw [linesOn, List.flatMap_map, List.flatMap_eq_nil_iff]
  intro c hc
  rcases h c hc with hblocks | hblocks
  · rw [hblocks, List.flatMap_nil]
  · rw [hblocks, List.flatMap_singleton, methodLines_classReport (howner c hc),
      filter_classReport_eq_nil (hnone c hc), List.map_nil, List.map_nil]

/-- Below the farthest class that declares a method it is inherited, and above that class nobody has it. -/
theorem LaidOut.linesOn_eq (h : t.LaidOut) {below above : List ClassInfo}
    (hchain : t.IsChain (below ++ d :: above)) {m : MethodInfo} (hm : m ∈ d.methods)
    (htop : ∀ a ∈ above, ¬ a.Declares m.name)
    (howner : ∀ c ∈ below ++ d :: above, ∀ m ∈ c.methods, m.owner = c.name)
    (hblocks : t.HasBlocks (below ++ d :: above))
    (hd : blocksOf t.printedLines d.name = [(t.classReport d).body]) :
    linesOn t.printedLines ((below ++ d :: above).map (·.name)) m.name =
      [(d.name, OffsetLine.text ⟨d.name, m.name, m.offset⟩)] := by
  have hmem : d ∈ below ++ d :: above := by simp
  have hown := filter_classReport_of_top
    (h.distinct.members d (List.mem_of_find?_eq_some (hchain.get?_of_mem hmem))) hm (hchain.ancestors_eq ▸ htop)
  have hbelow : linesOn t.printedLines (below.map (·.name)) m.name = [] :=
    HasBlocks.linesOn_eq_nil (fun c hc => hblocks c (by simp [hc])) (fun c hc => howner c (by simp [hc]))
      fun c hc _ => ⟨d, hchain.mem_ancestors hc, m, hm, rfl⟩
  have habove : linesOn t.printedLines (above.map (·.name)) m.name = [] :=
    HasBlocks.linesOn_eq_nil (fun c hc => hblocks c (by simp [hc])) (fun c hc => howner c (by simp [hc]))
      fun c hc hdeclares => absurd hdeclares (htop c hc)
  have hsplit : linesOn t.printedLines ((below ++ d :: above).map (·.name)) m.name =
      linesOn t.printedLines (below.map (·.name)) m.name ++
        linesOn t.printedLines [d.name] m.name ++ linesOn t.printedLines (above.map (·.name)) m.name := by
    simp [linesOn]
  rw [hsplit, hbelow, habove, linesOn, List.flatMap_singleton, hd, List.flatMap_singleton,
    methodLines_classReport (howner d hmem), hown, howner d hmem m hm]
  rfl

end ClassTable

/-! ## Programs -/

namespace Program

variable {p : Program} {t : ClassTable} {c : ClassInfo}

theorem tabled_analyze (h : p.analyze.outcome = .ok t) : p.Tabled t := by
  obtain ⟨t₁, h₁, hplain⟩ := plain_analyze h
  exact h₁.tabled.congr hplain

theorem DeclaredIn.method?_below_main (h : p.DeclaredIn t) {name : String}
    (hdescends : t.Descends name p.main.name.name) :
    ∃ own, t.method? name ClassTable.mainMethod = some own ∧ own.returnType = .void := by
  have hmain : t.method? p.main.name.name ClassTable.mainMethod = some p.main.mainInfo := by
    rw [ClassTable.method?_of_get? h.main, p.main.method?_declared, Option.some_or]
  obtain ⟨own, hown, hreturn, -⟩ := h.method?_of_descends hdescends hmain
  exact ⟨own, hown, hreturn.symm.trans p.main.returnType_mainInfo⟩

/-- A class below the main class cannot declare `main`: it would have to return nothing too. -/
theorem name_ne_mainMethod (h : p.analyze.outcome = .ok t) (hc : t.get? c.name = some c)
    (hne : c.name ≠ p.main.name.name) (hdescends : t.Descends c.name p.main.name.name) {m : MethodInfo}
    (hm : m ∈ c.methods) : m.name ≠ ClassTable.mainMethod := by
  intro hname
  obtain ⟨t₁, h₁, hplain⟩ := plain_analyze h
  have htabled := tabled_analyze h
  have hdistinct := (laidOut_analyze h).1.distinct
  have hparent : t.parent? = t₁.parent? := by
    funext n
    rw [← t.parent?_plain, hplain, t₁.parent?_plain]
  rw [ClassTable.Descends, hparent] at hdescends
  obtain ⟨own, hown, hvoid⟩ := h₁.method?_below_main hdescends
  -- That is the method of `c`, whose return type is known.
  have hfound : t.method? c.name ClassTable.mainMethod = some m := by
    rw [ClassTable.method?_of_get? hc, ClassInfo.method?, ← hname,
      find?_of_nodup (hdistinct.of_get? hc).methods hm, Option.some_or]
  have hsame : m.plain = own.plain := by
    have hplains := congrArg (·.method? c.name ClassTable.mainMethod) hplain
    simp only [ClassTable.method?_plain, hfound, hown, Option.map_some] at hplains
    exact Option.some.inj hplains
  have hreturn : m.returnType = own.returnType := (congrArg MethodInfo.returnType hsame :)
  have hknown := (((htabled.members _ c hc).methods m hm).signature hne).1
  rw [hreturn, hvoid, ClassTable.isKnownType, htabled.types] at hknown
  simp at hknown

theorem report_analyze (h : p.analyze.outcome = .ok t) :
    t.report = (p.classes.map (·.name.name)).filterMap t.blockOf? := by
  have horder := order_analyze h
  apply ClassTable.report_eq _ horder
  rw [(laidOut_analyze h).1.ordered.isSome_get?_iff, horder]
  exact List.mem_cons_self

theorem map_name_report (h : p.analyze.outcome = .ok t) :
    t.report.map (·.name) = p.classes.map (·.name.name) := by
  rw [report_analyze h]
  apply ClassTable.map_name_blocks
  intro name hname
  rw [(laidOut_analyze h).1.ordered.isSome_get?_iff, order_analyze h]
  exact List.mem_cons_of_mem _ hname

theorem mem_report_iff (h : p.analyze.outcome = .ok t) {block : ClassReport} :
    block ∈ t.report ↔
      ∃ c, t.get? c.name = some c ∧ c.name ≠ p.main.name.name ∧ block = t.classReport c := by
  have hordered := (laidOut_analyze h).1.ordered
  have horder := order_analyze h
  have hnodup := hordered.nodup
  rw [horder, List.nodup_cons] at hnodup
  rw [report_analyze h, List.mem_filterMap]
  constructor
  · rintro ⟨name, hname, hblock⟩
    obtain ⟨c, hc, rfl⟩ := Option.map_eq_some_iff.1 hblock
    obtain rfl := ClassTable.name_of_get? hc
    exact ⟨c, hc, fun hmain => hnodup.1 (hmain ▸ hname), rfl⟩
  · rintro ⟨c, hc, hne, rfl⟩
    have hmem : c.name ∈ t.order := hordered.isSome_get?_iff.1 (by rw [hc]; rfl)
    rw [horder, List.mem_cons] at hmem
    exact ⟨c.name, hmem.resolve_left hne, by rw [ClassTable.blockOf?, hc, Option.map_some]⟩

theorem owner_analyze (h : p.analyze.outcome = .ok t) (hc : t.get? c.name = some c) :
    ∀ m ∈ c.methods, m.owner = c.name :=
  fun m hm => (((tabled_analyze h).members _ c hc).methods m hm).owner

theorem blocksOf_printedLines (h : p.analyze.outcome = .ok t) (hc : t.get? c.name = some c) :
    blocksOf t.printedLines c.name =
      if c.name = p.main.name.name then [] else [(t.classReport c).body] := by
  rw [ClassTable.printedLines, ClassReport.blocksOf_lines]
  split
  · next hmain =>
    rw [List.map_eq_nil_iff, List.filter_eq_nil_iff]
    intro block hblock hname
    obtain ⟨e, -, hne, rfl⟩ := (mem_report_iff h).1 hblock
    exact hne ((beq_iff_eq.1 hname).trans hmain)
  · next hne =>
    have hnodup := (tabled_analyze h).nodup
    rw [(tabled_analyze h).order, List.nodup_cons] at hnodup
    rw [← map_name_report h] at hnodup
    have hmem : t.classReport c ∈ t.report := (mem_report_iff h).2 ⟨c, hc, hne, rfl⟩
    exact congrArg (List.map ClassReport.body) (filter_of_nodup hnodup.2 hmem)

theorem forall₂_blocks {R : ClassDecl → List String → Prop} {ds : List ClassDecl}
    (h : ∀ d ∈ ds, ∃ c, t.get? d.name.name = some c ∧ R d (t.classReport c).body) :
    List.Forall₂ R ds (((ds.map (·.name.name)).filterMap t.blockOf?).map ClassReport.body) := by
  induction ds with
  | nil => exact .nil
  | cons d ds ih =>
    rw [List.forall_mem_cons] at h
    obtain ⟨c, hc, hR⟩ := h.1
    have hblock : t.blockOf? d.name.name = some (t.classReport c) := by
      rw [ClassTable.blockOf?, hc, Option.map_some]
    rw [List.map_cons, List.filterMap_cons_some hblock]
    exact .cons hR (ih h.2)

/-- The report is printed in blocks of lines, one for every class but the main one, in the order of the program. A
block shows the offsets of all fields of the class in their order, and of fresh methods only. If a class or one of its
ancestors, the main class apart, declares a method, then in the methods sections of all these there is one line on it:
it stands in the block of the farthest class that declares the method, begins with the name of that class and shows the
slot that the method has there. -/
theorem method_listed_once (h : p.analyze.outcome = .ok t) :
    t.reportText = String.join (t.printedLines.map (· ++ "\n")) ∧
    List.Forall₂ (fun d block => ∃ c, t.get? d.name.name = some c ∧
      c.fields.map (·.name) = d.fields.map (·.name.name) ∧ t.Describes c block) p.classes (blocks t.printedLines) ∧
    ∀ c method, t.get? c.name = some c →
      (∃ a ∈ c :: t.ancestors c.name, a.name ≠ p.main.name.name ∧ a.Declares method) →
      ∃ below d above m, c :: t.ancestors c.name = below ++ d :: above ∧ m ∈ d.methods ∧ m.name = method ∧
        (∀ a ∈ above, ¬ a.Declares method) ∧
        linesOn t.printedLines ((c :: t.ancestors c.name).map (·.name)) method =
          [(d.name, d.name ++ "." ++ method ++ " : " ++ toString m.offset)] := by
  obtain ⟨hlaid, -⟩ := laidOut_analyze h
  have htabled := tabled_analyze h
  refine ⟨rfl, ?_, ?_⟩
  · rw [ClassTable.printedLines, ClassReport.blocks_lines, report_analyze h]
    apply forall₂_blocks
    intro d hd
    obtain ⟨c, hc, hplain⟩ := get?_declared h (List.mem_cons_of_mem _ (List.mem_map_of_mem hd))
    have hfields : c.fields.map Variable.plain = d.declared.fields.map Variable.plain :=
      congrArg ClassInfo.fields hplain
    have hown : t.get? c.name = some c := ClassTable.name_of_get? hc ▸ hc
    refine ⟨c, hc, c, hc, ?_, hlaid.describes hown (owner_analyze h hown)⟩
    simpa [Function.comp_def, Variable.plain, ClassDecl.declared, VarDecl.variable] using
      congrArg (List.map Variable.name) hfields
  · rintro c method hc ⟨a, ha, hane, hdeclares⟩
    have hchain := hlaid.ordered.isChain hc
    obtain ⟨below, d, above, hsplit, ⟨m, hm, rfl⟩, htop⟩ :=
      exists_last (P := (·.Declares method)) ⟨a, ha, hdeclares⟩
    rw [hsplit] at hchain ha ⊢
    have hd : t.get? d.name = some d := hchain.get?_of_mem (by simp)
    have hne : d.name ≠ p.main.name.name := by
      intro hmain
      obtain ⟨own, hown, hsame⟩ := hdeclares
      rcases List.mem_append.1 ha with hbelow | hrest
      · have hsubclass : t.isSubclass a.name p.main.name.name = true :=
          List.any_eq_true.2 ⟨d, hchain.mem_ancestors hbelow, by simp [hmain]⟩
        have hmethod := (htabled.members _ d hd).methods m hm
        exact name_ne_mainMethod h (hchain.get?_of_mem ha) hane (hlaid.ordered.isSubclass_iff.1 hsubclass)
          hown (hsame.trans (hmethod.mainSignature hmain).1)
      · rcases List.mem_cons.1 hrest with rfl | habove
        · exact hane hmain
        · exact htop a habove ⟨own, hown, hsame⟩
    refine ⟨below, d, above, m, rfl, hm, rfl, htop, ?_⟩
    apply hlaid.linesOn_eq hchain hm htop
    · exact fun e he => owner_analyze h (hchain.get?_of_mem he)
    · intro e he
      rw [blocksOf_printedLines h (hchain.get?_of_mem he)]
      exact ite_eq_or_eq _ _ _
    · rw [blocksOf_printedLines h hd, if_neg hne]

/-- The classes `A`, `B` and `C` are in a row below the main class. Both `A` and `C` declare `f`, and `B` does
not. -/
def skippedLevel : Program :=
  let here : Span := ⟨0, 0⟩
  let name (text : String) : Ident := ⟨text, here⟩
  let method (text : String) : MethodDecl :=
    { returnType := ⟨.int, here⟩, name := name text, params := [], locals := [], body := [],
      returned := .int here 0 }
  { main := { name := name "M", args := name "args", locals := [], body := [] }
    classes :=
      [{ name := name "A", superclass := some (name "M"), fields := [⟨⟨.int, here⟩, name "x"⟩],
         methods := [method "f", method "g"] },
        { name := name "B", superclass := some (name "A"), fields := [], methods := [] },
        { name := name "C", superclass := some (name "B"),
          fields := [⟨⟨.boolean, here⟩, name "y"⟩, ⟨⟨.int, here⟩, name "z"⟩],
          methods := [method "f", method "h"] }] }

/-- In `C` the method `f` has a fresh slot again, but it is listed for `A` only. -/
theorem method_listed_once_skippedLevel :
    ∃ t c d m, skippedLevel.analyze.outcome = .ok t ∧ t.get? "C" = some c ∧
      (∃ own ∈ t.fresh c, own.name = "f") ∧ d ∈ c :: t.ancestors c.name ∧ d.name = "A" ∧ m ∈ d.methods ∧
      linesOn t.printedLines ["C", "B", "A", "M"] "f" = [("A", "A" ++ "." ++ "f" ++ " : " ++ toString m.offset)] := by
  have hrun : (skippedLevel.analyze.outcome.toOption.any fun t => (t.get? "C").any fun c =>
      (t.fresh c).any (·.name == "f") &&
        decide ((c :: t.ancestors c.name).map (·.name) = ["C", "B", "A", "M"]) &&
        decide ((linesOn t.printedLines ["C", "B", "A", "M"] "f").map (·.1) = ["A"])) = true := by
    decide +kernel
  obtain ⟨t, h, hrest⟩ := Outcome.any_toOption_iff.1 hrun
  obtain ⟨c, hc, hfacts⟩ := (Option.any_eq_true _ _).1 hrest
  simp only [Bool.and_eq_true, decide_eq_true_eq, List.any_eq_true, beq_iff_eq] at hfacts
  obtain ⟨⟨⟨own, hown, hname⟩, hnames⟩, hblocks⟩ := hfacts
  have hcname := ClassTable.name_of_get? hc
  obtain ⟨-, -, hlisted⟩ := method_listed_once h
  obtain ⟨below, d, above, m, hsplit, hm, -, -, honce⟩ := hlisted c "f" (by rwa [hcname])
    ⟨c, List.mem_cons_self, by rw [hcname]; decide, own, (List.mem_filter.1 hown).1, hname⟩
  rw [hnames] at honce
  have hd : d.name = "A" := by
    rw [honce] at hblocks
    exact List.head_eq_of_cons_eq hblocks
  rw [hd] at honce
  exact ⟨t, c, d, m, h, hc, ⟨own, hown, hname⟩, by simp [hsplit], hd, hm, honce⟩

end Program

end ClassCheck
