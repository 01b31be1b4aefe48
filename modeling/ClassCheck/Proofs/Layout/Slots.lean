import ClassCheck.Proofs.Layout.Table

/-!
# Which slots methods have

A method takes the slot of its parent's method of that name. The others are fresh: they take slots one
after another, behind the parent's if the class begins with one of them, and from zero on if not. A
class without fresh methods ends at zero, so what is below it may take slots that are in use above it.
-/

namespace ClassCheck

namespace ClassInfo

/-- Whether the parent, if there is one, does not declare the method itself. -/
def isFresh (parent : Option ClassInfo) (m : MethodInfo) : Bool :=
  !parent.any fun p => p.methods.any (·.name == m.name)

end ClassInfo

open ClassInfo

namespace ClassTable

/-- The fresh methods of a class, in the order of declaration. -/
def fresh (t : ClassTable) (c : ClassInfo) : List MethodInfo :=
  c.methods.filter (isFresh (t.parentOf? c))

def beginsFresh (t : ClassTable) (c : ClassInfo) : Bool :=
  c.methods.head?.any (isFresh (t.parentOf? c))

/-- The slot from which the fresh methods of a class are placed. -/
def slotStart (t : ClassTable) (c : ClassInfo) : Nat :=
  if t.beginsFresh c then (t.parentOf? c).elim 0 (·.methodCursor) else 0

/-- If there are methods above the fresh ones of a class, then it begins with a fresh one and its parent
has fresh ones too. -/
def Continues (t : ClassTable) (c : ClassInfo) : Prop :=
  t.fresh c ≠ [] → (∃ a ∈ t.ancestors c.name, a.methods ≠ []) →
    t.beginsFresh c = true ∧ ∃ parent, t.parentOf? c = some parent ∧ t.fresh parent ≠ []

end ClassTable

/-! ## One class -/

namespace ClassInfo

variable {parent : Option ClassInfo}

theorem slotOf?_of_mem {c : ClassInfo} (h : (c.methods.map (·.name)).Nodup) {m : MethodInfo}
    (hm : m ∈ c.methods) : c.slotOf? m.name = some m.offset := by
  have hnodup : (c.methods.reverse.map (·.name)).Nodup := by
    rw [List.map_reverse, List.Nodup, List.pairwise_reverse]
    exact h.imp Ne.symm
  rw [slotOf?, find?_of_nodup hnodup (List.mem_reverse.2 hm), Option.map_some]

theorem isFresh_eq (parent : Option ClassInfo) (m : MethodInfo) :
    isFresh parent m = (parentSlot? parent m.name).isNone := by
  cases parent with
  | none => rfl
  | some p =>
    rw [Bool.eq_iff_iff]
    simp [parentSlot?, slotOf?, isFresh]

@[simp] theorem isFresh_offset (m : MethodInfo) (slot : Nat) :
    isFresh parent { m with offset := slot } = isFresh parent m := rfl

theorem offset_placeMethods (cursor : Nat) (ms : List MethodInfo) :
    ∀ m ∈ (placeMethods parent cursor ms).1, ∀ slot, parentSlot? parent m.name = some slot →
      m.offset = slot := by
  induction ms generalizing cursor with
  | nil => exact List.forall_mem_nil _
  | cons m ms ih =>
    unfold placeMethods
    cases hslot : parentSlot? parent m.name with
    | some slot =>
      refine List.forall_mem_cons.2 ⟨fun slot' hslot' => ?_, ih cursor⟩
      exact Option.some.inj (hslot.symm.trans hslot')
    | none =>
      refine List.forall_mem_cons.2 ⟨fun slot' hslot' => ?_, ih _⟩
      cases hslot.symm.trans hslot'

theorem fresh_placeMethods (parent : Option ClassInfo) (cursor : Nat) (ms : List MethodInfo) :
    ((placeMethods parent cursor ms).1.filter (isFresh parent)).map (·.offset) =
        List.range' cursor (ms.filter (isFresh parent)).length slotSize ∧
      (placeMethods parent cursor ms).2 =
        cursor + slotSize * (ms.filter (isFresh parent)).length := by
  induction ms generalizing cursor with
  | nil => exact ⟨rfl, rfl⟩
  | cons m ms ih =>
    have hfresh := isFresh_eq parent m
    unfold placeMethods
    cases hslot : parentSlot? parent m.name with
    | some slot =>
      rw [hslot, Option.isNone_some] at hfresh
      simpa [hfresh] using ih cursor
    | none =>
      rw [hslot, Option.isNone_none] at hfresh
      obtain ⟨hslots, hend⟩ := ih (cursor + slotSize)
      simp only [List.filter_cons, isFresh_offset, hfresh, if_true, List.map_cons, List.length_cons,
        List.range'_succ, hslots, hend, true_and, Nat.mul_succ]
      omega

theorem head?_placeMethods (cursor : Nat) (ms : List MethodInfo) :
    (placeMethods parent cursor ms).1.head?.any (isFresh parent) = ms.head?.any (isFresh parent) := by
  cases ms with
  | nil => rfl
  | cons m ms =>
    unfold placeMethods
    cases parentSlot? parent m.name <;> rfl

theorem firstSlot_eq {c : ClassInfo} (hcursor : c.methodCursor = 0) :
    c.firstSlot parent =
      if c.methods.head?.any (isFresh parent) then parent.elim 0 (·.methodCursor) else 0 := by
  cases parent with
  | none => simp [firstSlot, hcursor]
  | some p =>
    cases hm : c.methods.head? with
    | none => simp [firstSlot, hm, hcursor]
    | some m =>
      simp only [firstSlot, hm, hcursor, Option.any_some, isFresh_eq, parentSlot?, Option.bind_some]
      cases p.slotOf? m.name <;> rfl

end ClassInfo

namespace ClassTable

/-- The fresh methods of the class take slots one after another, and the cursor is behind them. -/
structure Slotted (t : ClassTable) (c : ClassInfo) : Prop where
  slots : (t.fresh c).map (·.offset) = List.range' (t.slotStart c) (t.fresh c).length slotSize
  cursor : c.methodCursor = t.slotStart c + slotSize * (t.fresh c).length

variable {t : ClassTable} {c : ClassInfo}

theorem LaidOut.slotted (h : t.LaidOut) {name : String} (hc : t.get? name = some c) :
    t.Slotted c ∧ ∀ m ∈ c.methods, ∀ slot, parentSlot? (t.parentOf? c) m.name = some slot →
      m.offset = slot := by
  obtain ⟨c₀, -, hzero, heq⟩ := h.layout name c hc
  generalize hparent : t.parentOf? c = parent at heq ⊢
  have hmethods : c.methods = (placeMethods parent (c₀.firstSlot parent) c₀.methods).1 := by
    rw [heq]
    rfl
  have hcursor : c.methodCursor = (placeMethods parent (c₀.firstSlot parent) c₀.methods).2 := by
    rw [heq]
    rfl
  have hstart : c₀.firstSlot parent = t.slotStart c := by
    rw [firstSlot_eq hzero, slotStart, beginsFresh, hparent, hmethods, head?_placeMethods]
  obtain ⟨hslots, hend⟩ := fresh_placeMethods parent (c₀.firstSlot parent) c₀.methods
  have hlen := congrArg List.length hslots
  rw [List.length_map, List.length_range'] at hlen
  rw [← hlen, ← hmethods, hstart] at hslots
  rw [← hlen, ← hmethods, ← hcursor, hstart] at hend
  refine ⟨⟨?_, ?_⟩, ?_⟩
  · rwa [fresh, hparent]
  · rwa [fresh, hparent]
  · rw [hmethods]
    exact offset_placeMethods _ _

namespace Slotted

theorem offset_getElem? (h : t.Slotted c) {k : Nat} {m : MethodInfo} (hm : (t.fresh c)[k]? = some m) :
    m.offset = t.slotStart c + slotSize * k := by
  have hslot := congrArg (·[k]?) h.slots
  obtain ⟨hk, rfl⟩ := List.getElem?_eq_some_iff.1 hm
  simpa [hk] using hslot

theorem bounds (h : t.Slotted c) {m : MethodInfo} (hm : m ∈ t.fresh c) :
    t.slotStart c ≤ m.offset ∧ m.offset < c.methodCursor := by
  obtain ⟨k, hk⟩ := List.mem_iff_getElem?.1 hm
  obtain ⟨hlt, -⟩ := List.getElem?_eq_some_iff.1 hk
  rw [h.cursor, h.offset_getElem? hk, slotSize]
  omega

theorem pairwise (h : t.Slotted c) : (t.fresh c).Pairwise (·.offset ≠ ·.offset) := by
  rw [← List.pairwise_map, h.slots]
  exact List.nodup_range' slotSize (by decide)

theorem exists_at_start (h : t.Slotted c) (hfresh : t.fresh c ≠ []) :
    ∃ m ∈ t.fresh c, m.offset = t.slotStart c := by
  obtain ⟨m, ms, hms⟩ := List.exists_cons_of_ne_nil hfresh
  exact ⟨m, by simp [hms], h.offset_getElem? (k := 0) (by rw [hms, List.getElem?_cons_zero])⟩

theorem cursor_eq_zero (h : t.Slotted c) (hfresh : t.fresh c = []) : c.methodCursor = 0 := by
  have hbegins : t.beginsFresh c = false := by
    unfold fresh at hfresh
    unfold beginsFresh
    cases hm : c.methods with
    | nil => rfl
    | cons m ms => simpa [hm] using List.filter_eq_nil_iff.1 hfresh m (by simp [hm])
  simp [h.cursor, hfresh, slotStart, hbegins]

end Slotted

/-! ## Chains of classes -/

theorem exists_of_mem_fresh {chain : List ClassInfo} {m : MethodInfo} (hm : m ∈ chain.flatMap t.fresh) :
    ∃ a ∈ chain, a.methods ≠ [] := by
  obtain ⟨a, ha, hm⟩ := List.mem_flatMap.1 hm
  exact ⟨a, ha, List.ne_nil_of_mem (List.mem_filter.1 hm).1⟩

/-- Above a class that continues the slots of its ancestors all fresh methods are before its own. -/
theorem LaidOut.lt_slotStart (h : t.LaidOut) {above : List ClassInfo} (hchain : t.IsChain (c :: above))
    (hcontinues : ∀ x ∈ c :: above, t.Continues x) (hfresh : t.fresh c ≠ []) :
    ∀ m ∈ above.flatMap t.fresh, m.offset < t.slotStart c := by
  induction above generalizing c with
  | nil => exact List.forall_mem_nil _
  | cons d rest ih =>
    intro m hm
    obtain ⟨-, hparent, hancestors, habove⟩ := hchain
    obtain ⟨hc, hcontinues⟩ := List.forall_mem_cons.1 hcontinues
    obtain ⟨hbegins, parent, hd, hdfresh⟩ := hc hfresh (hancestors ▸ exists_of_mem_fresh hm)
    obtain rfl : d = parent := Option.some.inj (hparent.symm.trans hd)
    have hstart : t.slotStart c = d.methodCursor := by simp [slotStart, hbegins, hd]
    obtain ⟨hslotted, -⟩ := h.slotted habove.1
    rw [hstart]
    rw [List.flatMap_cons, List.mem_append] at hm
    rcases hm with hm | hm
    · exact (hslotted.bounds hm).2
    · have hlt := ih habove hcontinues hdfresh m hm
      rw [hslotted.cursor]
      omega

theorem LaidOut.exists_at_zero (h : t.LaidOut) {chain : List ClassInfo} (hchain : t.IsChain chain)
    (hmethods : ∃ c ∈ chain, c.methods ≠ []) : ∃ m ∈ chain.flatMap t.fresh, m.offset = 0 := by
  induction chain with
  | nil => simp at hmethods
  | cons c above ih =>
    obtain ⟨hc, hparent, -, habove⟩ := hchain
    simp only [List.flatMap_cons, List.mem_append]
    by_cases hsome : ∃ d ∈ above, d.methods ≠ []
    · obtain ⟨m, hm, hzero⟩ := ih habove hsome
      exact ⟨m, .inr hm, hzero⟩
    · have hnone : ∀ d ∈ above, d.methods = [] := by simpa using hsome
      have hown : c.methods ≠ [] := by simpa [hsome] using hmethods
      -- The parent has no methods, so all methods of `c` are fresh, and they are placed from zero on.
      have hall : t.fresh c = c.methods := by
        rw [fresh, List.filter_eq_self, hparent]
        intro m _
        cases above with
        | nil => rfl
        | cons d rest => simp [isFresh, hnone d List.mem_cons_self]
      have hstart : t.slotStart c = 0 := by
        rw [slotStart, hparent]
        cases above with
        | nil => simp
        | cons d rest =>
          have hd : t.fresh d = [] := by simp [fresh, hnone d List.mem_cons_self]
          simp [(h.slotted habove.1).1.cursor_eq_zero hd]
      obtain ⟨m, hm, hoffset⟩ := (h.slotted hc).1.exists_at_start (hall ▸ hown)
      exact ⟨m, .inl hm, hoffset.trans hstart⟩

theorem LaidOut.pairwise_offset_iff (h : t.LaidOut) {chain : List ClassInfo}
    (hchain : t.IsChain chain) :
    (chain.flatMap t.fresh).Pairwise (·.offset ≠ ·.offset) ↔ ∀ x ∈ chain, t.Continues x := by
  induction chain with
  | nil => simp
  | cons c above ih =>
    obtain ⟨hc, hparent, hancestors, habove⟩ := hchain
    obtain ⟨hslotted, -⟩ := h.slotted hc
    rw [List.flatMap_cons, List.pairwise_append, ih habove, List.forall_mem_cons]
    constructor
    · rintro ⟨-, hcontinues, hcross⟩
      refine ⟨fun hfresh hmethods => ?_, hcontinues⟩
      rw [hancestors] at hmethods
      obtain ⟨m, hm, hstart⟩ := hslotted.exists_at_start hfresh
      obtain ⟨m₀, hm₀, hzero⟩ := h.exists_at_zero habove hmethods
      -- The first slot is taken, so the slots of `c` begin after it: they follow those of the parent.
      have hne : t.slotStart c ≠ 0 := by
        rw [← hstart, ← hzero]
        exact hcross m hm m₀ hm₀
      cases above with
      | nil => simp at hmethods
      | cons d rest =>
        have hd : t.parentOf? c = some d := hparent
        unfold slotStart at hne
        split at hne
        · next hbegins =>
          refine ⟨hbegins, d, hd, fun hdfresh => hne ?_⟩
          rw [hd]
          exact (h.slotted habove.1).1.cursor_eq_zero hdfresh
        · exact absurd rfl hne
    · rintro ⟨hcontinues, habove'⟩
      refine ⟨hslotted.pairwise, habove', fun m hm m' hm' => ?_⟩
      have hlt := h.lt_slotStart ⟨hc, hparent, hancestors, habove⟩
        (List.forall_mem_cons.2 ⟨hcontinues, habove'⟩) (List.ne_nil_of_mem hm) m' hm'
      have hle := (hslotted.bounds hm).1
      omega

end ClassTable

/-- A method that the parent declares too has the slot of the parent's method. The fresh methods follow
each other from the start of the class on, and the cursor ends behind them. The fresh methods of a class
and its ancestors have slots of their own if and only if every class that has fresh methods below others
continues the slots. -/
theorem Program.slots_of_analyze {p : Program} {t : ClassTable} (h : p.analyze.outcome = .ok t)
    {name : String} {c : ClassInfo} (hc : t.get? name = some c) :
    (∃ d ∈ p.declared, c.plain = d.plain) ∧
      (∀ m ∈ c.methods, ∀ parent, t.parentOf? c = some parent →
        ∀ m' ∈ parent.methods, m'.name = m.name → m.offset = m'.offset) ∧
      (∀ k m, (t.fresh c)[k]? = some m → m.offset = t.slotStart c + 8 * k) ∧
      c.methodCursor = t.slotStart c + 8 * (t.fresh c).length ∧
      (((c :: t.ancestors name).flatMap t.fresh).Pairwise (·.offset ≠ ·.offset) ↔
        ∀ x ∈ c :: t.ancestors name, t.Continues x) := by
  obtain ⟨hlaid, hdeclared⟩ := Program.laidOut_analyze h
  obtain ⟨hslotted, hslots⟩ := hlaid.slotted hc
  refine ⟨hdeclared name c hc, ?_, fun k m hm => hslotted.offset_getElem? hm, hslotted.cursor,
    hlaid.pairwise_offset_iff (hlaid.ordered.isChain hc)⟩
  intro m hm parent hparent m' hm' hname
  obtain ⟨q, -, hq⟩ := Option.bind_eq_some_iff.1 hparent
  have hdistinct := hlaid.distinct.members parent (List.mem_of_find?_eq_some hq)
  apply hslots m hm
  rw [hparent, ← hname]
  exact slotOf?_of_mem hdistinct.methods hm'

/-- A class that overrides only, `B`, between two that have fresh methods. -/
def slotGap : Program :=
  let here : Span := ⟨0, 0⟩
  let name (text : String) : Ident := ⟨text, here⟩
  let method (text : String) : MethodDecl :=
    { returnType := ⟨.int, here⟩, name := name text, params := [], locals := [], body := [],
      returned := .int here 0 }
  { main := { name := name "M", args := name "args", locals := [], body := [] }
    classes :=
      [{ name := name "A", superclass := none, fields := [], methods := [method "f", method "g"] },
        { name := name "B", superclass := some (name "A"), fields := [], methods := [method "g"] },
        { name := name "C", superclass := some (name "B"), fields := [], methods := [method "h"] }] }

theorem Program.slots_of_analyze_slotGap :
    ∃ t c m, slotGap.analyze.outcome = .ok t ∧ t.get? "C" = some c ∧ (t.fresh c)[0]? = some m ∧
      m.offset = t.slotStart c ∧
      ¬ ((c :: t.ancestors "C").flatMap t.fresh).Pairwise (·.offset ≠ ·.offset) := by
  have hrun : (slotGap.analyze.outcome.toOption.any fun t => (t.get? "C").any fun c =>
      (t.fresh c)[0]?.isSome && (t.ancestors "C").any (fun a => !a.methods.isEmpty) &&
        (t.parentOf? c).all fun parent => (t.fresh parent).isEmpty) = true := by
    decide +kernel
  obtain ⟨t, h, hrest⟩ := Outcome.any_toOption_iff.1 hrun
  obtain ⟨c, hc, hchain⟩ := (Option.any_eq_true _ _).1 hrest
  simp only [Bool.and_eq_true, Option.isSome_iff_exists, List.any_eq_true, Bool.not_eq_true',
    List.isEmpty_eq_false_iff, Option.all_eq_true, List.isEmpty_iff] at hchain
  obtain ⟨⟨⟨m, hm⟩, hmethods⟩, hparent⟩ := hchain
  obtain ⟨-, -, hfresh, -, hdistinct⟩ := Program.slots_of_analyze h hc
  refine ⟨t, c, m, h, hc, hm, hfresh 0 m hm, ?_⟩
  rw [hdistinct]
  intro hcontinues
  have hne : t.fresh c ≠ [] := List.ne_nil_of_mem (List.mem_of_getElem? hm)
  obtain ⟨-, parent, hp, hnone⟩ := hcontinues c List.mem_cons_self hne
    (by rwa [ClassTable.name_of_get? hc])
  exact hnone (hparent parent hp)

end ClassCheck
