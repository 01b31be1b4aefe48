import ClassCheck.Proofs.Layout.Table

/-!
# Where the fields of an object lie

An object holds the fields of its class and of all ancestors. The fields of a class lie one after
another, behind those of its parent. A class without fields does not pass on where the fields above it
end: fields below it begin at zero again, over those that are above it.
-/

namespace ClassCheck

namespace Variable

/-- Whether a byte of an object belongs to a field. -/
def Covers (v : Variable) (byte : Nat) : Prop :=
  v.offset ≤ byte ∧ byte < v.offset + v.type.size

/-- No byte belongs to both fields. -/
def Apart (f g : Variable) : Prop := ∀ byte, f.Covers byte → ¬ g.Covers byte

/-- The bytes that fields take together. -/
def bytes (fs : List Variable) : Nat := fs.foldr (fun f total => f.type.size + total) 0

@[simp] theorem bytes_nil : bytes [] = 0 := rfl

@[simp] theorem bytes_cons (f : Variable) (fs : List Variable) :
    bytes (f :: fs) = f.type.size + bytes fs := rfl

theorem bytes_append (fs gs : List Variable) : bytes (fs ++ gs) = bytes fs + bytes gs := by
  induction fs with
  | nil => simp
  | cons f fs ih => simp [ih, Nat.add_assoc]

theorem apart_of_le {f g : Variable} (h : f.offset + f.type.size ≤ g.offset) :
    f.Apart g ∧ g.Apart f := by
  unfold Apart Covers
  exact ⟨by omega, by omega⟩

theorem covers_offset (v : Variable) : v.Covers v.offset := by
  have hpos : 0 < v.type.size := by cases v.type <;> simp [Ty.size]
  exact ⟨Nat.le_refl _, by omega⟩

end Variable

open Variable

/-! ## One class -/

namespace ClassInfo

/-- The fields lie one after another from `start` on. -/
def Placed : Nat → List Variable → Prop
  | _, [] => True
  | start, f :: fs => f.offset = start ∧ Placed (start + f.type.size) fs

theorem placed_placeFields (cursor : Nat) (fs : List Variable) :
    Placed cursor (placeFields cursor fs).1 := by
  induction fs generalizing cursor with
  | nil => trivial
  | cons f fs ih => exact ⟨rfl, ih _⟩

theorem snd_placeFields (cursor : Nat) (fs : List Variable) :
    (placeFields cursor fs).2 = cursor + bytes (placeFields cursor fs).1 := by
  induction fs generalizing cursor with
  | nil => rfl
  | cons f fs ih =>
    have hrest := ih (cursor + f.type.size)
    simp only [placeFields, bytes_cons]
    omega

theorem Placed.bounds {start : Nat} {fs : List Variable} (h : Placed start fs) :
    ∀ f ∈ fs, start ≤ f.offset ∧ f.offset + f.type.size ≤ start + bytes fs := by
  induction fs generalizing start with
  | nil => exact List.forall_mem_nil _
  | cons f fs ih =>
    obtain ⟨rfl, hrest⟩ := h
    rw [List.forall_mem_cons, bytes_cons]
    refine ⟨by omega, fun g hg => ?_⟩
    have hbounds := ih hrest g hg
    omega

theorem Placed.pairwise {start : Nat} {fs : List Variable} (h : Placed start fs) :
    fs.Pairwise Apart := by
  induction fs generalizing start with
  | nil => exact List.Pairwise.nil
  | cons f fs ih =>
    obtain ⟨rfl, hrest⟩ := h
    refine List.pairwise_cons.2 ⟨fun g hg => ?_, ih hrest⟩
    exact (apart_of_le (hrest.bounds g hg).1).1

theorem Placed.next {start : Nat} {before after : List Variable} {f g : Variable}
    (h : Placed start (before ++ f :: g :: after)) : g.offset = f.offset + f.type.size := by
  induction before generalizing start with
  | nil =>
    obtain ⟨rfl, hg, -⟩ := h
    exact hg
  | cons e before ih => exact ih h.2

theorem placed_layOut (parent : Option ClassInfo) {c : ClassInfo} (hcursor : c.fieldCursor = 0) :
    Placed (parent.elim 0 (·.fieldCursor)) (c.layOut parent).fields ∧
      (c.layOut parent).fieldCursor =
        if (c.layOut parent).fields.isEmpty then 0
        else parent.elim 0 (·.fieldCursor) + bytes (c.layOut parent).fields := by
  have hfields : (c.layOut parent).fields = (placeFields (c.firstField parent) c.fields).1 := rfl
  have hend : (c.layOut parent).fieldCursor = (placeFields (c.firstField parent) c.fields).2 := rfl
  rw [hfields, hend, snd_placeFields]
  cases hc : c.fields with
  | nil =>
    have hfirst : c.firstField parent = 0 := by
      cases parent <;> simp [firstField, hc, hcursor]
    simp [placeFields, Placed, hfirst]
  | cons f fs =>
    have hfirst : c.firstField parent = parent.elim 0 (·.fieldCursor) := by
      cases parent <;> simp [firstField, hc, hcursor]
    rw [hfirst]
    exact ⟨placed_placeFields _ _, (if_neg (by simp [placeFields])).symm⟩

end ClassInfo

open ClassInfo

/-! ## Chains of classes -/

/-- The bytes of the fields of the first classes of a chain, up to a class that has none. -/
def topBytes (chain : List ClassInfo) : Nat :=
  bytes ((chain.takeWhile fun c => !c.fields.isEmpty).flatMap (·.fields))

theorem topBytes_cons (c : ClassInfo) (above : List ClassInfo) :
    topBytes (c :: above) = if c.fields.isEmpty then 0 else topBytes above + bytes c.fields := by
  unfold topBytes
  cases hc : c.fields.isEmpty with
  | true => simp [hc]
  | false => simp [hc, bytes_append, Nat.add_comm]

theorem topBytes_of_fieldless {chain : List ClassInfo} (h : ∀ c ∈ chain, c.fields = []) :
    topBytes chain = 0 := by
  cases chain with
  | nil => rfl
  | cons c above => simp [topBytes_cons, h c List.mem_cons_self]

/-- The fields of every class of the chain lie behind the fields that are passed on to it. -/
def Stacked : List ClassInfo → Prop
  | [] => True
  | c :: above => Placed (topBytes above) c.fields ∧ Stacked above

theorem ClassTable.LaidOut.stacked {t : ClassTable} (h : t.LaidOut) {chain : List ClassInfo}
    (hchain : t.IsChain chain) :
    Stacked chain ∧ chain.head?.elim 0 (·.fieldCursor) = topBytes chain := by
  induction chain with
  | nil => exact ⟨trivial, rfl⟩
  | cons c above ih =>
    obtain ⟨hc, hparent, -, habove⟩ := hchain
    obtain ⟨hstacked, hcursor⟩ := ih habove
    obtain ⟨c₀, hzero, -, heq⟩ := h.layout c.name c hc
    rw [hparent] at heq
    obtain ⟨hplaced, hend⟩ := placed_layOut above.head? hzero
    rw [← heq, hcursor] at hplaced hend
    rw [topBytes_cons]
    exact ⟨⟨hplaced, hstacked⟩, hend⟩

/-! ## Overlaps -/

/-- No class without fields lies between two classes with fields. -/
def Unbroken (chain : List ClassInfo) : Prop :=
  ∀ lower between upper, [lower, between, upper].Sublist chain →
    lower.fields ≠ [] → upper.fields ≠ [] → between.fields ≠ []

theorem unbroken_cons {c : ClassInfo} {above : List ClassInfo} :
    Unbroken (c :: above) ↔ Unbroken above ∧
      (c.fields ≠ [] → above.Pairwise fun lower upper => upper.fields ≠ [] → lower.fields ≠ []) := by
  rw [List.pairwise_iff_forall_sublist]
  constructor
  · intro h
    refine ⟨fun lower between upper hsub => h lower between upper (hsub.cons c), ?_⟩
    intro hc between upper hsub
    exact h c between upper (hsub.cons_cons c) hc
  · rintro ⟨habove, hfirst⟩ lower between upper hsub
    cases hsub with
    | cons _ hsub => exact habove lower between upper hsub
    | cons_cons _ hsub => exact fun hc => hfirst hc hsub

/-- If fields are passed on without a break, then all of them end before the place that is passed on. -/
theorem Stacked.le_topBytes {chain : List ClassInfo} (h : Stacked chain)
    (hpass : chain.Pairwise fun lower upper => upper.fields ≠ [] → lower.fields ≠ []) :
    ∀ f ∈ chain.flatMap (·.fields), f.offset + f.type.size ≤ topBytes chain := by
  induction chain with
  | nil => exact List.forall_mem_nil _
  | cons c above ih =>
    obtain ⟨hplaced, hstacked⟩ := h
    obtain ⟨hfirst, hpass⟩ := List.pairwise_cons.1 hpass
    rw [List.flatMap_cons, List.forall_mem_append, topBytes_cons]
    by_cases hc : c.fields = []
    · have hnone : ∀ f, f ∉ above.flatMap (·.fields) := by
        intro f hf
        obtain ⟨d, hd, hf⟩ := List.mem_flatMap.1 hf
        exact hfirst d hd (List.ne_nil_of_mem hf) hc
      exact ⟨by simp [hc], fun f hf => absurd hf (hnone f)⟩
    · rw [if_neg (by simpa using hc)]
      refine ⟨fun f hf => (hplaced.bounds f hf).2, fun f hf => ?_⟩
      have habove := ih hstacked hpass f hf
      omega

theorem Stacked.exists_at_zero {chain : List ClassInfo} (h : Stacked chain)
    (hfields : ∃ c ∈ chain, c.fields ≠ []) : ∃ f ∈ chain.flatMap (·.fields), f.offset = 0 := by
  induction chain with
  | nil => simp at hfields
  | cons c above ih =>
    obtain ⟨hplaced, hstacked⟩ := h
    simp only [List.flatMap_cons, List.mem_append]
    by_cases habove : ∃ d ∈ above, d.fields ≠ []
    · obtain ⟨f, hf, hzero⟩ := ih hstacked habove
      exact ⟨f, .inr hf, hzero⟩
    · have hnone : ∀ d ∈ above, d.fields = [] := by simpa using habove
      rw [topBytes_of_fieldless hnone] at hplaced
      cases hc : c.fields with
      | nil => simp [hc, habove] at hfields
      | cons f fs =>
        rw [hc] at hplaced
        exact ⟨f, .inl List.mem_cons_self, hplaced.1⟩

theorem Stacked.pairwise_apart_iff {chain : List ClassInfo} (h : Stacked chain) :
    (chain.flatMap (·.fields)).Pairwise Apart ↔ Unbroken chain := by
  induction chain with
  | nil => simp [Unbroken]
  | cons c above ih =>
    obtain ⟨hplaced, hstacked⟩ := h
    rw [List.flatMap_cons, List.pairwise_append, ih hstacked, unbroken_cons]
    constructor
    · rintro ⟨-, habove, hcross⟩
      refine ⟨habove, fun hc => ?_⟩
      cases above with
      | nil => exact List.Pairwise.nil
      | cons d rest =>
        obtain ⟨f, fs, hfs⟩ := List.exists_cons_of_ne_nil hc
        by_cases hd : d.fields = []
        · -- The fields of `c` begin at zero, where there is a field already if there is any above.
          have hf : f.offset = 0 := by
            rw [hfs, topBytes_cons, if_pos (by simp [hd])] at hplaced
            exact hplaced.1
          have hnone : ∀ e ∈ d :: rest, e.fields = [] := by
            intro e he
            apply Classical.byContradiction
            intro hfields
            obtain ⟨g, hg, hzero⟩ := hstacked.exists_at_zero ⟨e, he, hfields⟩
            refine hcross f (by simp [hfs]) g hg f.offset f.covers_offset ?_
            rw [hf, ← hzero]
            exact g.covers_offset
          exact List.pairwise_of_forall_mem_list fun _ _ upper hupper hfields =>
            absurd (hnone upper hupper) hfields
        · exact List.pairwise_cons.2 ⟨fun _ _ _ => hd, (unbroken_cons.1 habove).2 hd⟩
    · rintro ⟨habove, hpass⟩
      refine ⟨hplaced.pairwise, habove, fun f hf g hg => ?_⟩
      have hends := hstacked.le_topBytes (hpass (List.ne_nil_of_mem hf)) g hg
      exact (apart_of_le (Nat.le_trans hends (hplaced.bounds f hf).1)).2

/-- The fields of a class lie one after another as they are declared, the first of them behind the
fields of the ancestors up to one that has none. The fields that an object inherits lie apart from each
other and from its own if and only if no class without fields lies between two classes with fields. -/
theorem Program.fields_of_analyze {p : Program} {t : ClassTable} (h : p.analyze.outcome = .ok t)
    {name : String} {c : ClassInfo} (hc : t.get? name = some c) :
    (∃ d ∈ p.declared, c.plain = d.plain) ∧
      (∀ before f g after, c.fields = before ++ f :: g :: after →
        g.offset = f.offset + f.type.size) ∧
      (∀ f, c.fields.head? = some f → f.offset = topBytes (t.ancestors name)) ∧
      (((c :: t.ancestors name).flatMap (·.fields)).Pairwise Apart ↔
        Unbroken (c :: t.ancestors name)) := by
  obtain ⟨hlaid, hdeclared⟩ := Program.laidOut_analyze h
  obtain ⟨hstacked, -⟩ := hlaid.stacked (hlaid.ordered.isChain hc)
  refine ⟨hdeclared name c hc, ?_, ?_, hstacked.pairwise_apart_iff⟩
  · intro before f g after hfields
    have hplaced := hstacked.1
    rw [hfields] at hplaced
    exact hplaced.next
  · intro f hf
    obtain ⟨fs, hfs⟩ := List.head?_eq_some_iff.1 hf
    have hplaced := hstacked.1
    rw [hfs] at hplaced
    exact hplaced.1

/-- A class without fields, `B`, between two that have some. -/
def fieldGap : Program :=
  let here : Span := ⟨0, 0⟩
  let name (text : String) : Ident := ⟨text, here⟩
  let field (type : TypeName) (text : String) : VarDecl := ⟨⟨type, here⟩, name text⟩
  { main := { name := name "M", args := name "args", locals := [], body := [] }
    classes :=
      [{ name := name "A", superclass := none, fields := [field .boolean "a", field .int "b"],
          methods := [] },
        { name := name "B", superclass := some (name "A"), fields := [], methods := [] },
        { name := name "C", superclass := some (name "B"), fields := [field .int "c"],
          methods := [] }] }

theorem Program.fields_of_analyze_fieldGap :
    ∃ t c, fieldGap.analyze.outcome = .ok t ∧ t.get? "C" = some c ∧
      (∀ f, c.fields.head? = some f → f.offset = 0) ∧
      ¬ ((c :: t.ancestors "C").flatMap (·.fields)).Pairwise Apart := by
  have hrun : (fieldGap.analyze.outcome.toOption.any fun t => (t.get? "C").any fun c =>
      !c.fields.isEmpty && (t.ancestors "C").map (·.fields.isEmpty) == [true, false]) = true := by
    decide +kernel
  obtain ⟨t, h, hrest⟩ := Outcome.any_toOption_iff.1 hrun
  obtain ⟨c, hc, hchain⟩ := (Option.any_eq_true _ _).1 hrest
  simp only [Bool.and_eq_true, Bool.not_eq_true', beq_iff_eq, List.map_eq_cons_iff,
    List.map_eq_nil_iff, List.isEmpty_iff, List.isEmpty_eq_false_iff] at hchain
  obtain ⟨hfields, b, _, habove, hb, a, _, rfl, ha, rfl⟩ := hchain
  obtain ⟨-, -, hfirst, hapart⟩ := Program.fields_of_analyze h hc
  rw [habove] at hfirst hapart
  refine ⟨t, c, h, hc, fun f hf => ?_, ?_⟩
  · rw [hfirst f hf, topBytes_cons, if_pos (by simp [hb])]
  · rw [habove, hapart]
    exact fun hunbroken => hunbroken c b a (List.Sublist.refl _) hfields ha hb

end ClassCheck
