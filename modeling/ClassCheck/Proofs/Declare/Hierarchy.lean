import ClassCheck.Proofs.Declare.Classes

/-!
# Which hierarchies are accepted

A class is compared only with the classes that are declared before it. That is enough: the classes of a
program are accepted if and only if their names are distinct and every superclass comes before the
classes that extend it, so there are no cycles either. If the classes are not accepted, then the first
one that breaks this is reported.
-/

namespace ClassCheck

namespace ClassHeader

/-- The names of classes. -/
def names (hs : List ClassHeader) : List String := hs.map (·.name.name)

/-- A class that may come after classes of these names. -/
structure Fits (earlier : List String) (h : ClassHeader) : Prop where
  new : h.name.name ∉ earlier
  superclass : ∀ s, h.superclass = some s → s.name ∈ earlier

/-- What is reported of a class that may not come after classes of these names. -/
inductive Refused (earlier : List String) (h : ClassHeader) : SemanticError → Prop
  | duplicate : h.name.name ∈ earlier →
      Refused earlier h ⟨.duplicateClass h.name.name, h.name.span⟩
  | extendsItself {s : Ident} : h.name.name ∉ earlier → h.superclass = some s →
      s.name = h.name.name → Refused earlier h ⟨.selfInheritance h.name.name, s.span⟩
  | extendsUnknown {s : Ident} : h.name.name ∉ earlier → h.superclass = some s →
      s.name ≠ h.name.name → s.name ∉ earlier →
      Refused earlier h ⟨.unknownSuperclass h.name.name s.name, s.span⟩

/-- Class names are distinct, and every superclass is the name of a class that comes strictly before. -/
structure ForwardFree (hs : List ClassHeader) : Prop where
  distinct : (names hs).Nodup
  superclasses : ∀ before h after, hs = before ++ h :: after →
    ∀ s, h.superclass = some s → s.name ∈ names before

variable {hs before after : List ClassHeader} {h : ClassHeader}

theorem names_append (hs hs' : List ClassHeader) : names (hs ++ hs') = names hs ++ names hs' :=
  List.map_append

theorem forwardFree_nil : ForwardFree [] := by
  constructor
  · exact List.nodup_nil
  · intro before h after hsplit
    simp at hsplit

theorem forwardFree_concat : ForwardFree (hs ++ [h]) ↔ ForwardFree hs ∧ h.Fits (names hs) := by
  constructor
  · intro hfree
    have hdistinct := hfree.distinct
    rw [names_append, List.nodup_append] at hdistinct
    refine ⟨⟨hdistinct.1, ?_⟩, ?_, hfree.superclasses hs h [] rfl⟩
    · intro before g after hsplit
      apply hfree.superclasses before g (after ++ [h])
      rw [hsplit, List.append_assoc, List.cons_append]
    · intro hmem
      exact hdistinct.2.2 _ hmem _ List.mem_cons_self rfl
  · rintro ⟨hfree, hfits⟩
    constructor
    · rw [names_append, List.nodup_append]
      refine ⟨hfree.distinct, by simp [names], ?_⟩
      intro a ha b hb hab
      obtain rfl : b = h.name.name := List.mem_singleton.1 hb
      exact hfits.new (hab ▸ ha)
    · intro before g after hsplit
      rcases List.eq_nil_or_concat after with rfl | ⟨after, last, rfl⟩
      · obtain ⟨rfl, hlast⟩ := List.append_inj' hsplit rfl
        obtain rfl : h = g := by simpa using hlast
        exact hfits.superclass
      · rw [List.concat_eq_append, ← List.cons_append, ← List.append_assoc] at hsplit
        exact hfree.superclasses before g after (List.append_inj' hsplit rfl).1

theorem ForwardFree.fits (hfree : ForwardFree (before ++ h :: after)) : h.Fits (names before) := by
  constructor
  · have hdistinct := hfree.distinct
    rw [names_append, List.nodup_append] at hdistinct
    exact fun hmem => hdistinct.2.2 _ hmem _ List.mem_cons_self rfl
  · exact hfree.superclasses before h after rfl

end ClassHeader

open ClassHeader

/-! ## The table of a hierarchy -/

namespace ClassTable

variable {hs : List ClassHeader} {h : ClassHeader} {e : SemanticError}

/-- The table that holds just these classes, without members. -/
def ofHeaders (hs : List ClassHeader) : ClassTable :=
  { types := [.int, .boolean, .intArray] ++ (names hs).map .object
    order := names hs
    entries := hs.map ClassHeader.declared }

theorem contains_ofHeaders {name : String} : (ofHeaders hs).contains name = true ↔ name ∈ names hs := by
  have hnames : (ofHeaders hs).entries.map (·.name) = names hs := List.map_map
  rw [← hnames, contains, get?, List.find?_isSome]
  simp

theorem put_of_new {c : ClassInfo} {ds : List ClassInfo} (hnew : c.name ∉ ds.map (·.name)) :
    put c ds = ds ++ [c] := by
  induction ds with
  | nil => rfl
  | cons d ds ih =>
    rw [List.map_cons, List.mem_cons, not_or] at hnew
    rw [put, if_neg (Ne.symm hnew.1), ih hnew.2, List.cons_append]

theorem declare_ofHeaders (hnew : h.name.name ∉ names hs) :
    (ofHeaders hs).declare h.declared = ofHeaders (hs ++ [h]) := by
  have hput : put h.declared (hs.map ClassHeader.declared) = (hs ++ [h]).map ClassHeader.declared := by
    rw [List.map_append]
    apply put_of_new
    rw [List.map_map]
    exact hnew
  have htypes : (ofHeaders hs).types ++ [.object h.name.name] = (ofHeaders (hs ++ [h])).types := by
    simp [ofHeaders, names]
  have horder : (ofHeaders hs).order ++ [h.name.name] = (ofHeaders (hs ++ [h])).order :=
    (names_append hs [h]).symm
  unfold declare
  rw [ofHeaders, hput]
  simp only [ofHeaders] at htypes horder ⊢
  rw [← htypes, ← horder]
  rfl

/-! ## One class -/

theorem headerError?_eq_none_iff : (ofHeaders hs).headerError? h = none ↔ h.Fits (names hs) := by
  constructor
  · intro hnone
    obtain ⟨hnew, hparent⟩ := headerError?_eq_none hnone
    constructor
    · rw [← contains_ofHeaders, hnew]
      exact Bool.false_ne_true
    · intro s hs
      apply contains_ofHeaders.1
      apply hparent
      rw [ClassHeader.declared, hs, Option.map_some]
  · rintro ⟨hnew, hsuperclass⟩
    rw [headerError?, if_neg (mt contains_ofHeaders.1 hnew)]
    cases hs : h.superclass with
    | none => rfl
    | some s =>
      have hmem := hsuperclass s hs
      -- The name of the class is new, so the superclass has another one.
      have hne : s.name ≠ h.name.name := fun heq => hnew (heq ▸ hmem)
      simp only [if_neg hne, if_pos (contains_ofHeaders.2 hmem)]

theorem headerError?_eq_some_iff :
    (ofHeaders hs).headerError? h = some e ↔ h.Refused (names hs) e := by
  constructor
  · intro hsome
    unfold headerError? at hsome
    split at hsome
    · next hmem =>
      obtain rfl := Option.some.inj hsome
      exact .duplicate (contains_ofHeaders.1 hmem)
    next hnew =>
    replace hnew := mt contains_ofHeaders.2 hnew
    split at hsome
    · cases hsome
    next s hs =>
    split at hsome
    · next hself =>
      obtain rfl := Option.some.inj hsome
      exact .extendsItself hnew hs hself
    next hne =>
    split at hsome
    · cases hsome
    · next hunknown =>
      obtain rfl := Option.some.inj hsome
      exact .extendsUnknown hnew hs hne (mt contains_ofHeaders.2 hunknown)
  · intro hrefused
    cases hrefused with
    | duplicate hmem => rw [headerError?, if_pos (contains_ofHeaders.2 hmem)]
    | extendsItself hnew hs hself =>
      rw [headerError?, if_neg (mt contains_ofHeaders.1 hnew), hs]
      simp only [if_pos hself]
    | extendsUnknown hnew hs hne hunknown =>
      rw [headerError?, if_neg (mt contains_ofHeaders.1 hnew), hs]
      simp only [if_neg hne, if_neg (mt contains_ofHeaders.1 hunknown)]

theorem fits_or_refused (hs : List ClassHeader) (h : ClassHeader) :
    h.Fits (names hs) ∨ ∃ e, h.Refused (names hs) e := by
  cases he : (ofHeaders hs).headerError? h with
  | none => exact .inl (headerError?_eq_none_iff.1 he)
  | some e => exact .inr ⟨e, headerError?_eq_some_iff.1 he⟩

theorem not_fits_of_refused (hrefused : h.Refused (names hs) e) : ¬ h.Fits (names hs) := by
  intro hfits
  cases (headerError?_eq_some_iff.2 hrefused).symm.trans (headerError?_eq_none_iff.2 hfits)

/-! ## The loop over the classes -/

variable {done rest : List ClassHeader} {t : ClassTable}

theorem outcome_declareHeaders_of_fits (hfits : h.Fits (names done)) :
    ((ofHeaders done).declareHeaders (h :: rest)).outcome =
      ((ofHeaders (done ++ [h])).declareHeaders rest).outcome := by
  rw [declareHeaders, headerError?_eq_none_iff.2 hfits, ← declare_ofHeaders hfits.new]
  rfl

theorem outcome_declareHeaders_of_refused (hrefused : h.Refused (names done) e) :
    ((ofHeaders done).declareHeaders (h :: rest)).outcome = .error e := by
  rw [declareHeaders, headerError?_eq_some_iff.2 hrefused]
  rfl

theorem declareHeaders_ok_iff (hdone : ForwardFree done) :
    ((ofHeaders done).declareHeaders rest).outcome = .ok t ↔
      ForwardFree (done ++ rest) ∧ t = ofHeaders (done ++ rest) := by
  induction rest generalizing done with
  | nil =>
    rw [List.append_nil, declareHeaders, Logged.pure_ok]
    exact ⟨fun ht => ⟨hdone, ht.symm⟩, fun ht => ht.2.symm⟩
  | cons h rest ih =>
    rcases fits_or_refused done h with hfits | ⟨e, hrefused⟩
    · rw [outcome_declareHeaders_of_fits hfits, ih (forwardFree_concat.2 ⟨hdone, hfits⟩),
        List.append_assoc, List.singleton_append]
    · rw [outcome_declareHeaders_of_refused hrefused]
      constructor
      · intro hok
        cases hok
      · rintro ⟨hfree, -⟩
        exact absurd hfree.fits (not_fits_of_refused hrefused)

theorem declareHeaders_error_iff (hdone : ForwardFree done) :
    ((ofHeaders done).declareHeaders rest).outcome = .error e ↔
      ∃ before h after, rest = before ++ h :: after ∧ ForwardFree (done ++ before) ∧
        h.Refused (names (done ++ before)) e := by
  induction rest generalizing done with
  | nil =>
    constructor
    · intro herror
      cases herror
    · rintro ⟨before, h, after, hsplit, -⟩
      simp at hsplit
  | cons h rest ih =>
    rcases fits_or_refused done h with hfits | ⟨e', hrefused⟩
    · rw [outcome_declareHeaders_of_fits hfits, ih (forwardFree_concat.2 ⟨hdone, hfits⟩)]
      constructor
      · rintro ⟨before, g, after, rfl, hfree, hrefused⟩
        rw [List.append_assoc, List.singleton_append] at hfree hrefused
        exact ⟨h :: before, g, after, rfl, hfree, hrefused⟩
      · rintro ⟨before, g, after, hsplit, hfree, hrefused⟩
        cases before with
        | nil =>
          obtain ⟨rfl, rfl⟩ := List.cons.inj hsplit
          rw [List.append_nil] at hrefused
          exact absurd hfits (not_fits_of_refused hrefused)
        | cons g' before =>
          obtain ⟨rfl, rfl⟩ := List.cons.inj hsplit
          refine ⟨before, g, after, rfl, ?_, ?_⟩
          · rwa [List.append_assoc, List.singleton_append]
          · rwa [List.append_assoc, List.singleton_append]
    · rw [outcome_declareHeaders_of_refused hrefused]
      constructor
      · intro herror
        obtain rfl := Except.error.inj herror
        refine ⟨[], h, rest, rfl, ?_, ?_⟩
        · rwa [List.append_nil]
        · rwa [List.append_nil]
      · rintro ⟨before, g, after, hsplit, hfree, hother⟩
        cases before with
        | nil =>
          obtain ⟨rfl, rfl⟩ := List.cons.inj hsplit
          rw [List.append_nil, ← headerError?_eq_some_iff, headerError?_eq_some_iff.2 hrefused] at hother
          rw [Option.some.inj hother]
        | cons g' before =>
          obtain ⟨rfl, -⟩ := List.cons.inj hsplit
          exact absurd hfree.fits (not_fits_of_refused hrefused)

end ClassTable

/-! ## Programs -/

theorem Program.outcome_declareClasses (p : Program) :
    p.declareClasses.outcome = ((ClassTable.ofHeaders []).declareHeaders p.headers).outcome := by
  simp only [declareClasses, Logged.outcome_bind, Logged.outcome_record, Logged.outcome_pure]
  change ((ClassTable.ofHeaders []).declareHeaders p.headers).outcome >>= _ = _
  cases ((ClassTable.ofHeaders []).declareHeaders p.headers).outcome <;> rfl

theorem Program.declareClasses_ok_iff {p : Program} {t : ClassTable} :
    p.declareClasses.outcome = .ok t ↔ ForwardFree p.headers ∧ t = ClassTable.ofHeaders p.headers := by
  rw [outcome_declareClasses]
  exact ClassTable.declareHeaders_ok_iff forwardFree_nil

/-- The classes of a program are accepted if and only if their names, that of the main class included,
are distinct and every superclass is declared before. Then the table holds the classes in their order.
Otherwise the first class that breaks this is refused: for its name if that is taken, or else for its
superclass. -/
theorem Program.hierarchy_of_declareClasses (p : Program) :
    ((∃ t, p.declareClasses.outcome = .ok t) ↔ ForwardFree p.headers) ∧
      (∀ t, p.declareClasses.outcome = .ok t → t = ClassTable.ofHeaders p.headers) ∧
      ∀ e, p.declareClasses.outcome = .error e ↔
        ∃ before h after, p.headers = before ++ h :: after ∧ ForwardFree before ∧
          h.Refused (ClassHeader.names before) e := by
  refine ⟨⟨?_, ?_⟩, ?_, ?_⟩
  · rintro ⟨t, hok⟩
    exact (declareClasses_ok_iff.1 hok).1
  · intro hfree
    exact ⟨_, declareClasses_ok_iff.2 ⟨hfree, rfl⟩⟩
  · intro t hok
    exact (declareClasses_ok_iff.1 hok).2
  · intro e
    rw [outcome_declareClasses]
    exact ClassTable.declareHeaders_error_iff forwardFree_nil

end ClassCheck
