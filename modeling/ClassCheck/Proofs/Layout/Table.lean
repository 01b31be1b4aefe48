import ClassCheck.Compile
import ClassCheck.Proofs.Typing.Blind

/-!
# Laid out tables

Classes are laid out in the order of declaration, each from what its parent has become by then. As a
parent comes first, it does not change any more: in the end every class is laid out from its parent
as it is in the end.
-/

namespace ClassCheck

namespace ClassTable

variable {t : ClassTable}

/-- The class that a class extends. -/
def parentOf? (t : ClassTable) (c : ClassInfo) : Option ClassInfo := c.parent.bind t.get?

/-- A class of the table and its ancestors, the nearest first. -/
def IsChain (t : ClassTable) : List ClassInfo → Prop
  | [] => True
  | c :: above =>
    t.get? c.name = some c ∧ t.parentOf? c = above.head? ∧ t.ancestors c.name = above ∧ t.IsChain above

theorem Ordered.isChain (h : t.Ordered) {name : String} {c : ClassInfo} (hc : t.get? name = some c) :
    t.IsChain (c :: t.ancestors name) := by
  induction name using h.induction generalizing c with
  | step name ih =>
    obtain rfl := name_of_get? hc
    have hparentOf : t.parentOf? c = (t.parent? c.name).bind t.get? := by
      rw [parentOf?, parent?, hc, Option.bind_some]
    rw [IsChain, hparentOf]
    cases hp : t.parent? c.name with
    | none =>
      rw [ancestors_of_none hp]
      exact ⟨hc, rfl, rfl, trivial⟩
    | some parent =>
      obtain ⟨q, hq⟩ := h.exists_parent hp
      rw [h.ancestors_of_parent hp hq]
      exact ⟨hc, hq, rfl, ih parent hp hq⟩

/-! ## The loop over the classes -/

/-- `now` is what has become of `t` when the classes named in `done` have been laid out. -/
def LaidOutUpTo (t now : ClassTable) (done : List String) : Prop :=
  ∀ name, now.get? name =
    if name ∈ done then (t.get? name).map fun c => c.layOut (now.parentOf? c) else t.get? name

theorem Ordered.laidOutUpTo_step (h : t.Ordered) {now : ClassTable} {done rest : List String}
    {name : String} (horder : t.order = done ++ name :: rest) (hnow : t.LaidOutUpTo now done) :
    t.LaidOutUpTo (now.layOutClass name) (done ++ [name]) := by
  have hnew : name ∉ done := by
    have hnodup := h.nodup
    rw [horder, List.nodup_append] at hnodup
    exact fun hmem => hnodup.2.2 name hmem name List.mem_cons_self rfl
  obtain ⟨c, hc⟩ : ∃ c, t.get? name = some c :=
    Option.isSome_iff_exists.1 (h.isSome_get?_iff.2 (by rw [horder]; simp))
  have hcnow : now.get? name = some c := by rw [hnow, if_neg hnew, hc]
  have hget : ∀ n, (now.layOutClass name).get? n =
      if name = n then some (c.layOut (now.parentOf? c)) else now.get? n := by
    intro n
    simp only [layOutClass, hcnow, get?_store]
    change (if c.name = n then _ else _) = _
    rw [name_of_get? hc]
    rfl
  -- A parent is done already, so this step does not touch it.
  have hparent : ∀ n c', n ∈ done ++ [name] → t.get? n = some c' →
      (now.layOutClass name).parentOf? c' = now.parentOf? c' := by
    intro n c' hn hc'
    unfold parentOf?
    cases hp : c'.parent with
    | none => rfl
    | some parent =>
      have hdone : parent ∈ done := by
        have hparent : t.parent? n = some parent := by rw [parent?, hc', Option.bind_some, hp]
        rcases List.mem_append.1 hn with hn | hn
        · exact h.parent_mem_of_append horder hn hparent
        · obtain rfl := List.mem_singleton.1 hn
          exact h.parents _ _ _ horder _ hparent
      have hne : name ≠ parent := by
        rintro rfl
        exact hnew hdone
      rw [Option.bind_some, Option.bind_some, hget, if_neg hne]
  intro n
  rw [hget]
  by_cases hn : name = n
  · subst hn
    have hmem : name ∈ done ++ [name] := by simp
    rw [if_pos rfl, if_pos hmem, hc, Option.map_some, hparent name c hmem hc]
  · rw [if_neg hn, hnow n]
    by_cases hdone : n ∈ done
    · have hmem : n ∈ done ++ [name] := List.mem_append_left _ hdone
      rw [if_pos hdone, if_pos hmem]
      cases hc' : t.get? n with
      | none => rfl
      | some c' => rw [Option.map_some, Option.map_some, hparent n c' hmem hc']
    · have hmem : n ∉ done ++ [name] := by simp [hdone, Ne.symm hn]
      rw [if_neg hdone, if_neg hmem]

theorem Ordered.laidOutUpTo_foldl (h : t.Ordered) {now : ClassTable} {done rest : List String}
    (horder : t.order = done ++ rest) (hnow : t.LaidOutUpTo now done) :
    t.LaidOutUpTo (rest.foldl layOutClass now) t.order := by
  induction rest generalizing now done with
  | nil =>
    rw [List.append_nil] at horder
    rwa [horder]
  | cons name rest ih =>
    exact ih (by rw [List.append_assoc]; exact horder) (h.laidOutUpTo_step horder hnow)

theorem Ordered.get?_layOut (h : t.Ordered) {name : String} {c : ClassInfo}
    (hc : t.layOut.get? name = some c) :
    ∃ c₀, t.get? name = some c₀ ∧ c = c₀.layOut (t.layOut.parentOf? c) := by
  have hloop : t.LaidOutUpTo t.layOut t.order :=
    h.laidOutUpTo_foldl (List.nil_append _).symm fun _ => (if_neg List.not_mem_nil).symm
  rw [hloop name] at hc
  by_cases hmem : name ∈ t.order
  · rw [if_pos hmem] at hc
    obtain ⟨c₀, hc₀, rfl⟩ := Option.map_eq_some_iff.1 hc
    exact ⟨c₀, hc₀, rfl⟩
  · rw [if_neg hmem] at hc
    exact absurd (h.isSome_get?_iff.1 (by rw [hc]; rfl)) hmem

/-! ## Tables of accepted programs -/

/-- Every class is laid out from its parent, and from cursors at zero. -/
structure LaidOut (t : ClassTable) : Prop where
  ordered : t.Ordered
  distinct : t.Distinct
  layout : ∀ name c, t.get? name = some c →
    ∃ c₀ : ClassInfo, c₀.fieldCursor = 0 ∧ c₀.methodCursor = 0 ∧ c = c₀.layOut (t.parentOf? c)

end ClassTable

theorem Program.DeclaredIn.laidOut {p : Program} {t : ClassTable} (h : p.DeclaredIn t)
    (hdistinct : t.Distinct) (marks : Marks) :
    (t.mark marks).layOut.LaidOut ∧
      ∀ name c, (t.mark marks).layOut.get? name = some c → ∃ d ∈ p.declared, c.plain = d.plain := by
  have hmark := ClassTable.plain_mark marks t
  have hplain := (ClassTable.plain_layOut (t.mark marks)).trans hmark
  have hdeclared : ∀ name c, t.get? name = some c →
      c ∈ p.declared ∧ c.fieldCursor = 0 ∧ c.methodCursor = 0 := by
    intro name c hc
    rcases h.eq_declared hc with rfl | ⟨d, hd, -, rfl⟩
    · exact ⟨List.mem_cons_self, rfl, rfl⟩
    · exact ⟨List.mem_cons_of_mem _ (List.mem_map_of_mem hd), rfl, rfl⟩
  have hlayout : ∀ name c, (t.mark marks).layOut.get? name = some c →
      ∃ d, t.get? name = some d ∧
        c = (d.mark marks).layOut ((t.mark marks).layOut.parentOf? c) := by
    intro name c hc
    obtain ⟨c₀, hc₀, heq⟩ := (h.ordered.congr hmark).get?_layOut hc
    rw [ClassTable.get?_mark] at hc₀
    obtain ⟨d, hd, rfl⟩ := Option.map_eq_some_iff.1 hc₀
    exact ⟨d, hd, heq⟩
  refine ⟨⟨h.ordered.congr hplain, hdistinct.congr hplain, fun name c hc => ?_⟩, fun name c hc => ?_⟩
  · obtain ⟨d, hd, heq⟩ := hlayout name c hc
    obtain ⟨-, hfield, hmethod⟩ := hdeclared name d hd
    exact ⟨d.mark marks, hfield, hmethod, heq⟩
  · obtain ⟨d, hd, heq⟩ := hlayout name c hc
    refine ⟨d, (hdeclared name d hd).1, ?_⟩
    rw [heq, ClassInfo.plain_layOut, ClassInfo.plain_mark]

theorem Program.laidOut_analyze {p : Program} {t : ClassTable} (h : p.analyze.outcome = .ok t) :
    t.LaidOut ∧ ∀ name c, t.get? name = some c → ∃ d ∈ p.declared, c.plain = d.plain := by
  rw [Program.outcome_analyze] at h
  obtain ⟨t₀, h₀, hrest⟩ := Outcome.bind_eq_ok.1 h
  obtain ⟨t₁, h₁, hlast⟩ := Outcome.bind_eq_ok.1 hrest
  obtain ⟨t₂, h₂, hresult⟩ := Outcome.bind_eq_ok.1 hlast
  obtain rfl := Outcome.pure_eq_ok.1 hresult
  have hdistinct := Program.distinct_declareMembers h₀ h₁
  rw [ClassTable.outcome_check] at h₂
  obtain rfl := (hdistinct.blind_checkBodies p.bodies).eq_mark h₂
  exact (Program.declaredIn_declareMembers h₀ h₁).laidOut hdistinct _

end ClassCheck
