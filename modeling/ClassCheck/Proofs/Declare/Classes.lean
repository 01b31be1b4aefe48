import ClassCheck.Declare.Classes
import ClassCheck.Proofs.ClassTable.Order
import ClassCheck.Proofs.Outcome

/-! # What declaring classes gives -/

namespace ClassCheck

/-- A class that has no members yet. -/
def ClassHeader.declared (h : ClassHeader) : ClassInfo :=
  { name := h.name.name, parent := h.superclass.map (·.name) }

namespace ClassTable

variable {t t' : ClassTable}

theorem headerError?_eq_none {h : ClassHeader} (he : t.headerError? h = none) :
    t.contains h.name.name = false ∧
      ∀ parent, h.declared.parent = some parent → t.contains parent = true := by
  obtain ⟨name, superclass⟩ := h
  unfold headerError? at he
  split at he
  · simp at he
  · next hname =>
    refine ⟨by simpa using hname, ?_⟩
    intro parent hparent
    cases superclass with
    | none => simp [ClassHeader.declared] at hparent
    | some superclass =>
      obtain rfl : superclass.name = parent := by simpa [ClassHeader.declared] using hparent
      by_cases hc : t.contains superclass.name
      · exact hc
      · dsimp only at he
        split at he <;> simp_all

theorem Ordered.declareHeaders {hs : List ClassHeader} (ht : t.Ordered)
    (hok : (t.declareHeaders hs).outcome = .ok t') :
    t'.Ordered ∧ t'.order = t.order ++ hs.map (·.name.name) ∧
      (∀ name ∈ t.order, t'.get? name = t.get? name) ∧
      ∀ h ∈ hs, t'.get? h.name.name = some h.declared := by
  induction hs generalizing t with
  | nil =>
    obtain rfl := Logged.pure_ok.1 hok
    simp [ht]
  | cons h hs ih =>
    unfold ClassTable.declareHeaders at hok
    split at hok
    · exact (Logged.fail_ne_ok hok).elim
    · next he =>
      obtain ⟨hnew, hparent⟩ := headerError?_eq_none he
      have hdeclare : (t.declare h.declared).Ordered := ht.declare hnew hparent
      have hrest : ((t.declare h.declared).declareHeaders hs).outcome = .ok t' :=
        Logged.record_bind_ok.1 hok
      obtain ⟨hordered, horder, hold, hall⟩ := ih hdeclare hrest
      have hget : ∀ name ∈ t.order ++ [h.name.name], t'.get? name = (t.declare h.declared).get? name :=
        hold
      refine ⟨hordered, ?_, ?_, ?_⟩
      · rw [horder, List.map_cons]
        exact List.append_assoc _ _ _
      · intro name hname
        have hne : h.declared.name ≠ name := by
          rintro rfl
          rw [← ht.contains_iff] at hname
          simp [ClassHeader.declared, hnew] at hname
        rw [hget name (List.mem_append_left _ hname), get?_declare, if_neg hne]
      · rw [List.forall_mem_cons]
        refine ⟨?_, hall⟩
        rw [hget _ (List.mem_append_right _ (List.mem_singleton_self _)), get?_declare]
        exact if_pos rfl

end ClassTable

theorem Program.ordered_declareClasses {p : Program} {t : ClassTable}
    (h : p.declareClasses.outcome = .ok t) :
    t.Ordered ∧ t.order = p.headers.map (·.name.name) ∧
      ∀ header ∈ p.headers, t.get? header.name.name = some header.declared := by
  obtain ⟨t', ht, hrest⟩ := Logged.bind_ok.1 h
  rw [Logged.record_bind_ok] at hrest
  obtain rfl := Logged.pure_ok.1 hrest
  obtain ⟨hordered, horder, -, hget⟩ := ClassTable.Ordered.empty.declareHeaders ht
  exact ⟨hordered, horder, hget⟩

end ClassCheck
