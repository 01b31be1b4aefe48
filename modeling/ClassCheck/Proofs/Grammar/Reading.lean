import ClassCheck.Proofs.Grammar.Soundness
import ClassCheck.Proofs.Parser.Refines

/-!
# Reading a whole program

A reader that is not lost reports every error, and no report is ever taken back. So if there is no
report in the end, nothing was skipped, and the program has all the words of the file.
-/

namespace ClassCheck

def Program.Grouped (p : Program) : Prop := ∀ e ∈ p.exprs, e.TopGrouped

namespace Reader

variable {α : Type}

theorem ofTokens_append_cons {ts : List Token} {stop : Token} (hts : ∀ t ∈ ts, t.kind ≠ .endOfFile)
    (hstop : stop.kind = .endOfFile) (beyond : List Token) :
    ofTokens (ts ++ stop :: beyond) = { rest := ts, stop } := by
  have hrest : (ts ++ stop :: beyond).takeWhile (·.kind != .endOfFile) = ts := by
    rw [List.takeWhile_append_of_pos (by simpa using hts)]
    simp [hstop]
  have hfind : (ts ++ stop :: beyond).find? (·.kind == .endOfFile) = some stop := by
    rw [List.find?_append, List.find?_eq_none.2 (by simpa using hts)]
    simp [hstop]
  rw [ofTokens, hrest, hfind]

theorem ofTokens_append {ts : List Token} {stop : Token} (hts : ∀ t ∈ ts, t.kind ≠ .endOfFile)
    (hstop : stop.kind = .endOfFile) : ofTokens (ts ++ [stop]) = { rest := ts, stop } :=
  ofTokens_append_cons hts hstop []

/-! ## Reports stay -/

theorem errors_note (r : Reader) (s : Stop) : r.errors <+: (r.note s).errors := by
  unfold note
  split
  · exact List.prefix_append _ _
  · split
    · exact List.prefix_refl _
    · exact List.prefix_append _ _

theorem errors_note_ne_nil {r : Reader} (h : r.lost = false) (s : Stop) :
    (r.note s).errors ≠ [] := by
  unfold note
  split
  · simp
  · simp [h]

theorem errors_read (r : Reader) (p : Parser α) : r.errors <+: (r.read p).2.errors := by
  unfold read
  split
  · exact List.prefix_refl _
  · exact errors_note _ _

theorem errors_readClass (r : Reader) : r.errors <+: r.readClass.2.errors := by
  have h := errors_read r ClassDecl.parse
  rw [readClass_eq_attempt]
  unfold attempt
  dsimp only
  split
  · exact h
  · exact h

theorem errors_readClassesWithin (bound : Nat) (r : Reader) :
    r.errors <+: (readClassesWithin bound r).2.errors := by
  induction bound generalizing r with
  | zero => exact List.prefix_refl _
  | succ bound ih =>
    rw [readClassesWithin]
    split
    · exact List.prefix_refl _
    · exact (errors_readClass r).trans (ih r.readClass.2)

/-! ## Without a report nothing is skipped -/

theorem readClass_of_ok {r : Reader} {c : ClassDecl} {rest : List Token}
    (h : ClassDecl.parse r.rest = .ok (c, rest)) : r.readClass = (some c, { r with rest }) := by
  rw [readClass_eq_attempt, attempt_of_ok h]

theorem readClass_of_error {r : Reader} {s : Stop} (h : ClassDecl.parse r.rest = .error s) :
    r.readClass = (none, (r.note s).recover) := by
  rw [readClass_eq_attempt, attempt_of_error h]

theorem readProgram_of_ok {r : Reader} {main : MainClass} {rest : List Token}
    (h : MainClass.parse r.rest = .ok (main, rest)) :
    r.readProgram = (some { main, classes := (readClasses { r with rest }).1 }, (readClasses { r with rest }).2) := by
  rw [readProgram_eq, attempt_of_ok h, Option.map_some]

theorem readProgram_of_error {r : Reader} {s : Stop} (h : MainClass.parse r.rest = .error s) :
    r.readProgram = (none, (r.note s).recover.readClasses.2) := by
  rw [readProgram_eq, attempt_of_error h, Option.map_none]

/-- A report on this class would still be there after all the others. -/
theorem parse_ok_of_errors_nil {bound : Nat} {r : Reader} (hlost : r.lost = false)
    (he : (readClassesWithin bound r.readClass.2).2.errors = []) :
    ∃ c rest, ClassDecl.parse r.rest = .ok (c, rest) := by
  cases hp : ClassDecl.parse r.rest with
  | ok x => exact ⟨x.1, x.2, rfl⟩
  | error s =>
    rw [readClass_of_error hp] at he
    have hprefix := errors_readClassesWithin bound (r.note s).recover
    rw [he, List.prefix_nil] at hprefix
    exact (errors_note_ne_nil hlost s hprefix).elim

theorem says_readClassesWithin (bound : Nat) {r : Reader} (hb : r.rest.length ≤ bound)
    (hlost : r.lost = false) (he : (readClassesWithin bound r).2.errors = []) :
    Says r.rest ((readClassesWithin bound r).1.flatMap ClassDecl.words) ∧
      (∀ c ∈ (readClassesWithin bound r).1, c.Grouped) ∧ (readClassesWithin bound r).2.rest = [] := by
  induction bound generalizing r with
  | zero =>
    have hrest : r.rest = [] := List.eq_nil_of_length_eq_zero (Nat.le_zero.1 hb)
    simp [readClassesWithin, hrest, Says.nil_iff]
  | succ bound ih =>
    rw [readClassesWithin] at he ⊢
    split at he
    · next hrest =>
      rw [List.isEmpty_iff] at hrest
      simp [hrest, Says.nil_iff]
    · next hrest =>
      rw [if_neg hrest]
      obtain ⟨c, rest, hp⟩ := parse_ok_of_errors_nil hlost he
      rw [readClass_of_ok hp] at he ⊢
      obtain ⟨used, hused, hsay, hg⟩ := ClassDecl.reads_parse hp
      have hlen : 0 < used.length := by
        rw [hsay.length_eq]
        simp [ClassDecl.words]
      obtain ⟨hall, hgs, hnil⟩ := ih (r := { r with rest }) (by
        have := congrArg List.length hused
        rw [List.length_append] at this
        simp only
        omega) hlost he
      refine ⟨?_, List.forall_mem_cons.2 ⟨hg, hgs⟩, hnil⟩
      rw [hused]
      exact hsay.append hall

theorem says_readProgram {r r' : Reader} {p : Program} (hlost : r.lost = false)
    (h : r.readProgram = (some p, r')) (he : r'.errors = []) :
    Says r.rest p.words ∧ p.Grouped ∧ r'.rest = [] := by
  cases hp : MainClass.parse r.rest with
  | error s =>
    rw [readProgram_of_error hp] at h
    cases h
  | ok x =>
    obtain ⟨main, rest⟩ := x
    rw [readProgram_of_ok hp] at h
    cases h
    obtain ⟨used, hused, hsay, hg⟩ := MainClass.reads_parse hp
    obtain ⟨hall, hgs, hnil⟩ := says_readClassesWithin rest.length (r := { r with rest })
      (Nat.le_refl _) hlost he
    refine ⟨?_, List.forall_mem_append.2 ⟨hg, List.forall_mem_flatMap.2 hgs⟩, hnil⟩
    rw [hused]
    exact hsay.append hall

end Reader

end ClassCheck
