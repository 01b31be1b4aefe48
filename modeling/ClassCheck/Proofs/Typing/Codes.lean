import ClassCheck.Proofs.Phases
import ClassCheck.Proofs.Typing.Sites

/-!
# What the code of an error tells of the pass

Errors in declarations have codes of the second family, and errors in statements and expressions are meant to have
codes of the third. But a call with too few or too many arguments shares its cause, and so its code, with a method
that takes more or fewer parameters than the one it overrides. Main statement: this is the only exception.
-/

namespace ClassCheck

namespace SemanticCause

theorem isCodeOf_two_iff (cause : SemanticCause) :
    isCodeOf '2' cause.code = true ↔ cause.isDeclaring = true := by
  cases cause <;> simp [isCodeOf, code, isDeclaring]

theorem isCodeOf_three_iff (cause : SemanticCause) :
    isCodeOf '3' cause.code = true ↔ cause.isDeclaring = false := by
  cases cause <;> simp [isCodeOf, code, isDeclaring]

end SemanticCause

theorem Expr.Miscounts.code_eq {t : ClassTable} {cx : Context} {call : Expr} {cause : SemanticCause}
    (h : call.Miscounts t cx cause) : cause.code = "E210" := by
  cases h
  rfl

theorem Expr.Miscounts.isDeclaring {t : ClassTable} {cx : Context} {call : Expr} {cause : SemanticCause}
    (h : call.Miscounts t cx cause) : cause.isDeclaring = true := by
  cases h
  rfl

namespace Program

variable (p : Program)

/-- The error is about a call in the program, whose arguments are not as many as the parameters of the method that it
finds in the table. -/
def IsMiscount (t : ClassTable) (e : SemanticError) : Prop :=
  ∃ b ∈ p.bodies, ∃ call ∈ b.exprs, call.Miscounts t b.context e.cause ∧ call.span = e.span

theorem allows_declaring : Allows true (·.cause.isDeclaring = true) p.exprs p.names p.typeRefs where
  exprs _ _ _ h := h
  ownNames _ _ _ _ _ h := h
  names _ _ _ h := h
  types _ _ _ h := h

theorem allows_checking (t : ClassTable) :
    Allows false (fun e => e.cause.isDeclaring = false ∨ p.IsMiscount t e) p.exprs p.names p.typeRefs where
  exprs _ _ _ h := .inl h
  ownNames _ _ _ _ _ h := .inl h
  names _ _ _ h := .inl h
  types _ _ _ h := .inl h

/-- Every error of the first two passes has a code of the second family. An error of the check has one of the third
family, unless it is about a call with a wrong number of arguments. -/
theorem codes_of_passes :
    (∀ e, p.declareClasses.outcome = .error e → isCodeOf '2' e.cause.code = true) ∧
    ∀ t, p.declareClasses.outcome = .ok t →
      (∀ e, (p.declareMembers t).outcome = .error e → isCodeOf '2' e.cause.code = true) ∧
      ∀ t', (p.declareMembers t).outcome = .ok t' → ∀ e, (p.check t').outcome = .error e →
        (isCodeOf '3' e.cause.code = true ↔ ¬ p.IsMiscount t' e) ∧
        (p.IsMiscount t' e → e.cause.code = "E210") := by
  simp only [SemanticCause.isCodeOf_two_iff, SemanticCause.isCodeOf_three_iff]
  refine ⟨failsWith_declareClasses p.allows_declaring, fun t ht =>
    ⟨failsWith_declareMembers p.allows_declaring t, fun t' ht' e he => ⟨?_, ?_⟩⟩⟩
  · constructor
    · rintro hchecking ⟨b, -, call, -, hcall, -⟩
      rw [hcall.isDeclaring] at hchecking
      cases hchecking
    · apply (failsWith_check (p.allows_checking t') (distinct_declareMembers ht ht') _ e he).resolve_right
      exact fun b hb call hmem _ hcall => .inr ⟨b, hb, call, hmem, hcall, rfl⟩
  · rintro ⟨b, -, call, -, hcall, -⟩
    exact hcall.code_eq

end Program

/-- Both methods are as they should be, but one of them calls the other with an argument too few. -/
def shortCall : Source where
  file := "A.java"
  text := "class Main \x7b public static void main(String[] a) \x7b \x7d \x7d\n" ++
    "class A \x7b public int f(int a, int b) \x7b return a; \x7d\n" ++
    "public int g() \x7b return this.f(1); \x7d \x7d"

/-- The declarations are accepted, and the check fails with a code of the second family. -/
theorem code_of_shortCall :
    ∃ p t t' e, (shortCall.parse .none).outcome = .ok p ∧ p.declareClasses.outcome = .ok t ∧
      (p.declareMembers t).outcome = .ok t' ∧ (p.check t').outcome = .error e ∧
      e.cause.code = "E210" ∧ isCodeOf '3' e.cause.code = false := by
  have hrun : ((shortCall.parse .none).outcome.toOption.any fun p =>
      p.declareClasses.outcome.toOption.any fun t =>
        (p.declareMembers t).outcome.toOption.any fun t' =>
          (Outcome.error? (p.check t').outcome).any fun e => e.cause.code == "E210") = true := by
    decide +kernel
  obtain ⟨p, hparse, hrun⟩ := Outcome.any_toOption_iff.1 hrun
  obtain ⟨t, hclasses, hrun⟩ := Outcome.any_toOption_iff.1 hrun
  obtain ⟨t', hmembers, hrun⟩ := Outcome.any_toOption_iff.1 hrun
  obtain ⟨e, he, hcode⟩ := (Option.any_eq_true _ _).1 hrun
  have hcode := beq_iff_eq.1 hcode
  refine ⟨p, t, t', e, hparse, hclasses, hmembers, Outcome.error?_eq_some.1 he, hcode, ?_⟩
  rw [hcode]
  decide

end ClassCheck
