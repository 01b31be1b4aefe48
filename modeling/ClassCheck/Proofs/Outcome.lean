import ClassCheck.Log

/-! # Outcomes, step by step -/

namespace ClassCheck

variable {ε α β : Type}

namespace Outcome

theorem bind_eq_ok {x : Except ε α} {f : α → Except ε β} {b : β} :
    (x >>= f) = .ok b ↔ ∃ a, x = .ok a ∧ f a = .ok b := by
  cases x with
  | error e => exact ⟨nofun, fun ⟨_, h, _⟩ => nomatch h⟩
  | ok a => exact ⟨fun h => ⟨a, rfl, h⟩, fun ⟨_, h, hf⟩ => by cases h; exact hf⟩

theorem isOk_iff {x : Except ε α} : x.isOk = true ↔ ∃ a, x = .ok a := by
  cases x with
  | error e => exact ⟨nofun, fun ⟨_, h⟩ => nomatch h⟩
  | ok a => exact ⟨fun _ => ⟨a, rfl⟩, fun _ => rfl⟩

theorem any_toOption_iff {x : Except ε α} {P : α → Bool} :
    x.toOption.any P = true ↔ ∃ a, x = .ok a ∧ P a = true := by
  cases x <;> simp [Except.toOption]

theorem pure_eq_ok {a b : α} : (pure a : Except ε α) = .ok b ↔ a = b :=
  ⟨fun h => Except.ok.inj h, fun h => congrArg Except.ok h⟩

theorem exists_bind_ok {x : Except ε α} {f : α → Except ε β} {a : α} (hx : ∀ a', x = .ok a' → a' = a) :
    (∃ b, (x >>= f) = .ok b) ↔ (∃ a', x = .ok a') ∧ ∃ b, f a = .ok b := by
  constructor
  · rintro ⟨b, hb⟩
    obtain ⟨a', ha', hf⟩ := bind_eq_ok.1 hb
    obtain rfl := hx a' ha'
    exact ⟨⟨_, ha'⟩, b, hf⟩
  · rintro ⟨⟨a', ha'⟩, b, hf⟩
    obtain rfl := hx a' ha'
    exact ⟨b, bind_eq_ok.2 ⟨_, ha', hf⟩⟩

theorem ite_error_eq_ok {p : Prop} [Decidable p] {e : ε} {x : Except ε α} {a : α} :
    (if p then .error e else x) = .ok a ↔ ¬ p ∧ x = .ok a := by
  by_cases hp : p
  · simp [hp]
  · simp [hp]

/-- The error that something came out with, if it did. -/
def error? : Except ε α → Option ε
  | .ok _ => none
  | .error e => some e

theorem error?_eq_none {x : Except ε α} : error? x = none ↔ ∃ a, x = .ok a := by
  cases x <;> simp [error?]

theorem error?_eq_some {x : Except ε α} {e : ε} : error? x = some e ↔ x = .error e := by
  cases x <;> simp [error?]

theorem error?_map (f : α → β) (x : Except ε α) : error? (x.map f) = error? x := by
  cases x <;> rfl

theorem mapError_bind {δ : Type} (f : ε → δ) (x : Except ε α) (k : α → Except ε β) :
    (x >>= k).mapError f = x.mapError f >>= fun a => (k a).mapError f := by
  cases x <;> rfl

theorem agree_of_mapError_eq {δ : Type} {f : ε → δ} {x y : Except ε α} (h : x.mapError f = y.mapError f) :
    (∃ a, x = .ok a ∧ y = .ok a) ∨ ∃ e e', x = .error e ∧ y = .error e' ∧ f e = f e' := by
  cases x with
  | ok a =>
    cases y with
    | ok b =>
      have hab : a = b := Except.ok.inj h
      exact .inl ⟨a, rfl, congrArg Except.ok hab.symm⟩
    | error e => exact nomatch h
  | error e =>
    cases y with
    | ok b => exact nomatch h
    | error e' => exact .inr ⟨e, e', rfl, rfl, Except.error.inj h⟩

/-! ## Ways to fail -/

/-- If the step fails, then with such an error. -/
def FailsWith (P : ε → Prop) (x : Except ε α) : Prop := ∀ e, x = .error e → P e

variable {P : ε → Prop}

theorem failsWith_ok (a : α) : FailsWith P (.ok a : Except ε α) := by
  intro e he
  cases he

theorem failsWith_error {e : ε} (h : P e) : FailsWith P (.error e : Except ε α) := by
  intro e' he
  cases he
  exact h

theorem FailsWith.bind {x : Except ε α} {f : α → Except ε β} (hx : FailsWith P x)
    (hf : ∀ a, x = .ok a → FailsWith P (f a)) : FailsWith P (x >>= f) := by
  cases x with
  | ok a => exact hf a rfl
  | error e => exact failsWith_error (hx e rfl)

theorem FailsWith.bindLogged {x : Logged ε α} {f : α → Logged ε β} (hx : FailsWith P x.outcome)
    (hf : ∀ a, x.outcome = .ok a → FailsWith P (f a).outcome) : FailsWith P (x >>= f).outcome := by
  rw [Logged.outcome_bind]
  exact hx.bind hf

end Outcome

namespace Logged

theorem bind_ok {x : Logged ε α} {f : α → Logged ε β} {b : β} :
    (x >>= f).outcome = .ok b ↔ ∃ a, x.outcome = .ok a ∧ (f a).outcome = .ok b := by
  rw [outcome_bind, Outcome.bind_eq_ok]

theorem record_bind_ok {level : LogLevel} {step : Step} {message : String} {f : Unit → Logged ε β}
    {b : β} : (record level step message >>= f).outcome = .ok b ↔ (f ()).outcome = .ok b := by
  rw [bind_ok, outcome_record]
  exact ⟨fun ⟨_, _, h⟩ => h, fun h => ⟨(), rfl, h⟩⟩

theorem pure_ok {a b : α} : (pure a : Logged ε α).outcome = .ok b ↔ a = b := by
  rw [outcome_pure]
  exact Outcome.pure_eq_ok

theorem fail_ne_ok {e : ε} {a : α} : (fail e : Logged ε α).outcome ≠ .ok a := nofun

/-! Saying errors in other words, step by step. -/

variable {δ : Type} (f : ε → δ)

theorem mapError_record (level : LogLevel) (step : Step) (message : String) :
    (record level step message : Logged ε Unit).mapError f = record level step message := rfl

theorem mapError_silent (outcome : Except ε α) :
    (silent outcome).mapError f = silent (outcome.mapError f) := rfl

theorem mapError_bind (x : Logged ε α) (k : α → Logged ε β) :
    (x >>= k).mapError f = x.mapError f >>= fun a => (k a).mapError f := by
  rcases x with ⟨entries, _ | a⟩
  · rfl
  · rfl

end Logged

end ClassCheck
