/-!
# Logs

A step of the analysis writes a log, and it may stop at an error. What it wrote before it stopped is
kept.
-/

namespace ClassCheck

inductive LogLevel where
  | error
  | warn
  | info
  | debug
  | trace
  deriving DecidableEq

/-- The more detailed a level, the higher its rank. -/
def LogLevel.rank : LogLevel → Nat
  | .error => 1
  | .warn => 2
  | .info => 3
  | .debug => 4
  | .trace => 5

/-- The steps that write to the log. -/
inductive Step where
  | scan
  | declareClasses
  | declareMembers
  | resolve
  | check
  | layOut
  | analyze
  | compile
  deriving DecidableEq

/-- How a step is named in the log. -/
def Step.path : Step → String
  | .scan => "minijava::lexer::scanner"
  | .declareClasses => "minijava::semantic::collect"
  | .declareMembers => "minijava::semantic::members"
  | .resolve => "minijava::semantic::resolve"
  | .check => "minijava::semantic::type_checker"
  | .layOut => "minijava::semantic::layout"
  | .analyze => "minijava::semantic"
  | .compile => "minijava::driver"

structure LogRecord where
  level : LogLevel
  step : Step
  message : String
  deriving DecidableEq

/-- What goes to the log: a record, or a listing that the user asked for. -/
inductive LogEntry where
  | record (r : LogRecord)
  | listing (title : String) (lines : List String)
  deriving DecidableEq

/-- The record in a log entry, unless it is more detailed than `limit`. -/
def LogEntry.record? (limit : LogLevel) : LogEntry → Option LogRecord
  | .record r => if r.level.rank ≤ limit.rank then some r else none
  | .listing _ _ => none

/-- What a step wrote, and how it came out. -/
structure Logged (ε α : Type) where
  entries : List LogEntry
  outcome : Except ε α

namespace Logged

variable {ε α β : Type}

protected def pure (a : α) : Logged ε α := ⟨[], .ok a⟩

/-- The second step is taken only if the first comes out well. -/
protected def bind (x : Logged ε α) (f : α → Logged ε β) : Logged ε β :=
  match x.outcome with
  | .ok a =>
    let y := f a
    ⟨x.entries ++ y.entries, y.outcome⟩
  | .error e => ⟨x.entries, .error e⟩

instance : Monad (Logged ε) where
  pure := Logged.pure
  bind := Logged.bind

def write (entries : List LogEntry) : Logged ε Unit := ⟨entries, .ok ()⟩

def record (level : LogLevel) (step : Step) (message : String) : Logged ε Unit :=
  write [.record ⟨level, step, message⟩]

def fail (e : ε) : Logged ε α := ⟨[], .error e⟩

/-- A step that writes nothing. -/
def silent (outcome : Except ε α) : Logged ε α := ⟨[], outcome⟩

/-- Writes one more entry if the step stops at an error. -/
def onError (x : Logged ε α) (entry : ε → LogEntry) : Logged ε α :=
  match x.outcome with
  | .ok _ => x
  | .error e => ⟨x.entries ++ [entry e], .error e⟩

/-- Says the error in other words. -/
def mapError {δ : Type} (f : ε → δ) (x : Logged ε α) : Logged δ α :=
  ⟨x.entries, x.outcome.mapError f⟩

/-! ## The outcome does not depend on the log -/

@[simp] theorem outcome_pure (a : α) : (pure a : Logged ε α).outcome = .ok a := rfl

@[simp] theorem outcome_bind (x : Logged ε α) (f : α → Logged ε β) :
    (x >>= f).outcome = x.outcome >>= fun a => (f a).outcome := by
  change (Logged.bind x f).outcome = Except.bind x.outcome fun a => (f a).outcome
  unfold Logged.bind Except.bind
  cases x.outcome <;> rfl

@[simp] theorem outcome_write (entries : List LogEntry) :
    (write entries : Logged ε Unit).outcome = .ok () := rfl

@[simp] theorem outcome_record (level : LogLevel) (step : Step) (message : String) :
    (record level step message : Logged ε Unit).outcome = .ok () := rfl

@[simp] theorem outcome_onError (x : Logged ε α) (entry : ε → LogEntry) :
    (x.onError entry).outcome = x.outcome := by
  unfold onError
  split
  · rfl
  · next h => exact h.symm

@[simp] theorem outcome_mapError {δ : Type} (f : ε → δ) (x : Logged ε α) :
    (x.mapError f).outcome = x.outcome.mapError f := rfl

end Logged

end ClassCheck
