import ClassCheck.Grammar.Recovery
import ClassCheck.Proofs.Grammar.Steps
import ClassCheck.Proofs.Parser.Decl

/-!
# Routines do what parsers say

A routine goes through the tokens as a parser does. Where the parser stops, the routine has reported that and refuses;
where the parser does not stop, nothing has been reported. This is shown for each routine, from the routines that it is
made of. In particular no routine refuses without a report, and none reports anything if it does not refuse.
-/

namespace ClassCheck

/-! ## A reader at a stop -/

namespace Reader

variable {α : Type} {p q : Parser α}

/-- The token at which a parser stopped. -/
def found (r : Reader) (s : Stop) : Token :=
  match s.expected with
  | .smallNumber literal => literal
  | _ => s.rest.headD r.stop

/-- Takes note of why a parser stopped, and goes on from there. -/
def note (r : Reader) (s : Stop) : Reader :=
  match s.expected with
  | .smallNumber _ => { r with rest := s.rest, errors := r.errors ++ [⟨s.expected, r.found s⟩] }
  | _ =>
    if r.lost then { r with rest := s.rest }
    else { r with rest := s.rest, lost := true, errors := r.errors ++ [⟨s.expected, r.found s⟩] }

/-- Runs a parser from where the reader is. -/
def read (r : Reader) (parser : Parser α) : Option α × Reader :=
  match parser r.rest with
  | .ok (a, rest) => (some a, { r with rest })
  | .error s => (none, r.note s)

theorem read_of_ok {r : Reader} {a : α} {rest : List Token} (h : p r.rest = .ok (a, rest)) :
    r.read p = (some a, { r with rest }) := by
  rw [Reader.read, h]

theorem read_of_error {r : Reader} {s : Stop} (h : p r.rest = .error s) : r.read p = (none, r.note s) := by
  rw [Reader.read, h]

theorem note_setRest (r : Reader) (rest : List Token) (s : Stop) : ({ r with rest } : Reader).note s = r.note s := by
  obtain ⟨expected, after⟩ := s
  cases expected <;> rfl

theorem rest_note (r : Reader) (s : Stop) : (r.note s).rest = s.rest := by
  unfold note
  split
  · rfl
  · split <;> rfl

theorem stop_note (r : Reader) (s : Stop) : (r.note s).stop = r.stop := by
  unfold note
  split
  · rfl
  · split <;> rfl

theorem read_setRest {r : Reader} {rest : List Token} (h : p r.rest = q rest) :
    r.read p = ({ r with rest } : Reader).read q := by
  cases hq : q rest with
  | ok x => rw [read_of_ok (h.trans hq), read_of_ok (r := { r with rest }) hq]
  | error s =>
    rw [read_of_error (h.trans hq), read_of_error (r := { r with rest }) hq]
    exact Prod.ext rfl (note_setRest r rest s).symm

end Reader

/-! ## One after the other -/

/-- What the routine does is to run the parser. -/
def Refines {α : Type} (x : Routine α) (p : Parser α) : Prop := ∀ r : Reader, x r = r.read p

section

variable {α β : Type} {x : Routine α} {p : Parser α}

theorem Routine.bind_apply (x : Routine α) (f : α → Routine β) (r : Reader) :
    (x >>= f) r = match x r with
      | (some a, r') => f a r'
      | (none, r') => (none, r') := by
  simp only [bind, OptionT.bind, OptionT.mk, StateT.bind]
  obtain ⟨_ | a, r'⟩ := x r <;> rfl

theorem Routine.bind_of_some {f : α → Routine β} {r r' : Reader} {a : α} (h : x r = (some a, r')) :
    (x >>= f) r = f a r' := by
  rw [bind_apply, h]

theorem Routine.bind_of_none {f : α → Routine β} {r r' : Reader} (h : x r = (none, r')) :
    (x >>= f) r = (none, r') := by
  rw [bind_apply, h]

theorem Reader.bind_read {f : α → Routine β} {g : α → Parser β} {r : Reader} (h : x r = r.read p)
    (hf : ∀ a, Refines (f a) (g a)) : (x >>= f) r = r.read (p >>= g) := by
  cases hp : p r.rest with
  | error s =>
    rw [Routine.bind_of_none (h.trans (read_of_error hp))]
    exact (read_of_error (Parser.bind_of_error hp g)).symm
  | ok y =>
    obtain ⟨a, rest⟩ := y
    rw [Routine.bind_of_some (h.trans (read_of_ok hp)), hf a]
    exact (read_setRest (Parser.bind_of_ok hp g)).symm

theorem Refines.bind {f : α → Routine β} {g : α → Parser β} (h : Refines x p) (hf : ∀ a, Refines (f a) (g a)) :
    Refines (x >>= f) (p >>= g) :=
  fun r => Reader.bind_read (h r) hf

theorem refines_pure (a : α) : Refines (pure a) (pure a) := fun _ => rfl

theorem Routine.get_bind (f : Reader → Routine α) (r : Reader) : (get >>= f) r = f r r := rfl

theorem Routine.peek_bind (f : Option Token → Routine α) (r : Reader) : (peek >>= f) r = f r.rest.head? r := rfl

theorem Refines.of_eq {q : Parser α} {r : Reader} (h : Refines x q) (hp : p r.rest = q r.rest) : x r = r.read p := by
  rw [h, Reader.read, Reader.read, hp]

end

/-! ## Single tokens -/

section

variable {α β : Type} {x : Routine α} {p q : Parser α}

/-- To report that something else is expected, and then to refuse, is what a stop is noted as. -/
theorem refines_refuse (expected : Expected) (h : ∀ literal, expected ≠ .smallNumber literal) :
    Refines (do Routine.report expected; failure : Routine α) (Parser.fail expected) := by
  intro r
  have hnote : r.note ⟨expected, r.rest⟩ = r.complain expected := by
    cases expected with
    | smallNumber literal => exact absurd rfl (h literal)
    | _ => rfl
  exact Prod.ext rfl hnote.symm

theorem refines_refuseNumber (literal : Token) :
    Refines (do Routine.reportNumber literal; failure : Routine α) (Parser.fail (.smallNumber literal)) :=
  fun _ => rfl

theorem refines_peek_bind {f : Option Token → Routine α} (hnil : ∀ r : Reader, r.rest = [] → f none r = r.read p)
    (hcons : ∀ t ts, ∀ r : Reader, r.rest = t :: ts → f (some t) r = r.read p) : Refines (Routine.peek >>= f) p := by
  intro r
  rw [Routine.peek_bind]
  cases hrest : r.rest with
  | nil => exact hnil r hrest
  | cons t ts => exact hcons t ts r hrest

theorem Refines.advance (h : Refines x q) {r : Reader} {t : Token} {ts : List Token} (hrest : r.rest = t :: ts)
    (hp : p (t :: ts) = q ts) : (do Routine.advance; x) r = r.read p := by
  change x { r with rest := r.rest.tail } = _
  rw [h]
  exact (Reader.read_setRest (by rw [hrest]; exact hp)).symm

theorem refines_takeIf (f : Token → Option α) : Refines (Routine.takeIf? f) (Parser.takeIf? f) := by
  apply refines_peek_bind
  · intro r hrest
    exact (refines_pure none).of_eq (by rw [hrest]; rfl)
  · intro t ts r hrest
    cases hf : f t with
    | none =>
      simp only [Option.bind_some, hf]
      exact (refines_pure none).of_eq (by rw [hrest, Parser.takeIf?, hf]; rfl)
    | some a =>
      simp only [Option.bind_some, hf]
      exact (refines_pure (some a)).advance hrest (by rw [Parser.takeIf?, hf]; rfl)

theorem refines_accept (kind : TokenKind) : Refines (Routine.accept kind) (Parser.accept kind) := refines_takeIf _

theorem refines_expect (kind : TokenKind) (what : String) :
    Refines (Routine.expect kind what) (Parser.expect kind what) := by
  apply (refines_accept kind).bind
  rintro (_ | t)
  · exact refines_refuse _ nofun
  · exact refines_pure t

theorem refines_expectIdent (what : String) : Refines (Routine.expectIdent what) (Parser.expectIdent what) := by
  apply (refines_accept .identifier).bind
  rintro (_ | t)
  · exact refines_refuse _ nofun
  · exact refines_pure _

/-! ## Loops -/

variable {item : Routine (Option α)} {item' : Parser (Option α)}

/-- Items may be put together one by one, or when all of them are there. -/
theorem Refines.foldWithin (h : Refines item item') (f : β → α → β) (bound : Nat) (b : β) :
    Refines (Routine.foldWithin item f bound b) (do return (← Parser.manyWithin item' bound).foldl f b) := by
  induction bound generalizing b with
  | zero => exact refines_pure b
  | succ bound ih =>
    rw [Parser.manyWithin, bind_assoc]
    apply h.bind
    rintro (_ | a)
    · exact refines_pure b
    · rw [bind_assoc]
      exact ih (f b a)

theorem Refines.fold (h : Refines item item') (f : β → α → β) (b : β) :
    Refines (Routine.fold item f b) (Parser.foldMany item' f b) :=
  fun r => (h.foldWithin f r.rest.length b).of_eq rfl

theorem foldl_push (done items : List α) : items.foldl Routine.push done = done ++ items := by
  induction items generalizing done with
  | nil => rw [List.foldl_nil, List.append_nil]
  | cons a items ih => rw [List.foldl_cons, ih, Routine.push, List.append_assoc, List.singleton_append]

theorem Refines.fold_push (h : Refines item item') (done : List α) :
    Refines (Routine.fold item Routine.push done) (do return done ++ (← Parser.many item')) := by
  have hfold := h.fold Routine.push done
  simp only [Parser.foldMany, foldl_push] at hfold
  exact hfold

theorem Refines.itemWhile (h : Refines x p) (more : List Token → Bool) :
    Refines (Routine.itemWhile more x) (Parser.itemWhile more p) := by
  intro r
  rw [Routine.itemWhile, Routine.get_bind]
  cases hmore : more r.rest with
  | true =>
    apply (h.bind fun a => refines_pure (some a)).of_eq
    rw [Parser.itemWhile, hmore, if_pos rfl, map_eq_pure_bind]
  | false =>
    apply (refines_pure none).of_eq
    rw [Parser.itemWhile, hmore]
    rfl

theorem Refines.manyWhile (h : Refines x p) (more : List Token → Bool) :
    Refines (Routine.manyWhile more x) (Parser.manyWhile more p) := by
  have hfold := (h.itemWhile more).fold_push []
  simp only [List.nil_append, bind_pure] at hfold
  exact hfold

theorem Refines.itemAfterComma (h : Refines x p) :
    Refines (Routine.itemAfterComma x) (Parser.itemAfterComma p) := by
  apply (refines_accept .comma).bind
  rintro (_ | t)
  · exact refines_pure none
  · exact h.bind fun a => refines_pure (some a)

theorem Refines.commaSeparated (h : Refines x p) :
    Refines (Routine.commaSeparated x) (Parser.commaSeparated p) := by
  rw [Parser.commaSeparated_eq]
  exact h.bind fun first => h.itemAfterComma.fold_push [first]

end

/-! ## Expressions -/

namespace Routine

section

variable {nested : Routine Expr} {nested' : Parser Expr}

theorem refines_allocation (h : Refines nested nested') (start : Span) :
    Refines (allocation nested start) (Expr.allocation nested' start) := by
  apply (refines_accept _).bind
  rintro (_ | t)
  · apply (refines_expectIdent _).bind
    intro className
    apply (refines_expect _ _).bind
    intro _
    apply (refines_expect _ _).bind
    exact fun close => refines_pure _
  · apply (refines_expect _ _).bind
    intro _
    apply h.bind
    intro size
    apply (refines_expect _ _).bind
    exact fun close => refines_pure _

theorem refines_parenthesized (h : Refines nested nested') (start : Span) :
    Refines (parenthesized nested start) (Expr.parenthesized nested' start) := by
  apply h.bind
  intro inner
  apply (refines_expect _ _).bind
  exact fun close => refines_pure _

theorem refines_number (t : Token) :
    Refines (number t) fun ts =>
      match Literal.read? t.lexeme with
      | some value => .ok (.int t.span value, ts)
      | none => Parser.fail (.smallNumber t) ts := by
  unfold number
  cases Literal.read? t.lexeme with
  | some value => exact refines_pure _
  | none => exact refines_refuseNumber t

theorem refines_primary (h : Refines nested nested') : Refines (primary nested) (Expr.primary nested') := by
  have hrefuse := refines_refuse (α := Expr) .expression nofun
  apply refines_peek_bind
  · intro r hrest
    exact hrefuse.of_eq (by rw [hrest]; rfl)
  · intro t ts r hrest
    dsimp only
    cases hkind : t.kind with
    | number =>
      apply (refines_number t).advance hrest
      cases hread : Literal.read? t.lexeme with
      | some value => simp only [Expr.primary, hkind, hread]
      | none => simp only [Expr.primary, hkind, hread]
    | trueWord | falseWord | identifier | thisWord =>
      exact (refines_pure _).advance hrest (by rw [Expr.primary, hkind]; rfl)
    | newWord => exact (refines_allocation h t.span).advance hrest (by rw [Expr.primary, hkind])
    | leftParen => exact (refines_parenthesized h t.span).advance hrest (by rw [Expr.primary, hkind])
    | _ => exact hrefuse.of_eq (by rw [hrest, Expr.primary, hkind])

theorem refines_arguments (h : Refines nested nested') : Refines (arguments nested) (Expr.arguments nested') := by
  intro r
  rw [arguments, get_bind]
  split
  · next hahead => exact (refines_pure []).of_eq (by rw [Expr.arguments, if_pos hahead]; rfl)
  · next hahead => exact h.commaSeparated.of_eq (by rw [Expr.arguments, if_neg hahead])

theorem refines_suffix (h : Refines nested nested') : Refines (suffix? nested) (Expr.suffix? nested') := by
  apply (refines_accept _).bind
  rintro (_ | o)
  · apply (refines_accept _).bind
    rintro (_ | d)
    · exact refines_pure none
    · apply (refines_accept _).bind
      rintro (_ | word)
      · apply (refines_expectIdent _).bind
        intro method
        apply (refines_expect _ _).bind
        intro _
        apply (refines_arguments h).bind
        intro args
        apply (refines_expect _ _).bind
        exact fun close => refines_pure _
      · exact refines_pure _
  · apply h.bind
    intro position
    apply (refines_expect _ _).bind
    exact fun close => refines_pure _

theorem refines_access (h : Refines nested nested') : Refines (access nested) (Expr.access nested') :=
  (refines_primary h).bind fun operand => (refines_suffix h).fold Expr.attach operand

theorem negationWithin_eq_read (h : Refines nested nested') {ts : List Token} {r : Reader} (hrest : r.rest = ts) :
    negationWithin nested ts.length r = r.read (Expr.negation nested') := by
  induction ts generalizing r with
  | nil => exact (refines_access h).of_eq (by rw [hrest]; rfl)
  | cons t ts ih =>
    rw [List.length_cons, negationWithin]
    have haccept := refines_accept .bang r
    by_cases ht : t.kind = .bang
    · have htaken : Parser.accept .bang r.rest = .ok (some t, ts) := by rw [hrest, Parser.accept_cons ht]
      rw [bind_of_some (haccept.trans (Reader.read_of_ok htaken)),
        Reader.read_setRest (hrest ▸ Expr.negation_cons ht)]
      exact Reader.bind_read (ih rfl) fun operand => refines_pure _
    · have hnot : ahead .bang r.rest = false := by simpa [hrest, ahead] using ht
      rw [bind_of_some (haccept.trans (Reader.read_of_ok (Parser.accept_of_not_ahead hnot)))]
      exact (refines_access h).of_eq (Expr.negation_of_not_ahead hnot)

theorem refines_negation (h : Refines nested nested') : Refines (negation nested) (Expr.negation nested') := by
  intro r
  rw [negation, get_bind]
  exact negationWithin_eq_read h rfl

section

variable {operand : Routine Expr} {operand' : Parser Expr} (h : Refines operand operand')
  (op? : TokenKind → Option BinaryOp)
include h

theorem refines_operation : Refines (operation? op? operand) (Expr.operation? op? operand') := by
  apply (refines_takeIf _).bind
  rintro (_ | op)
  · exact refines_pure none
  · exact h.bind fun right => refines_pure _

theorem refines_chain : Refines (chain op? operand) (Expr.chain op? operand') :=
  h.bind fun first => (refines_operation h op?).fold Expr.joinNext first

end

theorem refines_expressionWithin (depth : Nat) : Refines (expressionWithin depth) (Expr.parseWithin depth) := by
  induction depth with
  | zero => exact refines_refuse .expression nofun
  | succ depth ih =>
    exact refines_chain (refines_chain (refines_chain (refines_chain (refines_negation ih) _) _) _) _

theorem refines_expression : Refines expression Expr.parse := by
  intro r
  rw [expression, get_bind]
  exact (refines_expressionWithin (r.rest.length + 1)).of_eq rfl

end

/-! ## Statements -/

section

variable {nested : Routine Stmt} {nested' : Parser Stmt}

theorem refines_sequence (h : Refines nested nested') (ends : List Token → Bool) :
    Refines (sequence nested ends) (Stmt.sequence nested' ends) :=
  h.manyWhile _

theorem refines_blockBody (h : Refines nested nested') : Refines (blockBody nested) (Stmt.blockBody nested') := by
  apply (refines_sequence h _).bind
  intro body
  apply (refines_expect _ _).bind
  exact fun _ => refines_pure _

theorem refines_assignment (target : Ident) : Refines (assignment target) (Stmt.assignment target) := by
  apply (refines_accept _).bind
  rintro (_ | o)
  · apply (refines_expect _ _).bind
    intro _
    apply refines_expression.bind
    intro value
    apply (refines_expect _ _).bind
    exact fun _ => refines_pure _
  · apply refines_expression.bind
    intro position
    apply (refines_expect _ _).bind
    intro _
    apply (refines_expect _ _).bind
    intro _
    apply refines_expression.bind
    intro value
    apply (refines_expect _ _).bind
    exact fun _ => refines_pure _

theorem refines_conditional (h : Refines nested nested') :
    Refines (conditional nested) (Stmt.conditional nested') := by
  apply (refines_expect _ _).bind
  intro _
  apply refines_expression.bind
  intro condition
  apply (refines_expect _ _).bind
  intro _
  apply h.bind
  intro thenBranch
  apply (refines_expect _ _).bind
  intro _
  exact h.bind fun elseBranch => refines_pure _

theorem refines_whileLoop (h : Refines nested nested') : Refines (whileLoop nested) (Stmt.whileLoop nested') := by
  apply (refines_expect _ _).bind
  intro _
  apply refines_expression.bind
  intro condition
  apply (refines_expect _ _).bind
  intro _
  exact h.bind fun body => refines_pure _

theorem refines_printStmt : Refines printStmt Stmt.printStmt := by
  apply (refines_expect _ _).bind
  intro _
  apply refines_expression.bind
  intro value
  apply (refines_expect _ _).bind
  intro _
  apply (refines_expect _ _).bind
  exact fun _ => refines_pure _

theorem refines_statementFrom (h : Refines nested nested') : Refines (statementFrom nested) (Stmt.ofFirst nested') := by
  have hrefuse := refines_refuse (α := Stmt) .statement nofun
  apply refines_peek_bind
  · intro r hrest
    exact hrefuse.of_eq (by rw [hrest]; rfl)
  · intro t ts r hrest
    dsimp only
    cases hkind : t.kind with
    | leftBrace => exact (refines_blockBody h).advance hrest (by rw [Stmt.ofFirst, hkind])
    | ifWord => exact (refines_conditional h).advance hrest (by rw [Stmt.ofFirst, hkind])
    | whileWord => exact (refines_whileLoop h).advance hrest (by rw [Stmt.ofFirst, hkind])
    | print => exact refines_printStmt.advance hrest (by rw [Stmt.ofFirst, hkind])
    | identifier => exact (refines_assignment _).advance hrest (by rw [Stmt.ofFirst, hkind])
    | _ => exact hrefuse.of_eq (by rw [hrest, Stmt.ofFirst, hkind])

theorem refines_statementWithin (depth : Nat) : Refines (statementWithin depth) (Stmt.parseWithin depth) := by
  induction depth with
  | zero => exact refines_refuse .statement nofun
  | succ depth ih => exact refines_statementFrom ih

theorem refines_statement : Refines statement Stmt.parse := by
  intro r
  rw [statement, get_bind]
  exact (refines_statementWithin (r.rest.length + 1)).of_eq rfl

end

/-! ## Declarations -/

theorem refines_typeRef : Refines typeRef TypeRef.parse := by
  have hrefuse := refines_refuse (α := TypeRef) .type nofun
  apply refines_peek_bind
  · intro r hrest
    exact hrefuse.of_eq (by rw [hrest]; rfl)
  · intro t ts r hrest
    dsimp only
    cases hkind : t.kind with
    | int =>
      refine Refines.advance ?_ hrest (by rw [TypeRef.parse, hkind])
      apply (refines_accept _).bind
      rintro (_ | o)
      · exact refines_pure _
      · apply (refines_expect _ _).bind
        exact fun close => refines_pure _
    | boolean | identifier => exact (refines_pure _).advance hrest (by rw [TypeRef.parse, hkind]; rfl)
    | _ => exact hrefuse.of_eq (by rw [hrest, TypeRef.parse, hkind])

theorem refines_varDecl (what : String) : Refines (varDecl what) (VarDecl.parse what) := by
  apply refines_typeRef.bind
  intro type
  apply (refines_expectIdent _).bind
  exact fun name => refines_pure _

theorem refines_endedVarDecl : Refines endedVarDecl VarDecl.parseEnded := by
  apply (refines_varDecl _).bind
  intro decl
  apply (refines_expect _ _).bind
  exact fun _ => refines_pure _

theorem refines_varDecls : Refines varDecls VarDecl.parseAll := refines_endedVarDecl.manyWhile _

theorem refines_params : Refines params VarDecl.parseParams := by
  intro r
  rw [params, get_bind]
  split
  · next hahead => exact (refines_pure []).of_eq (by rw [VarDecl.parseParams, if_pos hahead]; rfl)
  · next hahead => exact (refines_varDecl _).commaSeparated.of_eq (by rw [VarDecl.parseParams, if_neg hahead])

theorem refines_methodDecl : Refines methodDecl MethodDecl.parse := by
  apply (refines_expect _ _).bind
  intro _
  apply refines_typeRef.bind
  intro returnType
  apply (refines_expectIdent _).bind
  intro name
  apply (refines_expect _ _).bind
  intro _
  apply refines_params.bind
  intro params
  apply (refines_expect _ _).bind
  intro _
  apply (refines_expect _ _).bind
  intro _
  apply refines_varDecls.bind
  intro locals
  apply (refines_sequence refines_statement _).bind
  intro body
  apply (refines_expect _ _).bind
  intro _
  apply refines_expression.bind
  intro returned
  apply (refines_expect _ _).bind
  intro _
  apply (refines_expect _ _).bind
  exact fun _ => refines_pure _

theorem refines_superclass : Refines superclass? ClassDecl.superclass? := by
  apply (refines_accept _).bind
  rintro (_ | e)
  · exact refines_pure none
  · exact (refines_expectIdent _).bind fun name => refines_pure _

theorem refines_classDecl : Refines classDecl ClassDecl.parse := by
  apply (refines_expect _ _).bind
  intro _
  apply (refines_expectIdent _).bind
  intro name
  apply refines_superclass.bind
  intro superclass
  apply (refines_expect _ _).bind
  intro _
  apply refines_varDecls.bind
  intro fields
  apply (refines_methodDecl.manyWhile _).bind
  intro methods
  apply (refines_expect _ _).bind
  exact fun _ => refines_pure _

theorem refines_mainClass : Refines mainClass MainClass.parse := by
  iterate 1
    apply (refines_expect _ _).bind
    intro _
  apply (refines_expectIdent _).bind
  intro name
  iterate 9
    apply (refines_expect _ _).bind
    intro _
  apply (refines_expectIdent _).bind
  intro args
  iterate 2
    apply (refines_expect _ _).bind
    intro _
  apply refines_varDecls.bind
  intro locals
  apply (refines_sequence refines_statement _).bind
  intro body
  iterate 2
    apply (refines_expect _ _).bind
    intro _
  exact refines_pure _

end Routine

/-! ## Readers -/

namespace Reader

variable {α : Type} {r : Reader} {p : Parser α}

/-- Runs a parser for a class. If it stops, goes on to the next class. -/
def attempt (r : Reader) (p : Parser α) : Option α × Reader :=
  ((r.read p).1, if (r.read p).1.isSome then (r.read p).2 else (r.read p).2.recover)

theorem attempt_of_ok {a : α} {rest : List Token} (h : p r.rest = .ok (a, rest)) :
    r.attempt p = (some a, { r with rest }) := by
  rw [attempt, read_of_ok h]
  rfl

theorem attempt_of_error {s : Stop} (h : p r.rest = .error s) : r.attempt p = (none, (r.note s).recover) := by
  rw [attempt, read_of_error h]
  rfl

theorem readClass_eq_attempt (r : Reader) : r.readClass = r.attempt ClassDecl.parse := by
  rw [readClass, Routine.refines_classDecl, attempt]

theorem readProgram_eq (r : Reader) :
    r.readProgram =
      ((r.attempt MainClass.parse).1.map fun main =>
        { main, classes := (r.attempt MainClass.parse).2.readClasses.1 },
        (r.attempt MainClass.parse).2.readClasses.2) := by
  rw [readProgram, Routine.refines_mainClass, attempt]

theorem readStatement_eq (r : Reader) : r.readStatement = r.read Stmt.parse := Routine.refines_statement r

theorem readExpression_eq (r : Reader) : r.readExpression = r.read Expr.parse := Routine.refines_expression r

end Reader

end ClassCheck
