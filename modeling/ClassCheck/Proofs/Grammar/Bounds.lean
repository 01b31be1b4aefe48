import ClassCheck.Proofs.Grammar.Soundness
import ClassCheck.Proofs.Parser.Refines

/-!
# No bound is ever met

Nested expressions and statements are read up to a depth, and loops run for a number of rounds. Each nested
reading and each round has fewer tokens before it, so with more depth or rounds than there are tokens the
bound cannot be met. To say so, let anything be done when it is: it makes no difference.
-/

namespace ClassCheck

open ClassCheck.Parser

namespace Routine

variable {α β : Type} {n m : Nat} {x y : Routine α} {p : Parser α} {R : List Token → α → Prop}

/-! ## Loops -/

/-- Like `foldWithin`, but after the last round `cut` takes over. -/
def foldOver (cut : β → Routine β) (item : Routine (Option α)) (f : β → α → β) : Nat → β → Routine β
  | 0, b => cut b
  | bound + 1, b => do
    match ← item with
    | none => return b
    | some a => foldOver cut item f bound (f b a)

/-- A loop over these items ends before it is cut. -/
def Ends (item : Routine (Option α)) : Prop :=
  ∀ {β : Type} (cut : β → Routine β) (f : β → α → β) (b : β) ⦃bound : Nat⦄ ⦃r : Reader⦄, r.rest.length < bound →
    foldOver cut item f bound b r = fold item f b r

theorem ends_of_readsItems {item : Routine (Option α)} {item' : Parser (Option α)} (h : Refines item item')
    (hr : ReadsItems item' R) : Ends item := by
  intro β cut f b bound
  induction bound generalizing b with
  | zero => exact fun r hlen => absurd hlen (Nat.not_lt_zero _)
  | succ bound ih =>
    intro r hlen
    rw [foldOver, h.fold f b]
    cases hitem : item' r.rest with
    | error s =>
      have hmany : foldMany item' f b r.rest = .error s := by
        rw [foldMany, bind_of_error]
        rw [hr.many_eq, bind_of_error hitem]
      rw [bind_of_none ((h r).trans (Reader.read_of_error hitem)), Reader.read_of_error hmany]
    | ok z =>
      obtain ⟨_ | a, rest⟩ := z
      · rw [bind_of_some ((h r).trans (Reader.read_of_ok hitem)), Reader.read_of_ok (hr.foldMany_of_none f b hitem),
          ← hr.none hitem]
        rfl
      · have hlt := hr.length_lt hitem
        rw [bind_of_some ((h r).trans (Reader.read_of_ok hitem)), Reader.read_setRest (hr.foldMany_of_some f b hitem),
          ← h.fold f]
        exact ih (f b a) (r := { r with rest }) (by simp only; omega)

/-! ## Doing the same on few tokens -/

/-- Where the routine does not refuse, no more tokens are left than there were. -/
def Shrinks (x : Routine α) : Prop := ∀ ⦃r a r'⦄, x r = (some a, r') → r'.rest.length ≤ r.rest.length

theorem shrinks_of_reads (h : Refines x p) (hr : Reads p R) : Shrinks x := by
  intro r a r' hx
  rw [h] at hx
  cases hp : p r.rest with
  | error s =>
    rw [Reader.read_of_error hp] at hx
    cases hx
  | ok z =>
    rw [Reader.read_of_ok hp] at hx
    obtain ⟨used, hused, -⟩ := hr hp
    cases hx
    rw [hused, List.length_append]
    exact Nat.le_add_left _ _

/-- With fewer than `n` tokens left the two routines do the same. -/
def SameBelow (n : Nat) (x y : Routine α) : Prop := ∀ ⦃r : Reader⦄, r.rest.length < n → x r = y r

theorem SameBelow.refl (n : Nat) (x : Routine α) : SameBelow n x x := fun _ _ => rfl

theorem SameBelow.bind_of {f g : α → Routine β} (h : SameBelow n x y)
    (hf : ∀ ⦃r a r'⦄, r.rest.length < n → y r = (some a, r') → f a r' = g a r') :
    SameBelow n (x >>= f) (y >>= g) := by
  intro r hlen
  have hx := h hlen
  cases hresult : y r with
  | mk a? r' =>
    cases a? with
    | none => rw [bind_of_none (hx.trans hresult), bind_of_none hresult]
    | some a =>
      rw [bind_of_some (hx.trans hresult), bind_of_some hresult]
      exact hf hlen hresult

theorem SameBelow.bind {f g : α → Routine β} (h : SameBelow n x y) (hy : Shrinks y)
    (hf : ∀ a, SameBelow n (f a) (g a)) : SameBelow n (x >>= f) (y >>= g) :=
  h.bind_of fun _ a _ hlen hresult => hf a (Nat.lt_of_le_of_lt (hy hresult) hlen)

theorem SameBelow.bind_same (h : SameBelow n x y) (f : α → Routine β) : SameBelow n (x >>= f) (y >>= f) :=
  h.bind_of fun _ _ _ _ _ => rfl

theorem sameBelow_takeIf_bind {f : Token → Option α} {k l : Option α → Routine β}
    (hsome : ∀ a, SameBelow m (k (some a)) (l (some a))) (hnone : SameBelow n (k none) (l none)) (hmn : n ≤ m + 1) :
    SameBelow n (takeIf? f >>= k) (takeIf? f >>= l) := by
  intro r hlen
  have htake := refines_takeIf f r
  cases hparser : Parser.takeIf? f r.rest with
  | error s =>
    rw [Reader.read_of_error hparser] at htake
    rw [bind_of_none htake, bind_of_none htake]
  | ok z =>
    obtain ⟨_ | a, rest⟩ := z
    · rw [Reader.read_of_ok hparser, ← (takeIf?_none.1 hparser).1] at htake
      rw [bind_of_some htake, bind_of_some htake]
      exact hnone hlen
    · obtain ⟨t, hrest, -⟩ := takeIf?_some.1 hparser
      rw [Reader.read_of_ok hparser] at htake
      rw [bind_of_some htake, bind_of_some htake]
      rw [hrest, List.length_cons] at hlen
      exact hsome a (r := { r with rest }) (by simp only; omega)

theorem SameBelow.advance (h : SameBelow n x y) {r : Reader} {t : Token} {ts : List Token} (hrest : r.rest = t :: ts)
    (hlen : ts.length < n) : (do advance; x) r = (do advance; y) r := by
  have hshort : (r.rest.tail).length < n := by rw [hrest]; exact hlen
  exact h (r := { r with rest := r.rest.tail }) hshort

theorem shrinks_expect (kind : TokenKind) (what : String) : Shrinks (expect kind what) :=
  shrinks_of_reads (refines_expect kind what) reads_expect

theorem sameBelow_expect_bind {kind : TokenKind} {what : String} {f g : Token → Routine β}
    (hf : ∀ t, SameBelow n (f t) (g t)) : SameBelow n (expect kind what >>= f) (expect kind what >>= g) :=
  (SameBelow.refl n _).bind (shrinks_expect kind what) hf

theorem sameBelow_expectIdent_bind {what : String} {f g : Ident → Routine β} (hf : ∀ i, SameBelow n (f i) (g i)) :
    SameBelow n (expectIdent what >>= f) (expectIdent what >>= g) := by
  refine (SameBelow.refl n _).bind ?_ hf
  apply shrinks_of_reads (R := fun _ _ => True) (refines_expectIdent what)
  intro ts i rest hi
  obtain ⟨t, rfl, -⟩ := expectIdent_ok.1 hi
  exact ⟨[t], rfl, trivial⟩

theorem SameBelow.fold {item item' : Routine (Option α)} (h : SameBelow n item item') (hitem : Shrinks item')
    (f : β → α → β) (b : β) : SameBelow n (fold item f b) (fold item' f b) := by
  have hwithin : ∀ bound b, SameBelow n (foldWithin item f bound b) (foldWithin item' f bound b) := by
    intro bound
    induction bound with
    | zero => exact fun b => SameBelow.refl n _
    | succ bound ih =>
      intro b
      apply h.bind hitem
      rintro (_ | a)
      · exact SameBelow.refl n _
      · exact ih (f b a)
  exact fun r hlen => hwithin r.rest.length b hlen

theorem SameBelow.commaSeparated (h : SameBelow n x y) (hrefines : Refines y p) (hr : Reads p R) :
    SameBelow n (commaSeparated x) (commaSeparated y) := by
  have hitem : SameBelow n (itemAfterComma x) (itemAfterComma y) := by
    apply sameBelow_takeIf_bind _ _ (Nat.le_succ n)
    · exact fun t => h.bind_same _
    · exact SameBelow.refl n _
  apply h.bind (shrinks_of_reads hrefines hr)
  exact fun first => hitem.fold (shrinks_of_reads hrefines.itemAfterComma (readsItems_afterComma hr).reads) _ _

end Routine

/-! ## Expressions -/

namespace Routine

variable {n level : Nat} {nested nested' : Routine Expr} {p : Parser Expr}

/-- The first routine may stand in for the second one, which reads expressions of this level as the parser does, with
fewer than `n` tokens left. -/
structure StandsIn (n level : Nat) (x y : Routine Expr) (p : Parser Expr) : Prop where
  refines : Refines y p
  reads : Reads p (Expr.SaidAt level)
  same : SameBelow n x y

theorem sameBelow_allocation (h : SameBelow n nested nested') (start : Span) :
    SameBelow n (allocation nested start) (allocation nested' start) := by
  apply sameBelow_takeIf_bind _ _ (Nat.le_succ n)
  · intro i
    apply sameBelow_expect_bind
    exact fun o => h.bind_same _
  · exact SameBelow.refl n _

theorem sameBelow_primary (h : SameBelow n nested nested') : SameBelow (n + 1) (primary nested) (primary nested') := by
  intro r hlen
  cases hrest : r.rest with
  | nil => rw [primary, primary, peek_bind, peek_bind, hrest]; rfl
  | cons t ts =>
    have hshort : ts.length < n := by simpa [hrest] using hlen
    rw [primary, primary, peek_bind, peek_bind, hrest]
    dsimp only [List.head?_cons]
    cases t.kind with
    | newWord => exact (sameBelow_allocation h t.span).advance hrest hshort
    | leftParen => exact (h.bind_same _).advance hrest hshort
    | _ => rfl

theorem StandsIn.sameBelow_arguments (h : StandsIn n 1 nested nested' p) :
    SameBelow n (arguments nested) (arguments nested') := by
  intro r hlen
  rw [arguments, arguments, get_bind, get_bind]
  split
  · rfl
  · exact h.same.commaSeparated h.refines h.reads hlen

theorem StandsIn.sameBelow_suffix (h : StandsIn n 1 nested nested' p) :
    SameBelow (n + 1) (suffix? nested) (suffix? nested') := by
  apply sameBelow_takeIf_bind _ _ (Nat.le_refl _)
  · exact fun o => h.same.bind_same _
  apply sameBelow_takeIf_bind _ _ (Nat.le_refl _)
  · intro d
    apply sameBelow_takeIf_bind _ _ (Nat.le_succ n)
    · exact fun l => SameBelow.refl n _
    apply sameBelow_expectIdent_bind
    intro i
    apply sameBelow_expect_bind
    exact fun o => h.sameBelow_arguments.bind_same _
  · exact SameBelow.refl _ _

theorem StandsIn.sameBelow_access (h : StandsIn n 1 nested nested' p) :
    SameBelow (n + 1) (access nested) (access nested') := by
  apply (sameBelow_primary h.same).bind (shrinks_of_reads (refines_primary h.refines) (Expr.reads_primary h.reads))
  exact fun operand => h.sameBelow_suffix.fold
    (shrinks_of_reads (refines_suffix h.refines) (Expr.readsItems_suffix h.reads).reads) _ _

theorem StandsIn.negation (h : StandsIn n 1 nested nested' p) :
    StandsIn (n + 1) 5 (negation nested) (negation nested') (Expr.negation p) where
  refines := refines_negation h.refines
  reads := Expr.reads_negation h.reads
  same := by
    have hwithin : ∀ bound, SameBelow (n + 1) (negationWithin nested bound) (negationWithin nested' bound) := by
      intro bound
      induction bound with
      | zero => exact h.sameBelow_access
      | succ bound ih =>
        apply sameBelow_takeIf_bind _ _ (Nat.le_succ _)
        · exact fun sign => ih.bind_same _
        · exact h.sameBelow_access
    exact fun r hlen => hwithin r.rest.length hlen

theorem StandsIn.chain {op? : TokenKind → Option BinaryOp} {operand operand' : Routine Expr}
    (h : StandsIn n (level + 1) operand operand' p) (hops : Expr.KnowsOps op? level) :
    StandsIn n level (chain op? operand) (chain op? operand') (Expr.chain op? p) where
  refines := refines_chain h.refines op?
  reads := Expr.reads_chain hops h.reads
  same := by
    have hitem : SameBelow n (operation? op? operand) (operation? op? operand') := by
      apply sameBelow_takeIf_bind _ _ (Nat.le_succ n)
      · exact fun op => h.same.bind_same _
      · exact SameBelow.refl n _
    apply h.same.bind (shrinks_of_reads h.refines h.reads)
    exact fun first => hitem.fold
      (shrinks_of_reads (refines_operation h.refines op?) (Expr.readsItems_operation h.reads).reads) _ _

/-- Like `expressionWithin`, but below the last level `bottom` takes over. -/
def expressionOver (bottom : Routine Expr) : Nat → Routine Expr
  | 0 => bottom
  | depth + 1 => conjunction (expressionOver bottom depth)

theorem standsIn_expressionOver (bottom : Routine Expr) {d d' : Nat} (hd : n ≤ d) (hd' : n ≤ d') :
    StandsIn n 1 (expressionOver bottom d) (expressionWithin d') (Expr.parseWithin d') := by
  induction n generalizing d d' with
  | zero =>
    exact ⟨refines_expressionWithin d', Expr.reads_parseWithin d', fun _ hlen => absurd hlen (Nat.not_lt_zero _)⟩
  | succ n ih =>
    obtain ⟨d, rfl⟩ : ∃ e, d = e + 1 := ⟨d - 1, by omega⟩
    obtain ⟨d', rfl⟩ : ∃ e, d' = e + 1 := ⟨d' - 1, by omega⟩
    have hnested : StandsIn n 1 (expressionOver bottom d) (expressionWithin d') (Expr.parseWithin d') :=
      ih (by omega) (by omega)
    exact (((hnested.negation.chain Expr.knowsOps_product).chain Expr.knowsOps_sum).chain
      Expr.knowsOps_comparison).chain Expr.knowsOps_conjunction

theorem expressionOver_eq (bottom : Routine Expr) {depth : Nat} {r : Reader} (h : r.rest.length < depth) :
    expressionOver bottom depth r = expression r := by
  rw [expression, get_bind]
  exact (standsIn_expressionOver bottom h (Nat.le_refl _)).same (Nat.lt_succ_self _)

/-- Like `negationWithin`, but after the last sign `cut` takes over. -/
def negationOver (cut nested : Routine Expr) : Nat → Routine Expr
  | 0 => cut
  | bound + 1 => do
    match ← accept .bang with
    | some sign =>
      let operand ← negationOver cut nested bound
      return .not (sign.span.merge operand.span) operand
    | none => access nested

/-- Without tokens there is no sign, so the last round makes no difference. -/
theorem sameBelow_negationOver (cut nested : Routine Expr) {bound bound' : Nat} (h : n ≤ bound) (h' : n ≤ bound' + 1) :
    SameBelow n (negationOver cut nested bound) (negationWithin nested bound') := by
  induction n generalizing bound bound' with
  | zero => exact fun _ hlen => absurd hlen (Nat.not_lt_zero _)
  | succ n ih =>
    obtain ⟨bound, rfl⟩ : ∃ k, bound = k + 1 := ⟨bound - 1, by omega⟩
    cases bound' with
    | zero =>
      intro r hlen
      have hnil : r.rest = [] := List.eq_nil_of_length_eq_zero (by omega)
      have hnone : accept .bang r = (some none, r) := by
        rw [accept, takeIf?, peek_bind, hnil]
        rfl
      rw [negationOver, bind_of_some hnone, negationWithin]
    | succ bound' =>
      apply sameBelow_takeIf_bind _ _ (Nat.le_refl _)
      · exact fun sign => (ih (by omega) (by omega)).bind_same _
      · exact SameBelow.refl _ _

theorem negationOver_eq (cut nested : Routine Expr) {bound : Nat} {r : Reader} (h : r.rest.length < bound) :
    negationOver cut nested bound r = negation nested r := by
  rw [negation, get_bind]
  exact sameBelow_negationOver cut nested h (Nat.le_refl _) (Nat.lt_succ_self _)

end Routine

/-! ## Statements -/

namespace Stmt

theorem readsItems_sequence {nested : Parser Stmt} (h : Reads nested Said) (ends : List Token → Bool) :
    ReadsItems (itemWhile (fun ts => !ts.isEmpty && !ends ts) nested) Said :=
  readsItems_words rfl words_ne_nil h

end Stmt

namespace Routine

variable {n : Nat} {nested nested' : Routine Stmt} {p : Parser Stmt}

theorem sameBelow_sequence (h : SameBelow n nested nested') (hrefines : Refines nested' p) (hr : Reads p Stmt.Said)
    (ends : List Token → Bool) : SameBelow n (sequence nested ends) (sequence nested' ends) := by
  refine SameBelow.fold ?_ (shrinks_of_reads (hrefines.itemWhile _) (Stmt.readsItems_sequence hr ends).reads) _ _
  intro r hlen
  rw [itemWhile, itemWhile, get_bind, get_bind]
  split
  · exact h.bind_same _ hlen
  · rfl

theorem shrinks_expression : Shrinks expression := shrinks_of_reads refines_expression Expr.reads_parse

theorem sameBelow_conditional (h : SameBelow n nested nested') (hrefines : Refines nested' p)
    (hr : Reads p Stmt.Said) : SameBelow n (conditional nested) (conditional nested') := by
  apply sameBelow_expect_bind
  intro o
  apply (SameBelow.refl n _).bind shrinks_expression
  intro condition
  apply sameBelow_expect_bind
  intro c
  apply h.bind (shrinks_of_reads hrefines hr)
  intro thenBranch
  apply sameBelow_expect_bind
  exact fun e => h.bind_same _

theorem sameBelow_whileLoop (h : SameBelow n nested nested') :
    SameBelow n (whileLoop nested) (whileLoop nested') := by
  apply sameBelow_expect_bind
  intro o
  apply (SameBelow.refl n _).bind shrinks_expression
  intro condition
  apply sameBelow_expect_bind
  exact fun c => h.bind_same _

theorem sameBelow_statementFrom (h : SameBelow n nested nested') (hrefines : Refines nested' p)
    (hr : Reads p Stmt.Said) : SameBelow (n + 1) (statementFrom nested) (statementFrom nested') := by
  intro r hlen
  cases hrest : r.rest with
  | nil => rw [statementFrom, statementFrom, peek_bind, peek_bind, hrest]; rfl
  | cons t ts =>
    have hshort : ts.length < n := by simpa [hrest] using hlen
    rw [statementFrom, statementFrom, peek_bind, peek_bind, hrest]
    dsimp only [List.head?_cons]
    cases t.kind with
    | leftBrace => exact ((sameBelow_sequence h hrefines hr _).bind_same _).advance hrest hshort
    | ifWord => exact (sameBelow_conditional h hrefines hr).advance hrest hshort
    | whileWord => exact (sameBelow_whileLoop h).advance hrest hshort
    | _ => rfl

/-- Like `statementWithin`, but below the last level `bottom` takes over. -/
def statementOver (bottom : Routine Stmt) : Nat → Routine Stmt
  | 0 => bottom
  | depth + 1 => statementFrom (statementOver bottom depth)

theorem sameBelow_statementOver (bottom : Routine Stmt) {d d' : Nat} (hd : n ≤ d) (hd' : n ≤ d') :
    SameBelow n (statementOver bottom d) (statementWithin d') := by
  induction n generalizing d d' with
  | zero => exact fun _ hlen => absurd hlen (Nat.not_lt_zero _)
  | succ n ih =>
    obtain ⟨d, rfl⟩ : ∃ e, d = e + 1 := ⟨d - 1, by omega⟩
    obtain ⟨d', rfl⟩ : ∃ e, d' = e + 1 := ⟨d' - 1, by omega⟩
    exact sameBelow_statementFrom (ih (by omega) (by omega)) (refines_statementWithin d') (Stmt.reads_parseWithin d')

theorem statementOver_eq (bottom : Routine Stmt) {depth : Nat} {r : Reader} (h : r.rest.length < depth) :
    statementOver bottom depth r = statement r := by
  rw [statement, get_bind]
  exact sameBelow_statementOver bottom h (Nat.le_refl _) (Nat.lt_succ_self _)

end Routine

/-! ## The whole grammar -/

open Routine in
/-- No bound in the grammar is met: not on the depth of expressions and statements, and not in the loops,
whatever depth they run at. -/
structure NoBoundMet : Prop where
  expressions : ∀ (bottom : Routine Expr) ⦃depth : Nat⦄ ⦃r : Reader⦄, r.rest.length < depth →
    expressionOver bottom depth r = expression r
  statements : ∀ (bottom : Routine Stmt) ⦃depth : Nat⦄ ⦃r : Reader⦄, r.rest.length < depth →
    statementOver bottom depth r = statement r
  signs : ∀ (cut nested : Routine Expr) ⦃bound : Nat⦄ ⦃r : Reader⦄, r.rest.length < bound →
    negationOver cut nested bound r = negation nested r
  operations : ∀ (op? : TokenKind → Option BinaryOp) (depth : Nat),
    ∀ operand ∈ [negation, product, sum, comparison], Ends (operation? op? (operand (expressionWithin depth)))
  suffixes : ∀ depth, Ends (suffix? (expressionWithin depth))
  arguments : ∀ depth, Ends (itemAfterComma (expressionWithin depth))
  nested : ∀ (depth : Nat) (ends : List Token → Bool),
    Ends (itemWhile (fun ts => !ts.isEmpty && !ends ts) (statementWithin depth))
  bodies : ∀ ends : List Token → Bool, Ends (itemWhile (fun ts => !ts.isEmpty && !ends ts) statement)
  declarations : Ends (itemWhile VarDecl.startsAt endedVarDecl)
  params : ∀ what, Ends (itemAfterComma (varDecl what))
  methods : Ends (itemWhile (ahead .publicWord) methodDecl)

namespace Routine

theorem refines_operands (depth : Nat) : ∀ operand ∈ [negation, product, sum, comparison],
    ∃ p R, Refines (operand (expressionWithin depth)) p ∧ Reads p R := by
  have h := refines_negation (refines_expressionWithin depth)
  have hr := Expr.reads_negation (Expr.reads_parseWithin depth)
  have hp := Expr.reads_chain Expr.knowsOps_product hr
  have hs := Expr.reads_chain Expr.knowsOps_sum hp
  have hc := Expr.reads_chain Expr.knowsOps_comparison hs
  simp only [List.mem_cons, List.not_mem_nil, or_false, forall_eq_or_imp, forall_eq]
  exact ⟨⟨_, _, h, hr⟩, ⟨_, _, refines_chain h _, hp⟩, ⟨_, _, refines_chain (refines_chain h _) _, hs⟩,
    ⟨_, _, refines_chain (refines_chain (refines_chain h _) _) _, hc⟩⟩

end Routine

open Routine in
theorem noBoundMet : NoBoundMet where
  expressions := fun bottom _ _ h => expressionOver_eq bottom h
  statements := fun bottom _ _ h => statementOver_eq bottom h
  signs := fun cut nested _ _ h => negationOver_eq cut nested h
  operations := by
    intro op? depth operand hmem
    obtain ⟨p, R, h, hr⟩ := refines_operands depth operand hmem
    exact ends_of_readsItems (refines_operation h op?) (Expr.readsItems_operation hr)
  suffixes := fun depth =>
    ends_of_readsItems (refines_suffix (refines_expressionWithin depth))
      (Expr.readsItems_suffix (Expr.reads_parseWithin depth))
  arguments := fun depth =>
    ends_of_readsItems (refines_expressionWithin depth).itemAfterComma
      (readsItems_afterComma (Expr.reads_parseWithin depth))
  nested := fun depth ends =>
    ends_of_readsItems ((refines_statementWithin depth).itemWhile _)
      (Stmt.readsItems_sequence (Stmt.reads_parseWithin depth) ends)
  bodies := fun ends =>
    ends_of_readsItems (refines_statement.itemWhile _) (Stmt.readsItems_sequence Stmt.reads_parse ends)
  declarations :=
    ends_of_readsItems (refines_endedVarDecl.itemWhile _)
      (readsItems_words rfl (by simp [VarDecl.endedWords]) VarDecl.reads_parseEnded)
  params := fun what =>
    ends_of_readsItems (refines_varDecl what).itemAfterComma (readsItems_afterComma (VarDecl.reads_parse what))
  methods :=
    ends_of_readsItems (refines_methodDecl.itemWhile _)
      (readsItems_words rfl (fun d => by simp [MethodDecl.words]) MethodDecl.reads_parse)

end ClassCheck
