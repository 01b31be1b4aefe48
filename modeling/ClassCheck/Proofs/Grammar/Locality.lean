import ClassCheck.Proofs.Grammar.Soundness

/-!
# Parsers do not look past the next class

The word `class` opens a class and stands nowhere else. So whether the tokens of a class are followed by
another class or by the end of the file, its parser comes out well or not, gives the same, and does not go
past the end of them. It may expect different things there: the statements of a block end at the end of
the file, but go on at a `class`, which is no statement.
-/

namespace ClassCheck

open ClassCheck.Parser

namespace Parser

variable {α β : Type} {xs ys : List Token} {n m : Nat}

/-- The end of the file, or a class. -/
def Border (ys : List Token) : Prop := ∀ t ∈ ys.head?, t.kind = .classWord

def ClassFree (xs : List Token) : Prop := ∀ t ∈ xs, t.kind ≠ .classWord

theorem ClassFree.of_suffix {rest : List Token} (h : ClassFree xs) (hrest : rest <:+ xs) :
    ClassFree rest :=
  fun t ht => h t (hrest.mem ht)

theorem Border.not_ahead {kind : TokenKind} (h : Border ys) (hk : kind ≠ .classWord) :
    ahead kind ys = false := by
  rw [ahead_eq_false]
  intro t ht heq
  exact hk (heq ▸ h t ht)

/-- The next token decides, and a border is like the end of the file. -/
theorem ahead_append {kind : TokenKind} (hy : Border ys) (hk : kind ≠ .classWord) (xs : List Token) :
    ahead kind (xs ++ ys) = ahead kind xs := by
  cases xs with
  | nil => exact hy.not_ahead hk
  | cons t xs => rfl

/-! ## With and without what follows -/

/-- What comes out with `ys` after the tokens `xs`, and what comes out without. In both cases the parser
has stopped at the same place, or at least within `xs`. -/
inductive Agrees (xs ys : List Token) :
    Except Stop (α × List Token) → Except Stop (α × List Token) → Prop
  | ok {a : α} {rest : List Token} : rest <:+ xs → Agrees xs ys (.ok (a, rest ++ ys)) (.ok (a, rest))
  | error {s s' : Stop} {rest : List Token} : s.rest = rest ++ ys → rest <:+ xs →
      (∀ literal, s.expected = .smallNumber literal → literal ∈ xs) →
      Agrees xs ys (.error s) (.error s')

/-- On fewer than `n` tokens the first parser, with or without a border after them, does what the second
one does. -/
def LocalWithin (n : Nat) (p q : Parser α) : Prop :=
  ∀ ⦃xs⦄, xs.length < n → ClassFree xs → ∀ ⦃ys⦄, Border ys → Agrees xs ys (p (xs ++ ys)) (q xs)

def Local (p : Parser α) : Prop := ∀ n, LocalWithin n p p

theorem Agrees.mono {xs' : List Token} {x y : Except Stop (α × List Token)} (h : Agrees xs ys x y)
    (hxs : xs <:+ xs') : Agrees xs' ys x y := by
  cases h with
  | ok hrest => exact .ok (hrest.trans hxs)
  | error hs hrest hliteral =>
    exact .error hs (hrest.trans hxs) fun literal h => hxs.mem (hliteral literal h)

theorem Agrees.bind {p q : Parser α} {f g : α → Parser β} (h : Agrees xs ys (p (xs ++ ys)) (q xs))
    (hf : ∀ a rest, q xs = .ok (a, rest) → rest <:+ xs → Agrees rest ys (f a (rest ++ ys)) (g a rest)) :
    Agrees xs ys ((p >>= f) (xs ++ ys)) ((q >>= g) xs) := by
  generalize hx : p (xs ++ ys) = x at h
  generalize hy : q xs = y at h
  cases h with
  | ok hrest =>
    rw [bind_of_ok hx, bind_of_ok hy]
    exact (hf _ _ hy hrest).mono hrest
  | error hs hrest hliteral =>
    rw [bind_of_error hx, bind_of_error hy]
    exact .error hs hrest hliteral

theorem LocalWithin.bind {p q : Parser α} {f g : α → Parser β} (hp : LocalWithin n p q)
    (hf : ∀ a, LocalWithin n (f a) (g a)) : LocalWithin n (p >>= f) (q >>= g) := by
  intro xs hlen hfree ys hy
  apply (hp hlen hfree hy).bind
  intro a rest _ hrest
  exact hf a (Nat.lt_of_le_of_lt hrest.length_le hlen) (hfree.of_suffix hrest) hy

theorem local_pure (n : Nat) (a : α) : LocalWithin n (pure a) (pure a) :=
  fun xs _ _ _ _ => .ok (List.suffix_refl xs)

theorem local_fail (n : Nat) {expected : Expected}
    (h : ∀ literal, expected ≠ .smallNumber literal) :
    LocalWithin (α := α) n (fail expected) (fail expected) :=
  fun xs _ _ _ _ => .error rfl (List.suffix_refl xs) fun literal heq => absurd heq (h literal)

/-! ## Single tokens -/

theorem local_takeIf_bind {γ : Type} {f : Token → Option γ} {k l : Option γ → Parser β}
    (hclass : ∀ t, t.kind = .classWord → f t = none) (hsome : ∀ c, LocalWithin m (k (some c)) (l (some c)))
    (hnone : LocalWithin n (k none) (l none)) (hmn : n ≤ m + 1) :
    LocalWithin n (takeIf? f >>= k) (takeIf? f >>= l) := by
  intro xs hlen hfree ys hy
  have hskip : ∀ t ∈ ys.head?, f t = none := fun t ht => hclass t (hy t ht)
  cases xs with
  | nil =>
    rw [List.nil_append, bind_of_ok (takeIf?_none.2 ⟨rfl, hskip⟩), bind_of_ok rfl]
    exact hnone hlen hfree hy
  | cons t xs =>
    cases hf : f t with
    | none =>
      have htaken : ∀ us, takeIf? f (t :: us) = .ok (none, t :: us) := fun us =>
        takeIf?_none.2 ⟨rfl, by simpa using hf⟩
      rw [List.cons_append, bind_of_ok (htaken _), bind_of_ok (htaken _)]
      exact hnone hlen hfree hy
    | some c =>
      have htaken : ∀ us, takeIf? f (t :: us) = .ok (some c, us) := fun us =>
        takeIf?_some.2 ⟨t, rfl, hf⟩
      rw [List.cons_append, bind_of_ok (htaken _), bind_of_ok (htaken _)]
      have hshort : xs.length < m := by
        rw [List.length_cons] at hlen
        omega
      exact (hsome c hshort (hfree.of_suffix (List.suffix_cons t xs)) hy).mono (List.suffix_cons t xs)

section

variable {kind : TokenKind} {what : String}

theorem local_accept_bind {k l : Option Token → Parser β} (hk : kind ≠ .classWord)
    (hsome : ∀ t, LocalWithin m (k (some t)) (l (some t))) (hnone : LocalWithin n (k none) (l none))
    (hmn : n ≤ m + 1) : LocalWithin n (accept kind >>= k) (accept kind >>= l) := by
  apply local_takeIf_bind _ hsome hnone hmn
  intro t ht
  exact if_neg (by rw [ht]; exact Ne.symm hk)

theorem expect_bind_of_not_ahead {ts : List Token} (h : ahead kind ts = false) (f : Token → Parser β) :
    (expect kind what >>= f) ts = .error ⟨.token what, ts⟩ := by
  rw [expect, bind_assoc, bind_of_ok (accept_of_not_ahead h)]
  rfl

theorem local_expect_bind {f g : Token → Parser β} (hk : kind ≠ .classWord)
    (hf : ∀ t, LocalWithin n (f t) (g t)) :
    LocalWithin n (expect kind what >>= f) (expect kind what >>= g) := by
  unfold expect
  rw [bind_assoc, bind_assoc]
  apply local_accept_bind hk _ _ (Nat.le_succ n)
  · exact hf
  · exact local_fail n (by simp)

theorem local_expectIdent_bind {f g : Ident → Parser β} (hf : ∀ i, LocalWithin n (f i) (g i)) :
    LocalWithin n (expectIdent what >>= f) (expectIdent what >>= g) := by
  unfold expectIdent
  rw [bind_assoc, bind_assoc]
  apply local_accept_bind (by decide) _ _ (Nat.le_succ n)
  · exact fun t => hf ⟨t.lexeme, t.span⟩
  · exact local_fail n (by simp)

end

/-! ## Loops -/

theorem LocalWithin.many {item item' : Parser (Option α)} {R R' : List Token → α → Prop}
    (h : LocalWithin n item item') (hr : ReadsItems item R) (hr' : ReadsItems item' R') :
    LocalWithin n (many item) (many item') := by
  intro xs hlen hfree ys hy
  -- By induction on the number of tokens that are left: an item takes at least one.
  generalize hk : xs.length = k
  induction k using Nat.strongRecOn generalizing xs with
  | ind k ih =>
    rw [hr.many_eq, hr'.many_eq]
    apply (h hlen hfree hy).bind
    rintro (_ | a) rest hitem hrest
    · exact .ok (List.suffix_refl rest)
    · have hlt := hr'.length_lt hitem
      apply Agrees.bind
      · exact ih rest.length (hk ▸ hlt) (Nat.lt_trans hlt hlen) (hfree.of_suffix hrest) rfl
      · exact fun _ last _ _ => .ok (List.suffix_refl last)

theorem LocalWithin.foldMany {item item' : Parser (Option α)} {R R' : List Token → α → Prop}
    (h : LocalWithin n item item') (hr : ReadsItems item R) (hr' : ReadsItems item' R') (f : β → α → β)
    (b : β) : LocalWithin n (foldMany item f b) (foldMany item' f b) :=
  (h.many hr hr').bind fun _ => local_pure n _

theorem local_itemWhile {more : List Token → Bool} {item item' : Parser α}
    (hmore : ∀ xs ys, Border ys → more (xs ++ ys) = more xs) (h : LocalWithin n item item') :
    LocalWithin n (itemWhile more item) (itemWhile more item') := by
  intro xs hlen hfree ys hy
  unfold itemWhile
  rw [hmore xs ys hy]
  split
  · rw [map_eq_pure_bind, map_eq_pure_bind]
    exact h.bind (fun a => local_pure n _) hlen hfree hy
  · exact .ok (List.suffix_refl xs)

theorem LocalWithin.commaSeparated {item item' : Parser α} {R R' : List Token → α → Prop}
    (h : LocalWithin n item item') (hr : Reads item R) (hr' : Reads item' R') :
    LocalWithin n (commaSeparated item) (commaSeparated item') := by
  have hafter : LocalWithin n (itemAfterComma item) (itemAfterComma item') := by
    apply local_accept_bind (by decide) _ _ (Nat.le_succ n)
    · exact fun t => h.bind fun a => local_pure n _
    · exact local_pure n _
  rw [commaSeparated_eq, commaSeparated_eq]
  apply h.bind
  intro first
  apply (hafter.many (readsItems_afterComma hr) (readsItems_afterComma hr')).bind
  exact fun others => local_pure n _

end Parser

/-! ## Expressions -/

namespace Expr

variable {n level : Nat} {nested nested' : Parser Expr}

/-- Two parsers for expressions that hold together at this level, which do the same on fewer than `n`
tokens. They may differ in how deep brackets may nest. -/
structure Twins (n level : Nat) (p q : Parser Expr) : Prop where
  reads : Reads p (SaidAt level)
  reads' : Reads q (SaidAt level)
  agree : LocalWithin n p q

theorem local_allocation (h : LocalWithin n nested nested') (start : Span) :
    LocalWithin n (allocation nested start) (allocation nested' start) := by
  apply local_accept_bind (by decide) _ _ (Nat.le_succ n)
  · intro i
    apply local_expect_bind (by decide)
    intro o
    apply h.bind
    intro size
    apply local_expect_bind (by decide)
    exact fun c => local_pure n _
  · apply local_expectIdent_bind
    intro i
    apply local_expect_bind (by decide)
    intro o
    apply local_expect_bind (by decide)
    exact fun c => local_pure n _

theorem local_parenthesized (h : LocalWithin n nested nested') (start : Span) :
    LocalWithin n (parenthesized nested start) (parenthesized nested' start) := by
  apply h.bind
  intro inner
  apply local_expect_bind (by decide)
  exact fun c => local_pure n _

theorem primary_of_border {ys : List Token} (hy : Border ys) :
    primary nested ys = .error ⟨.expression, ys⟩ := by
  cases ys with
  | nil => rfl
  | cons t ys =>
    have ht : t.kind = .classWord := hy t rfl
    simp only [primary, ht]
    rfl

theorem local_primary (h : LocalWithin n nested nested') :
    LocalWithin (n + 1) (primary nested) (primary nested') := by
  intro xs hlen hfree ys hy
  cases xs with
  | nil =>
    rw [List.nil_append, primary_of_border hy]
    exact .error rfl (List.suffix_refl []) (by simp)
  | cons t xs =>
    have hsuffix : xs <:+ t :: xs := List.suffix_cons t xs
    have hshort : xs.length < n := by simpa using hlen
    have hrest := hfree.of_suffix hsuffix
    rw [List.cons_append, primary, primary]
    generalize t.kind = kind
    cases kind with
    | number =>
      dsimp only
      cases Literal.read? t.lexeme with
      | none =>
        refine .error rfl hsuffix fun literal heq => ?_
        obtain rfl := Expected.smallNumber.inj heq
        exact List.mem_cons_self
      | some value => exact .ok hsuffix
    | trueWord | falseWord | identifier | thisWord => exact .ok hsuffix
    | newWord => exact (local_allocation h t.span hshort hrest hy).mono hsuffix
    | leftParen => exact (local_parenthesized h t.span hshort hrest hy).mono hsuffix
    | _ => exact .error rfl (List.suffix_refl _) (by simp)

theorem Twins.local_arguments (h : Twins n 1 nested nested') :
    LocalWithin n (arguments nested) (arguments nested') := by
  intro xs hlen hfree ys hy
  unfold arguments
  rw [ahead_append hy (by decide)]
  split
  · exact .ok (List.suffix_refl xs)
  · exact h.agree.commaSeparated h.reads h.reads' hlen hfree hy

theorem Twins.local_suffix (h : Twins n 1 nested nested') :
    LocalWithin (n + 1) (suffix? nested) (suffix? nested') := by
  apply local_accept_bind (by decide) _ _ (Nat.le_refl _)
  · intro o
    apply h.agree.bind
    intro position
    apply local_expect_bind (by decide)
    exact fun c => local_pure n _
  apply local_accept_bind (by decide) _ _ (Nat.le_refl _)
  · intro d
    apply local_accept_bind (by decide) _ _ (Nat.le_succ n)
    · exact fun l => local_pure n _
    apply local_expectIdent_bind
    intro i
    apply local_expect_bind (by decide)
    intro o
    apply h.local_arguments.bind
    intro args
    apply local_expect_bind (by decide)
    exact fun c => local_pure n _
  · exact local_pure _ _

theorem Twins.local_access (h : Twins n 1 nested nested') :
    LocalWithin (n + 1) (access nested) (access nested') := by
  rw [access_eq, access_eq]
  apply (local_primary h.agree).bind
  exact h.local_suffix.foldMany (readsItems_suffix h.reads) (readsItems_suffix h.reads') attach

theorem Twins.local_negation (h : Twins n 1 nested nested') :
    LocalWithin (n + 1) (negation nested) (negation nested') := by
  intro xs hlen hfree ys hy
  induction xs with
  | nil =>
    rw [List.nil_append, negation_of_not_ahead (hy.not_ahead (by decide)), negation_of_not_ahead rfl]
    exact h.local_access hlen hfree hy
  | cons t xs ih =>
    have hsuffix : xs <:+ t :: xs := List.suffix_cons t xs
    by_cases ht : t.kind = .bang
    · rw [List.cons_append, negation_cons ht, negation_cons ht]
      refine Agrees.mono (Agrees.bind ?_ ?_) hsuffix
      · exact ih (Nat.lt_of_le_of_lt hsuffix.length_le hlen) (hfree.of_suffix hsuffix)
      · exact fun operand rest _ _ => .ok (List.suffix_refl rest)
    · have hnot : ∀ us, ahead .bang (t :: us) = false := by simp [ahead, ht]
      rw [List.cons_append, negation_of_not_ahead (hnot _), negation_of_not_ahead (hnot _)]
      exact h.local_access hlen hfree hy

theorem Twins.negation (h : Twins n 1 nested nested') :
    Twins (n + 1) 5 (negation nested) (negation nested') :=
  ⟨reads_negation h.reads, reads_negation h.reads', h.local_negation⟩

theorem Twins.chain {op? : TokenKind → Option BinaryOp} {operand operand' : Parser Expr}
    (h : Twins n (level + 1) operand operand') (hops : KnowsOps op? level) :
    Twins n level (chain op? operand) (chain op? operand') := by
  have hclass : op? .classWord = none := by
    cases hop : op? .classWord with
    | none => rfl
    | some op =>
      have hkind := ((hops _ _).1 hop).2
      cases op <;> cases hkind
  have hitem : LocalWithin n (operation? op? operand) (operation? op? operand') := by
    apply local_takeIf_bind _ _ _ (Nat.le_succ n)
    · intro t ht
      rw [ht, hclass]
    · exact fun op => h.agree.bind fun right => local_pure n _
    · exact local_pure n _
  refine ⟨reads_chain hops h.reads, reads_chain hops h.reads', ?_⟩
  rw [chain_eq, chain_eq]
  apply h.agree.bind
  exact hitem.foldMany (readsItems_operation h.reads) (readsItems_operation h.reads') joinNext

/-- The bound on the depth is never met. -/
theorem twins_parseWithin {d d' : Nat} (hd : n ≤ d) (hd' : n ≤ d') :
    Twins n 1 (parseWithin d) (parseWithin d') := by
  induction n generalizing d d' with
  | zero =>
    exact ⟨reads_parseWithin d, reads_parseWithin d', fun _ hlen => absurd hlen (Nat.not_lt_zero _)⟩
  | succ n ih =>
    obtain ⟨d, rfl⟩ : ∃ e, d = e + 1 := ⟨d - 1, by omega⟩
    obtain ⟨d', rfl⟩ : ∃ e, d' = e + 1 := ⟨d' - 1, by omega⟩
    have hnested : Twins n 1 (parseWithin d) (parseWithin d') := ih (by omega) (by omega)
    exact (((hnested.negation.chain knowsOps_product).chain knowsOps_sum).chain
      knowsOps_comparison).chain knowsOps_conjunction

theorem local_parse : Local parse := by
  intro n xs _ hfree ys hy
  have hd : xs.length + 1 ≤ (xs ++ ys).length + 1 := by
    rw [List.length_append]
    omega
  exact (twins_parseWithin hd (Nat.le_refl _)).agree (Nat.lt_succ_self _) hfree hy

end Expr

/-! ## Statements -/

namespace Stmt

variable {β : Type} {n : Nat} {nested nested' : Parser Stmt}

/-- Two parsers for statements that do the same on fewer than `n` tokens. The first one takes no
`class`. -/
structure Twins (n : Nat) (p q : Parser Stmt) : Prop where
  reads : Reads p Said
  reads' : Reads q Said
  agree : LocalWithin n p q
  refuses : ∀ t ts, t.kind = .classWord → p (t :: ts) = .error ⟨.statement, t :: ts⟩

theorem sequence_bind_eq (h : Reads nested Said) (ends : List Token → Bool)
    (k : List Stmt → Parser β) (ts : List Token) :
    (sequence nested ends >>= k) ts =
      if !ts.isEmpty && !ends ts then
        (nested >>= fun s => sequence nested ends >>= fun body => k (s :: body)) ts
      else k [] ts := by
  let more (ts : List Token) : Bool := !ts.isEmpty && !ends ts
  have hitems : ReadsItems (itemWhile more nested) fun used s => Says used s.words ∧ s.Grouped :=
    readsItems_words rfl words_ne_nil h
  change (many (itemWhile more nested) >>= k) ts = if more ts then _ else _
  split
  · next hmore =>
    cases hs : nested ts with
    | error s =>
      have hitem : itemWhile more nested ts = .error s := by
        rw [itemWhile, if_pos hmore, map_eq_pure_bind, bind_of_error hs]
      have hmany : many (itemWhile more nested) ts = .error s := by
        rw [hitems.many_eq, bind_of_error hitem]
      rw [bind_of_error hmany, bind_of_error hs]
    | ok x =>
      obtain ⟨s, rest⟩ := x
      rw [bind_apply_congr (hitems.many_of_some (itemWhile_of_more hmore hs)), bind_assoc,
        bind_of_ok hs]
      rfl
  · next hmore =>
    rw [bind_of_ok (hitems.many_of_none (itemWhile_of_not_more (by simpa using hmore)))]

theorem Twins.sequence_bind (h : Twins n nested nested') {ends : List Token → Bool}
    (hends : ∀ t ts us, ends (t :: ts) = ends (t :: us)) {kind : TokenKind} {what : String}
    (hk : kind ≠ .classWord) {f g : List Stmt → Token → Parser β}
    (hf : ∀ body t, LocalWithin n (f body t) (g body t)) :
    LocalWithin n (sequence nested ends >>= fun body => expect kind what >>= f body)
      (sequence nested' ends >>= fun body => expect kind what >>= g body) := by
  intro xs hlen hfree ys hy
  -- By induction on the number of tokens that are left, as each statement takes at least one.
  generalize hn : xs.length = k
  induction k using Nat.strongRecOn generalizing xs f g with
  | ind k ih =>
    rw [sequence_bind_eq h.reads, sequence_bind_eq h.reads']
    cases xs with
    | nil =>
      -- At the end of the file the loop ends, and at a class a statement is expected.
      have hend : (!(List.isEmpty ([] : List Token)) && !ends []) = false := rfl
      have hnone : ahead kind [] = false := rfl
      rw [List.nil_append, hend, if_neg Bool.false_ne_true, expect_bind_of_not_ahead hnone]
      split
      · next hmore =>
        cases ys with
        | nil => simp at hmore
        | cons t ys =>
          rw [bind_of_error (h.refuses t ys (hy t rfl))]
          exact .error rfl (List.suffix_refl []) (by simp)
      · rw [expect_bind_of_not_ahead (hy.not_ahead hk)]
        exact .error rfl (List.suffix_refl []) (by simp)
    | cons t xs =>
      have hmore : (!(t :: xs ++ ys).isEmpty && !ends (t :: xs ++ ys)) =
          (!(t :: xs).isEmpty && !ends (t :: xs)) := by
        rw [List.cons_append, hends t (xs ++ ys) xs]
        rfl
      rw [hmore]
      split
      · apply (h.agree hlen hfree hy).bind
        intro s rest hs hrest
        obtain ⟨used, hused, hsaid, -⟩ := h.reads' hs
        have hpos : 0 < used.length := by
          rw [hsaid.length_eq]
          exact List.length_pos_iff.2 s.words_ne_nil
        have hlt : rest.length < (t :: xs).length := by
          rw [hused, List.length_append]
          omega
        exact ih rest.length (hn ▸ hlt) (fun body u => hf (s :: body) u) (Nat.lt_trans hlt hlen)
          (hfree.of_suffix hrest) rfl
      · exact local_expect_bind hk (hf []) hlen hfree hy

theorem Twins.local_blockBody (h : Twins n nested nested') :
    LocalWithin n (blockBody nested) (blockBody nested') :=
  h.sequence_bind (fun _ _ _ => rfl) (by decide) fun _ _ => local_pure n _

theorem local_assignment (n : Nat) (target : Ident) :
    LocalWithin n (assignment target) (assignment target) := by
  apply local_accept_bind (by decide) _ _ (Nat.le_succ n)
  · intro o
    apply (Expr.local_parse n).bind
    intro position
    apply local_expect_bind (by decide)
    intro c
    apply local_expect_bind (by decide)
    intro e
    apply (Expr.local_parse n).bind
    intro value
    apply local_expect_bind (by decide)
    exact fun d => local_pure n _
  · apply local_expect_bind (by decide)
    intro e
    apply (Expr.local_parse n).bind
    intro value
    apply local_expect_bind (by decide)
    exact fun d => local_pure n _

theorem local_conditional (h : LocalWithin n nested nested') :
    LocalWithin n (conditional nested) (conditional nested') := by
  apply local_expect_bind (by decide)
  intro o
  apply (Expr.local_parse n).bind
  intro condition
  apply local_expect_bind (by decide)
  intro c
  apply h.bind
  intro thenBranch
  apply local_expect_bind (by decide)
  intro e
  apply h.bind
  exact fun elseBranch => local_pure n _

theorem local_whileLoop (h : LocalWithin n nested nested') :
    LocalWithin n (whileLoop nested) (whileLoop nested') := by
  apply local_expect_bind (by decide)
  intro o
  apply (Expr.local_parse n).bind
  intro condition
  apply local_expect_bind (by decide)
  intro c
  apply h.bind
  exact fun body => local_pure n _

theorem local_printStmt (n : Nat) : LocalWithin n printStmt printStmt := by
  apply local_expect_bind (by decide)
  intro o
  apply (Expr.local_parse n).bind
  intro value
  apply local_expect_bind (by decide)
  intro c
  apply local_expect_bind (by decide)
  exact fun d => local_pure n _

theorem ofFirst_of_border {ys : List Token} (hy : Border ys) :
    ofFirst nested ys = .error ⟨.statement, ys⟩ := by
  cases ys with
  | nil => rfl
  | cons t ys =>
    have ht : t.kind = .classWord := hy t rfl
    simp only [ofFirst, ht]
    rfl

theorem Twins.local_ofFirst (h : Twins n nested nested') :
    LocalWithin (n + 1) (ofFirst nested) (ofFirst nested') := by
  intro xs hlen hfree ys hy
  cases xs with
  | nil =>
    rw [List.nil_append, ofFirst_of_border hy]
    exact .error rfl (List.suffix_refl []) (by simp)
  | cons t xs =>
    have hsuffix : xs <:+ t :: xs := List.suffix_cons t xs
    have hshort : xs.length < n := by simpa using hlen
    have hrest := hfree.of_suffix hsuffix
    rw [List.cons_append, ofFirst, ofFirst]
    generalize t.kind = kind
    cases kind with
    | leftBrace => exact (h.local_blockBody hshort hrest hy).mono hsuffix
    | ifWord => exact (local_conditional h.agree hshort hrest hy).mono hsuffix
    | whileWord => exact (local_whileLoop h.agree hshort hrest hy).mono hsuffix
    | print => exact (local_printStmt n hshort hrest hy).mono hsuffix
    | identifier => exact (local_assignment n _ hshort hrest hy).mono hsuffix
    | _ => exact .error rfl (List.suffix_refl _) (by simp)

theorem parseWithin_of_class (d : Nat) {t : Token} (ts : List Token) (ht : t.kind = .classWord) :
    parseWithin d (t :: ts) = .error ⟨.statement, t :: ts⟩ := by
  cases d with
  | zero => rfl
  | succ d => exact ofFirst_of_border (by simpa [Border] using ht)

theorem twins_parseWithin {d d' : Nat} (hd : n ≤ d) (hd' : n ≤ d') :
    Twins n (parseWithin d) (parseWithin d') := by
  refine ⟨reads_parseWithin d, reads_parseWithin d', ?_, fun t ts => parseWithin_of_class d ts⟩
  induction n generalizing d d' with
  | zero => exact fun _ hlen => absurd hlen (Nat.not_lt_zero _)
  | succ n ih =>
    obtain ⟨d, rfl⟩ : ∃ e, d = e + 1 := ⟨d - 1, by omega⟩
    obtain ⟨d', rfl⟩ : ∃ e, d' = e + 1 := ⟨d' - 1, by omega⟩
    have hnested : Twins n (parseWithin d) (parseWithin d') :=
      ⟨reads_parseWithin d, reads_parseWithin d', ih (by omega) (by omega),
        fun t ts => parseWithin_of_class d ts⟩
    exact hnested.local_ofFirst

theorem twins_parse (n : Nat) : Twins n parse parse := by
  refine ⟨reads_parse, reads_parse, ?_, fun t ts => parseWithin_of_class _ ts⟩
  intro xs _ hfree ys hy
  have hd : xs.length + 1 ≤ (xs ++ ys).length + 1 := by
    rw [List.length_append]
    omega
  exact (twins_parseWithin hd (Nat.le_refl _)).agree (Nat.lt_succ_self _) hfree hy

end Stmt

/-! ## Declarations -/

theorem TypeRef.parse_of_border {ys : List Token} (hy : Border ys) :
    TypeRef.parse ys = .error ⟨.type, ys⟩ := by
  cases ys with
  | nil => rfl
  | cons t ys =>
    have ht : t.kind = .classWord := hy t rfl
    simp only [TypeRef.parse, ht]
    rfl

theorem TypeRef.local_parse : Local TypeRef.parse := by
  intro n xs hlen hfree ys hy
  cases xs with
  | nil =>
    rw [List.nil_append, parse_of_border hy]
    exact .error rfl (List.suffix_refl []) (by simp)
  | cons t xs =>
    have hsuffix : xs <:+ t :: xs := List.suffix_cons t xs
    have hshort : xs.length < n := Nat.lt_of_le_of_lt hsuffix.length_le hlen
    have hrest := hfree.of_suffix hsuffix
    rw [List.cons_append, TypeRef.parse, TypeRef.parse]
    generalize t.kind = kind
    cases kind with
    | int =>
      refine Agrees.mono ?_ hsuffix
      refine local_accept_bind (by decide) ?_ ?_ (Nat.le_succ n) hshort hrest hy
      · intro o
        apply local_expect_bind (by decide)
        exact fun c => local_pure n _
      · exact local_pure n _
    | boolean | identifier => exact .ok hsuffix
    | _ => exact .error rfl (List.suffix_refl _) (by simp)

namespace VarDecl

theorem startsAt_append (xs ys : List Token) (hy : Border ys) :
    startsAt (xs ++ ys) = startsAt xs := by
  cases xs with
  | nil =>
    cases ys with
    | nil => rfl
    | cons t ys =>
      have ht : t.kind = .classWord := hy t rfl
      simp [startsAt, ht]
  | cons t xs =>
    unfold startsAt
    rw [List.cons_append]
    dsimp only
    rw [ahead_append hy (by decide)]

theorem local_parse (n : Nat) (what : String) : LocalWithin n (parse what) (parse what) := by
  apply (TypeRef.local_parse n).bind
  intro type
  apply local_expectIdent_bind
  exact fun name => local_pure n _

theorem local_parseAll : Local parseAll := by
  intro n
  have hended : LocalWithin n parseEnded parseEnded := by
    apply (local_parse n _).bind
    intro d
    apply local_expect_bind (by decide)
    exact fun c => local_pure n _
  have hitems : ReadsItems (itemWhile startsAt parseEnded) _ :=
    readsItems_words rfl (by simp [endedWords]) reads_parseEnded
  exact (local_itemWhile startsAt_append hended).many hitems hitems

theorem local_parseParams : Local parseParams := by
  intro n xs hlen hfree ys hy
  unfold parseParams
  rw [ahead_append hy (by decide)]
  split
  · exact .ok (List.suffix_refl xs)
  · exact (local_parse n _).commaSeparated (reads_parse _) (reads_parse _) hlen hfree hy

end VarDecl

theorem MethodDecl.local_parse : Local MethodDecl.parse := by
  intro n
  apply local_expect_bind (by decide)
  intro p
  apply (TypeRef.local_parse n).bind
  intro returnType
  apply local_expectIdent_bind
  intro name
  apply local_expect_bind (by decide)
  intro o
  apply (VarDecl.local_parseParams n).bind
  intro params
  apply local_expect_bind (by decide)
  intro c
  apply local_expect_bind (by decide)
  intro b
  apply (VarDecl.local_parseAll n).bind
  intro locals
  apply (Stmt.twins_parse n).sequence_bind (fun _ _ _ => rfl) (by decide)
  intro body r
  apply (Expr.local_parse n).bind
  intro returned
  apply local_expect_bind (by decide)
  intro s
  apply local_expect_bind (by decide)
  exact fun e => local_pure n _

/-! ## Classes -/

namespace Parser

/-- A parser for a class: it takes nothing but what begins with `class`, and looks no further than up to
the next one. -/
structure ReadsClass {α : Type} (p : Parser α) : Prop where
  agree : ∀ {t xs ys}, t.kind = .classWord → ClassFree xs → Border ys →
    Agrees xs ys (p (t :: xs ++ ys)) (p (t :: xs))
  refuses : ∀ {ts}, ahead .classWord ts = false → ∃ what, p ts = .error ⟨.token what, ts⟩

theorem readsClass_expect_bind {α : Type} {what : String} {f : Token → Parser α}
    (hf : ∀ t, Local (f t)) : ReadsClass (expect .classWord what >>= f) where
  agree := by
    intro t xs ys ht hfree hy
    rw [List.cons_append, bind_of_ok (expect_cons ht), bind_of_ok (expect_cons ht)]
    exact hf t _ (Nat.lt_succ_self _) hfree hy
  refuses := by
    intro ts hts
    exact ⟨what, expect_bind_of_not_ahead hts f⟩

end Parser

theorem ClassDecl.readsClass_parse : ReadsClass ClassDecl.parse := by
  apply readsClass_expect_bind
  intro k n
  apply local_expectIdent_bind
  intro name
  have hsuperclass : LocalWithin n superclass? superclass? := by
    apply local_accept_bind (by decide) _ _ (Nat.le_succ n)
    · intro e
      apply local_expectIdent_bind
      exact fun i => local_pure n _
    · exact local_pure n _
  apply hsuperclass.bind
  intro superclass
  apply local_expect_bind (by decide)
  intro o
  apply (VarDecl.local_parseAll n).bind
  intro fields
  have hmethods : LocalWithin n (manyWhile (ahead .publicWord) MethodDecl.parse)
      (manyWhile (ahead .publicWord) MethodDecl.parse) := by
    have hitems : ReadsItems (itemWhile (ahead .publicWord) MethodDecl.parse) _ :=
      readsItems_words rfl (fun d => by simp [MethodDecl.words]) MethodDecl.reads_parse
    have hmore : ∀ xs ys, Border ys → ahead .publicWord (xs ++ ys) = ahead .publicWord xs :=
      fun xs ys hy => ahead_append hy (by decide) xs
    exact (local_itemWhile hmore (MethodDecl.local_parse n)).many hitems hitems
  apply hmethods.bind
  intro methods
  apply local_expect_bind (by decide)
  exact fun c => local_pure n _

theorem MainClass.readsClass_parse : ReadsClass MainClass.parse := by
  apply readsClass_expect_bind
  intro k n
  apply local_expectIdent_bind
  intro name
  -- From the brace after the name to the bracket after `String`.
  iterate 9
    apply local_expect_bind (by decide)
    intro _
  apply local_expectIdent_bind
  intro args
  iterate 2
    apply local_expect_bind (by decide)
    intro _
  apply (VarDecl.local_parseAll n).bind
  intro locals
  apply (Stmt.twins_parse n).sequence_bind (fun _ _ _ => rfl) (by decide)
  intro body c
  apply local_expect_bind (by decide)
  exact fun d => local_pure n _

end ClassCheck
