import ClassCheck.Proofs.Grammar.ReadBack
import ClassCheck.Proofs.Grammar.Soundness

/-!
# What is well written is read

A tree that is grouped as the grammar asks is read back from its words, up to places. The loops of
the parsers go to the left end of an operator chain first, so a chain is followed from there: what
has been read so far is what the loop holds (`chain_spine`, `access_spine`).
-/

namespace ClassCheck

open ClassCheck.Parser

/-! ## Expressions -/

/-- A word with which an expression can begin. -/
def Word.OpensExpr : Word → Prop
  | .number _ | .name _ => True
  | .fixed kind => kind ∈ [TokenKind.trueWord, .falseWord, .thisWord, .newWord, .leftParen, .bang]

namespace Expr

def Suffix.bare : Suffix → Suffix
  | .index position _ => .index position.bare .nowhere
  | .length _ => .length .nowhere
  | .call method args _ => .call method.bare (args.map Expr.bare) .nowhere

theorem bare_attach {e e' : Expr} {s s' : Suffix} (he : e'.bare = e.bare) (hs : s'.bare = s.bare) :
    (attach e' s').bare = (attach e s).bare := by
  cases s <;> cases s' <;> simp_all [Suffix.bare, attach, bare]

/-- The parser reads back the expressions of this level, as long as they have less than `bound`
words. -/
def ReadsExprs (p : Parser Expr) (level bound : Nat) : Prop :=
  ∀ e : Expr, e.Grouped → level ≤ e.level → e.words.length < bound →
    ReadsBack p e.words (fun e' => e'.bare = e.bare) (Settled level)

variable {nested : Parser Expr} {n : Nat}

theorem readsBack_newArray (hn : ReadsExprs nested 1 n) (start span : Span) {size : Expr}
    (hg : size.Grouped) (hl : size.words.length < n) {ends : List Token → Prop} :
    ReadsBack (allocation nested start)
      (.fixed .int :: .fixed .leftBracket :: (size.words ++ [.fixed .rightBracket]))
      (fun e => e.bare = (Expr.newArray span size).bare) ends := by
  apply readsBack_accept_bind
  intro i hi
  apply readsBack_expect_bind
  intro o ho
  apply (hn _ hg (level_pos _) hl).bind_fixed (settled_of_kind rfl)
  intro size' hsize
  apply readsBack_expect_bind
  intro c hc
  apply readsBack_pure
  simp only [bare, hsize]

theorem readsBack_newObject (start span : Span) (className : Ident) {ends : List Token → Prop} :
    ReadsBack (allocation nested start)
      [.name className.name, .fixed .leftParen, .fixed .rightParen]
      (fun e => e.bare = (Expr.newObject span className).bare) ends := by
  apply readsBack_accept_none_bind
  · apply neverAhead_cons
    intro t ht
    simp [((Token.word?_eq_name t _).1 ht).1]
  apply readsBack_expectIdent_bind
  intro i hi
  apply readsBack_expect_bind
  intro o ho
  apply readsBack_expect_bind
  intro c hc
  apply readsBack_pure
  simp only [bare, Ident.bare, hi]

theorem readsBack_parenthesized (hn : ReadsExprs nested 1 n) (start span : Span) {inner : Expr}
    (hg : inner.Grouped) (hl : inner.words.length < n) {ends : List Token → Prop} :
    ReadsBack (parenthesized nested start) (inner.words ++ [.fixed .rightParen])
      (fun e => e.bare = (Expr.paren span inner).bare) ends := by
  apply (hn _ hg (level_pos _) hl).bind_fixed (settled_of_kind rfl)
  intro inner' hinner
  apply readsBack_expect_bind
  intro c hc
  apply readsBack_pure
  simp only [bare, hinner]

theorem readsExprs_primary (hn : ReadsExprs nested 1 n) : ReadsExprs (primary nested) 7 (n + 1) := by
  intro e hg hl hlen
  cases e with
  | int span value =>
    apply readsBack_first
    intro t ht
    obtain ⟨hk, hv⟩ := (Token.word?_eq_number t value).1 ht
    exact ⟨pure (.int t.span value), fun ts => by simp [primary, hk, hv]; rfl, readsBack_pure rfl⟩
  | bool span value =>
    apply readsBack_first
    intro t ht
    obtain ⟨hk, -⟩ := (Token.word?_eq_fixed t _).1 ht
    refine ⟨pure (.bool t.span value), fun ts => ?_, readsBack_pure rfl⟩
    cases value <;> simp [primary, hk] <;> rfl
  | ident span name =>
    apply readsBack_first
    intro t ht
    obtain ⟨hk, rfl⟩ := (Token.word?_eq_name t name).1 ht
    exact ⟨pure (.ident t.span t.lexeme), fun ts => by simp [primary, hk]; rfl, readsBack_pure rfl⟩
  | this span =>
    apply readsBack_first
    intro t ht
    obtain ⟨hk, -⟩ := (Token.word?_eq_fixed t _).1 ht
    exact ⟨pure (.this t.span), fun ts => by simp [primary, hk]; rfl, readsBack_pure rfl⟩
  | newArray span size =>
    rw [words, List.length_cons, List.length_cons, List.length_cons, List.length_append] at hlen
    apply readsBack_first
    intro t ht
    obtain ⟨hk, -⟩ := (Token.word?_eq_fixed t _).1 ht
    exact ⟨allocation nested t.span, fun ts => by simp [primary, hk],
      readsBack_newArray hn _ _ ((grouped_newArray _ _).1 hg) (by omega)⟩
  | newObject span className =>
    apply readsBack_first
    intro t ht
    obtain ⟨hk, -⟩ := (Token.word?_eq_fixed t _).1 ht
    exact ⟨allocation nested t.span, fun ts => by simp [primary, hk], readsBack_newObject _ _ _⟩
  | paren span inner =>
    rw [words, List.length_cons, List.length_append] at hlen
    apply readsBack_first
    intro t ht
    obtain ⟨hk, -⟩ := (Token.word?_eq_fixed t _).1 ht
    exact ⟨parenthesized nested t.span, fun ts => by simp [primary, hk],
      readsBack_parenthesized hn _ _ ((grouped_paren _ _).1 hg) (by omega)⟩
  | binary span op left right =>
    have := op.level_bounds
    simp only [level] at hl
    omega
  | not | index | length | call => simp [level] at hl

/-- No expression begins with a closing parenthesis, and what begins with `!` is loose. -/
theorem words_eq_cons {e : Expr} (hg : e.Grouped) :
    ∃ w ws, e.words = w :: ws ∧ w.OpensExpr ∧ (6 ≤ e.level → w ≠ .fixed .bang) := by
  induction e with
  | int | ident | this | newArray | newObject | paren =>
    exact ⟨_, _, rfl, by simp [Word.OpensExpr], by simp⟩
  | bool span value =>
    refine ⟨_, _, rfl, ?_, ?_⟩
    · cases value <;> simp [Word.OpensExpr]
    · cases value <;> simp
  | not span operand => exact ⟨_, _, rfl, by simp [Word.OpensExpr], by simp [level]⟩
  | binary span op left right ihl _ =>
    obtain ⟨w, ws, hw, ho, -⟩ := ihl ((grouped_binary _ _ _ _).1 hg).2.1
    refine ⟨w, _, by rw [words, hw]; rfl, ho, fun h => ?_⟩
    have := op.level_bounds
    simp only [level] at h
    omega
  | index span array position iha _ =>
    obtain ⟨hl, hg, -⟩ := (grouped_index _ _ _).1 hg
    obtain ⟨w, ws, hw, ho, hb⟩ := iha hg
    exact ⟨w, _, by rw [words, hw]; rfl, ho, fun _ => hb hl⟩
  | length span array iha =>
    obtain ⟨hl, hg⟩ := (grouped_length _ _).1 hg
    obtain ⟨w, ws, hw, ho, hb⟩ := iha hg
    exact ⟨w, _, by rw [words, hw]; rfl, ho, fun _ => hb hl⟩
  | call span receiver method args ihr _ =>
    obtain ⟨hl, hg, -⟩ := (grouped_call _ _ _ _).1 hg
    obtain ⟨w, ws, hw, ho, hb⟩ := ihr hg
    exact ⟨w, _, by rw [words, hw]; rfl, ho, fun _ => hb hl⟩

theorem neverAhead_expr {e : Expr} {kind : TokenKind} {ends : List Token → Prop} (hg : e.Grouped)
    (hn : kind ≠ .number) (hi : kind ≠ .identifier) (hk : ¬ (Word.fixed kind).OpensExpr) :
    NeverAhead kind e.words ends := by
  obtain ⟨w, vs, hw, ho, -⟩ := words_eq_cons hg
  rw [hw]
  apply neverAhead_cons
  intro t ht
  cases w with
  | number value => rw [((Token.word?_eq_number t value).1 ht).1]; exact hn.symm
  | name text => rw [((Token.word?_eq_name t text).1 ht).1]; exact hi.symm
  | fixed k =>
    rw [((Token.word?_eq_fixed t k).1 ht).1]
    rintro rfl
    exact hk ho

/-! ### What may follow an operand -/

theorem readsBack_arguments (hn : ReadsExprs nested 1 n) (hr : Reads nested (SaidAt 1))
    {args : List Expr} (hg : ∀ arg ∈ args, arg.Grouped)
    (hl : ∀ arg ∈ args, arg.words.length < n) :
    ReadsBack (arguments nested) (commas (args.map words))
      (fun args' => args'.map bare = args.map bare) fun rest => ahead .rightParen rest = true := by
  apply readsBack_upToParen (settled_of_kind rfl) (settled_of_kind rfl) hr
  · exact fun e he => hn e (hg e he) e.level_pos (hl e he)
  · exact fun e he => neverAhead_expr (hg e he) (by simp) (by simp) (by simp [Word.OpensExpr])

theorem readsBack_suffix (hn : ReadsExprs nested 1 n) (hr : Reads nested (SaidAt 1)) {s : Suffix}
    (hg : s.Grouped) (hl : s.words.length < n + 1) {ends : List Token → Prop} :
    ReadsBack (suffix? nested) s.words (fun x => ∃ s', x = some s' ∧ s'.bare = s.bare) ends := by
  cases s with
  | index position close =>
    simp only [Suffix.words, List.length_cons, List.length_append] at hl
    apply readsBack_accept_bind
    intro o ho
    apply (hn _ hg (level_pos _) (by omega)).bind_fixed (settled_of_kind rfl)
    intro position' hposition
    apply readsBack_expect_bind
    intro c hc
    apply readsBack_pure
    exact ⟨_, rfl, by simp only [Suffix.bare, hposition]⟩
  | length close =>
    apply readsBack_accept_none_bind (neverAhead_cons fun t ht => by
      simp [((Token.word?_eq_fixed t _).1 ht).1])
    apply readsBack_accept_bind
    intro d hd
    apply readsBack_accept_bind
    intro l hl
    apply readsBack_pure
    exact ⟨_, rfl, rfl⟩
  | call method args close =>
    have hargs : ∀ arg ∈ args, arg.words.length < n := by
      intro arg harg
      have := length_le_commas (List.mem_map_of_mem (f := words) harg)
      simp only [Suffix.words, List.length_cons, List.length_append] at hl
      omega
    apply readsBack_accept_none_bind (neverAhead_cons fun t ht => by
      simp [((Token.word?_eq_fixed t _).1 ht).1])
    apply readsBack_accept_bind
    intro d hd
    apply readsBack_accept_none_bind (neverAhead_cons fun t ht => by
      simp [((Token.word?_eq_name t _).1 ht).1])
    apply readsBack_expectIdent_bind
    intro i hi
    apply readsBack_expect_bind
    intro o ho
    apply (readsBack_arguments hn hr hg hargs).bind_fixed fun t ts ht => by simp [ahead, ht]
    intro args' hbare
    apply readsBack_expect_bind
    intro c hc
    apply readsBack_pure
    exact ⟨_, rfl, by simp only [Suffix.bare, Ident.bare, hi, hbare]⟩

theorem suffix?_of_settled {rest : List Token} (h : Settled 6 rest) :
    suffix? nested rest = .ok (none, rest) := by
  rw [suffix?, bind_of_ok (accept_of_not_ahead (h.not_ahead (by decide)))]
  dsimp only
  rw [bind_of_ok (accept_of_not_ahead (h.not_ahead (by decide)))]
  rfl

/-- The loop over suffixes has read the tokens `us`, and holds `e` but for places. -/
def AccessHolds (nested : Parser Expr) (us : List Token) (e : Expr) : Prop :=
  ∀ rest, ∃ e', e'.bare = e.bare ∧
    access nested (us ++ rest) = foldMany (suffix? nested) attach e' rest

theorem accessHolds_attach (hn : ReadsExprs nested 1 n) (hr : Reads nested (SaidAt 1)) {a e : Expr}
    {s : Suffix} (he : e.bare = (attach a s).bare) (hg : s.Grouped) (hl : s.words.length < n + 1)
    {us vs : List Token} (h : AccessHolds nested us a) (hsay : Says vs s.words) :
    AccessHolds nested (us ++ vs) e := by
  intro rest
  obtain ⟨a', ha, hus⟩ := h (vs ++ rest)
  have hread : ReadsBack (suffix? nested) s.words _ fun _ => True := readsBack_suffix hn hr hg hl
  obtain ⟨x, hvs, s', rfl, hs⟩ := hread vs rest hsay trivial
  refine ⟨attach a' s', by rw [he, bare_attach ha hs], ?_⟩
  rw [List.append_assoc, hus, (readsItems_suffix hr).foldMany_of_some attach a' hvs]

theorem access_spine (hn : ReadsExprs nested 1 n) (hr : Reads nested (SaidAt 1)) {e : Expr}
    (hg : e.Grouped) (hl : 6 ≤ e.level) (hlen : e.words.length < n + 1) {us : List Token}
    (hsay : Says us e.words) : AccessHolds nested us e := by
  induction e generalizing us with
  | index span array position iha _ =>
    obtain ⟨hla, hga, hgp⟩ := (grouped_index _ _ _).1 hg
    obtain ⟨us, vs, rfl, hus, hvs⟩ := Says.append_iff.1 hsay
    rw [words, List.length_append] at hlen
    exact accessHolds_attach hn hr (s := .index position .nowhere) rfl hgp
      (Nat.lt_of_le_of_lt (Nat.le_add_left _ _) hlen) (iha hga hla (by omega) hus) hvs
  | length span array iha =>
    obtain ⟨hla, hga⟩ := (grouped_length _ _).1 hg
    obtain ⟨us, vs, rfl, hus, hvs⟩ := Says.append_iff.1 hsay
    rw [words, List.length_append] at hlen
    exact accessHolds_attach hn hr (s := .length .nowhere) rfl trivial
      (Nat.lt_of_le_of_lt (Nat.le_add_left _ _) hlen) (iha hga hla (by omega) hus) hvs
  | call span receiver method args ihr _ =>
    obtain ⟨hlr, hgr, hgs⟩ := (grouped_call _ _ _ _).1 hg
    rw [words, wordsOfAll_eq] at hsay hlen
    obtain ⟨us, vs, rfl, hus, hvs⟩ := Says.append_iff.1 hsay
    rw [List.length_append] at hlen
    refine accessHolds_attach hn hr (s := .call method args .nowhere) ?_ hgs
      (Nat.lt_of_le_of_lt (Nat.le_add_left _ _) hlen) (ihr hgr hlr (by omega) hus) hvs
    simp only [attach, bare]
  | binary span op left right =>
    have := op.level_bounds
    simp only [level] at hl
    omega
  | not => simp [level] at hl
  | _ =>
    intro rest
    obtain ⟨e', he, hbare⟩ := readsExprs_primary hn _ hg (by simp [level]) hlen us rest hsay
      fun t _ => t.kind.grip_lt
    refine ⟨e', hbare, ?_⟩
    rw [access_eq, bind_of_ok he]

theorem readsExprs_access (hn : ReadsExprs nested 1 n) (hr : Reads nested (SaidAt 1)) :
    ReadsExprs (access nested) 6 (n + 1) := by
  intro e hg hl hlen us rest hsay hrest
  obtain ⟨e', hbare, he⟩ := access_spine hn hr hg hl hlen hsay rest
  refine ⟨e', ?_, hbare⟩
  rw [he, (readsItems_suffix hr).foldMany_of_none attach e' (suffix?_of_settled hrest)]

/-! ### Operators -/

theorem readsBack_negation_of_tight (hn : ReadsExprs nested 1 n) (hr : Reads nested (SaidAt 1))
    {e : Expr} (hg : e.Grouped) (hl : 6 ≤ e.level) (hlen : e.words.length < n + 1) :
    ReadsBack (negation nested) e.words (fun e' => e'.bare = e.bare) (Settled 5) := by
  obtain ⟨w, ws, hw, -, hbang⟩ := words_eq_cons hg
  intro us rest hsay hrest
  obtain ⟨e', he, hbare⟩ := readsExprs_access hn hr e hg hl hlen us rest hsay (hrest.mono (by omega))
  rw [hw] at hsay
  obtain ⟨t, us, rfl, ht, -⟩ := Says.cons_iff.1 hsay
  have htk : t.kind ≠ .bang := by
    intro htk
    have : t.word? = some (.fixed .bang) := by simp [Token.word?_eq_fixed, htk]
    exact hbang hl (Option.some.inj (ht.symm.trans this))
  refine ⟨e', ?_, hbare⟩
  rw [List.cons_append, negation, if_neg htk, ← List.cons_append, he]

theorem readsExprs_negation (hn : ReadsExprs nested 1 n) (hr : Reads nested (SaidAt 1)) :
    ReadsExprs (negation nested) 5 (n + 1) := by
  intro e hg hl hlen
  induction e with
  | not span operand ih =>
    obtain ⟨hlo, hgo⟩ := (grouped_not _ _).1 hg
    rw [words, List.length_cons] at hlen
    apply readsBack_first
    intro t ht
    obtain ⟨hk, -⟩ := (Token.word?_eq_fixed t .bang).1 ht
    refine ⟨_, fun ts => negation_cons hk, (ih hgo hlo (by omega)).bind_pure ?_⟩
    intro operand' hbare
    simp only [bare, hbare]
  | binary span op left right =>
    have := op.level_bounds
    simp only [level] at hl
    omega
  | _ => exact readsBack_negation_of_tight hn hr hg (by simp [level]) hlen

section

variable {op? : TokenKind → Option BinaryOp} {level : Nat} {operand : Parser Expr}

theorem operation?_of_settled (hops : KnowsOps op? level) {rest : List Token}
    (h : Settled level rest) : operation? op? operand rest = .ok (none, rest) := by
  have hnone : ∀ t ∈ rest.head?, op? t.kind = none := by
    intro t ht
    rw [Option.eq_none_iff_forall_ne_some]
    intro op hop
    obtain ⟨hl, hk⟩ := (hops _ _).1 hop
    have := h t ht
    rw [← hk, BinaryOp.grip_kind] at this
    omega
  rw [operation?, bind_of_ok (takeIf?_none.2 ⟨rfl, hnone⟩)]
  rfl

/-- The loop over operators has read the tokens `us`, and holds `e` but for places. -/
def ChainHolds (op? : TokenKind → Option BinaryOp) (level : Nat) (operand : Parser Expr)
    (us : List Token) (e : Expr) : Prop :=
  ∀ rest, Settled (level + 1) rest → ∃ e', e'.bare = e.bare ∧
    chain op? operand (us ++ rest) = foldMany (operation? op? operand) joinNext e' rest

theorem chain_spine (hops : KnowsOps op? level) (h4 : level ≤ 4)
    (ho : ReadsExprs operand (level + 1) n) {R : List Token → Expr → Prop} (hr : Reads operand R)
    {e : Expr} (hg : e.Grouped) (hl : level ≤ e.level) (hlen : e.words.length < n)
    {us : List Token} (hsay : Says us e.words) : ChainHolds op? level operand us e := by
  have htight : ∀ {e : Expr} {us : List Token}, e.Grouped → level + 1 ≤ e.level →
      e.words.length < n → Says us e.words → ChainHolds op? level operand us e := by
    intro e us hg hl hlen hsay rest hrest
    obtain ⟨e', he, hbare⟩ := ho e hg hl hlen us rest hsay hrest
    exact ⟨e', hbare, by rw [chain_eq, bind_of_ok he]⟩
  induction e generalizing us with
  | binary span op left right ihl _ =>
    by_cases hop : op.level = level
    · obtain ⟨⟨hll, hlr⟩, hgl, hgr⟩ := (grouped_binary _ _ _ _).1 hg
      rw [words, List.length_append, List.length_cons] at hlen
      obtain ⟨us, vs, rfl, hus, hvs⟩ := Says.append_iff.1 hsay
      obtain ⟨t, vs, rfl, ht, hvs⟩ := Says.cons_iff.1 hvs
      obtain ⟨hk, -⟩ := (Token.word?_eq_fixed t _).1 ht
      intro rest hrest
      have hleft := ihl hgl (by omega) (by omega) hus (t :: (vs ++ rest))
        (settled_cons.2 (by rw [hk, BinaryOp.grip_kind]; omega))
      obtain ⟨left', hbl, hleft⟩ := hleft
      obtain ⟨right', hright, hbr⟩ := ho right hgr (by omega) (by omega) vs rest hvs hrest
      have hitem : operation? op? operand (t :: (vs ++ rest)) = .ok (some (op, right'), rest) := by
        have : op? t.kind = some op := (hops _ _).2 ⟨hop, hk.symm⟩
        rw [operation?, bind_of_ok (takeIf?_some.2 ⟨t, rfl, this⟩)]
        exact bind_ok.2 ⟨right', rest, hright, rfl⟩
      refine ⟨joinNext left' (op, right'), by simp only [joinNext, join, bare, hbl, hbr], ?_⟩
      rw [List.append_assoc, List.cons_append, hleft,
        (readsItems_operation hr).foldMany_of_some joinNext left' hitem]
    · refine htight hg ?_ hlen hsay
      simp only [Expr.level] at hl ⊢
      omega
  | _ =>
    refine htight hg ?_ hlen hsay
    simp only [Expr.level]
    omega

theorem readsExprs_chain (hops : KnowsOps op? level) (h4 : level ≤ 4)
    (ho : ReadsExprs operand (level + 1) n) {R : List Token → Expr → Prop} (hr : Reads operand R) :
    ReadsExprs (chain op? operand) level n := by
  intro e hg hl hlen us rest hsay hrest
  obtain ⟨e', hbare, he⟩ := chain_spine hops h4 ho hr hg hl hlen hsay rest (hrest.mono (by omega))
  refine ⟨e', ?_, hbare⟩
  rw [he, (readsItems_operation hr).foldMany_of_none joinNext e' (operation?_of_settled hops hrest)]

end

theorem readsExprs_parseWithin (depth : Nat) : ReadsExprs (parseWithin depth) 1 depth := by
  induction depth with
  | zero => exact fun e hg hl hlen => absurd hlen (Nat.not_lt_zero _)
  | succ depth ih =>
    have hr := reads_parseWithin depth
    have hnegation := reads_negation hr
    have hproduct := reads_chain knowsOps_product hnegation
    have hsum := reads_chain knowsOps_sum hproduct
    have hcomparison := reads_chain knowsOps_comparison hsum
    apply readsExprs_chain knowsOps_conjunction (by omega) _ hcomparison
    apply readsExprs_chain knowsOps_comparison (by omega) _ hsum
    apply readsExprs_chain knowsOps_sum (by omega) _ hproduct
    apply readsExprs_chain knowsOps_product (by omega) _ hnegation
    exact readsExprs_negation ih hr

/-- A grouped expression is read back, unless what follows it could belong to it. -/
theorem readsBack_parse {e : Expr} (hg : e.Grouped) :
    ReadsBack Expr.parse e.words (fun e' => e'.bare = e.bare) (Settled 1) := by
  intro us rest hsay hrest
  have hlen : e.words.length < (us ++ rest).length + 1 := by
    rw [List.length_append, ← hsay.length_eq]
    omega
  exact readsExprs_parseWithin _ e hg e.level_pos hlen us rest hsay hrest

end Expr

/-! ## Statements -/

namespace Stmt

/-- The kinds of token with which a statement can begin. -/
def openers : List TokenKind := [.leftBrace, .ifWord, .whileWord, .print, .identifier]

theorem opens_of_says {s : Stmt} {us : List Token} (h : Says us s.words) :
    ∃ t ts, us = t :: ts ∧ t.kind ∈ openers := by
  cases s with
  | assign | arrayAssign =>
    obtain ⟨t, ts, rfl, ht, -⟩ := Says.cons_iff.1 h
    exact ⟨t, ts, rfl, by simp [openers, ((Token.word?_eq_name t _).1 ht).1]⟩
  | block | ifElse | loop | print =>
    obtain ⟨t, ts, rfl, ht, -⟩ := Says.cons_iff.1 h
    exact ⟨t, ts, rfl, by simp [openers, ((Token.word?_eq_fixed t _).1 ht).1]⟩

theorem not_ahead_of_opens {kind : TokenKind} (hk : kind ∉ openers) {t : Token} {ts : List Token}
    (ht : t.kind ∈ openers) : ahead kind (t :: ts) = false := by
  rw [ahead_eq_false]
  simp only [List.head?_cons, Option.mem_some_iff, forall_eq']
  rintro rfl
  exact hk ht

def ReadsStmts (p : Parser Stmt) (bound : Nat) : Prop :=
  ∀ s : Stmt, s.Grouped → s.words.length < bound →
    ReadsBack p s.words (fun s' => s'.bare = s.bare) fun _ => True

variable {nested : Parser Stmt} {n : Nat} {ends : List Token → Prop}

theorem readsBack_sequence {stops : List Token → Bool} (hr : Reads nested Said)
    (hstops : ∀ t ts, t.kind ∈ openers → stops (t :: ts) = false) {body : List Stmt}
    (h : ∀ s ∈ body, ReadsBack nested s.words (fun s' => s'.bare = s.bare) fun _ => True) :
    ReadsBack (sequence nested stops) (body.flatMap words)
      (fun body' => body'.map bare = body.map bare) fun rest => stops rest = true := by
  have hitems : ReadsItems (itemWhile (fun ts => !ts.isEmpty && !stops ts) nested) _ :=
    readsItems_words rfl words_ne_nil hr
  intro us rest hsay hrest
  refine readsBack_manyWhile hitems body h ?_ us rest hsay (by simp [hrest])
  intro s _ us rest hus
  obtain ⟨t, ts, rfl, ht⟩ := opens_of_says hus
  simp [hstops t _ ht]

theorem readsBack_blockBody (hn : ReadsStmts nested n) (hr : Reads nested Said) {body : List Stmt}
    (hg : (block body).Grouped) (hl : (body.flatMap words).length < n) :
    ReadsBack (blockBody nested) (body.flatMap words ++ [.fixed .rightBrace])
      (fun s => s.bare = (block body).bare) ends := by
  have hbody : ∀ s ∈ body, ReadsBack nested s.words (fun s' => s'.bare = s.bare) fun _ => True := by
    intro s hs
    simp only [Grouped, exprs, exprsOfAll_eq, List.forall_mem_flatMap] at hg
    have := length_le_flatMap hs words
    exact hn s (hg s hs) (by omega)
  apply (readsBack_sequence hr (fun t ts => not_ahead_of_opens (by decide)) hbody).bind_fixed
    fun t ts ht => by simp [ahead, ht]
  intro body' hbare
  apply readsBack_expect_bind
  intro c hc
  apply readsBack_pure
  simp only [bare, bareAll_eq, hbare]

theorem readsBack_assign (target : Ident) {i : Ident} (hi : i.name = target.name) {value : Expr}
    (hg : value.Grouped) :
    ReadsBack (assignment i) (.fixed .equal :: (value.words ++ [.fixed .semicolon]))
      (fun s => s.bare = (assign target value).bare) ends := by
  apply readsBack_accept_none_bind
  · apply neverAhead_cons
    intro t ht
    simp [((Token.word?_eq_fixed t _).1 ht).1]
  apply readsBack_expect_bind
  intro q hq
  apply (Expr.readsBack_parse hg).bind_fixed (settled_of_kind rfl)
  intro value' hvalue
  apply readsBack_expect_bind
  intro d hd
  apply readsBack_pure
  simp only [bare, Ident.bare, hi, hvalue]

theorem readsBack_arrayAssign (target : Ident) {i : Ident} (hi : i.name = target.name)
    {index value : Expr} (hgi : index.Grouped) (hgv : value.Grouped) :
    ReadsBack (assignment i) (.fixed .leftBracket :: (index.words ++ .fixed .rightBracket ::
        .fixed .equal :: (value.words ++ [.fixed .semicolon])))
      (fun s => s.bare = (arrayAssign target index value).bare) ends := by
  apply readsBack_accept_bind
  intro o ho
  apply (Expr.readsBack_parse hgi).bind_fixed (settled_of_kind rfl)
  intro index' hindex
  apply readsBack_expect_bind
  intro c hc
  apply readsBack_expect_bind
  intro q hq
  apply (Expr.readsBack_parse hgv).bind_fixed (settled_of_kind rfl)
  intro value' hvalue
  apply readsBack_expect_bind
  intro d hd
  apply readsBack_pure
  simp only [bare, Ident.bare, hi, hindex, hvalue]

theorem readsBack_conditional {condition : Expr} {thenBranch elseBranch : Stmt}
    (hc : condition.Grouped)
    (ht : ReadsBack nested thenBranch.words (fun s => s.bare = thenBranch.bare) fun _ => True)
    (he : ReadsBack nested elseBranch.words (fun s => s.bare = elseBranch.bare) ends) :
    ReadsBack (conditional nested) (.fixed .leftParen :: (condition.words ++ .fixed .rightParen ::
        (thenBranch.words ++ .fixed .elseWord :: elseBranch.words)))
      (fun s => s.bare = (ifElse condition thenBranch elseBranch).bare) ends := by
  apply readsBack_expect_bind
  intro o ho
  apply (Expr.readsBack_parse hc).bind_fixed (settled_of_kind rfl)
  intro condition' hcondition
  apply readsBack_expect_bind
  intro p hp
  apply ht.bind (fun _ _ _ _ => trivial)
  intro then' hthen
  apply readsBack_expect_bind
  intro l hl
  apply he.bind_pure
  intro else' helse
  simp only [bare, hcondition, hthen, helse]

theorem readsBack_whileLoop {condition : Expr} {body : Stmt} (hc : condition.Grouped)
    (hb : ReadsBack nested body.words (fun s => s.bare = body.bare) ends) :
    ReadsBack (whileLoop nested)
      (.fixed .leftParen :: (condition.words ++ .fixed .rightParen :: body.words))
      (fun s => s.bare = (loop condition body).bare) ends := by
  apply readsBack_expect_bind
  intro o ho
  apply (Expr.readsBack_parse hc).bind_fixed (settled_of_kind rfl)
  intro condition' hcondition
  apply readsBack_expect_bind
  intro p hp
  apply hb.bind_pure
  intro body' hbody
  simp only [bare, hcondition, hbody]

theorem readsBack_printStmt {value : Expr} (hg : value.Grouped) :
    ReadsBack printStmt
      (.fixed .leftParen :: (value.words ++ [.fixed .rightParen, .fixed .semicolon]))
      (fun s => s.bare = (print value).bare) ends := by
  apply readsBack_expect_bind
  intro o ho
  apply (Expr.readsBack_parse hg).bind_fixed (settled_of_kind rfl)
  intro value' hvalue
  apply readsBack_expect_bind
  intro c hc
  apply readsBack_expect_bind
  intro d hd
  apply readsBack_pure
  simp only [bare, hvalue]

theorem readsStmts_ofFirst (hn : ReadsStmts nested n) (hr : Reads nested Said) :
    ReadsStmts (ofFirst nested) (n + 1) := by
  intro s hg hlen
  cases s with
  | block body =>
    rw [words, wordsOfAll_eq, List.length_cons, List.length_append] at hlen
    rw [words, wordsOfAll_eq]
    apply readsBack_first
    intro t ht
    obtain ⟨hk, -⟩ := (Token.word?_eq_fixed t _).1 ht
    exact ⟨_, fun ts => by rw [ofFirst, hk], readsBack_blockBody hn hr hg (by omega)⟩
  | assign target value =>
    apply readsBack_first
    intro t ht
    obtain ⟨hk, hl⟩ := (Token.word?_eq_name t _).1 ht
    exact ⟨_, fun ts => by rw [ofFirst, hk], readsBack_assign target hl hg⟩
  | arrayAssign target index value =>
    obtain ⟨hgi, hgv⟩ := List.forall_mem_append.1 hg
    apply readsBack_first
    intro t ht
    obtain ⟨hk, hl⟩ := (Token.word?_eq_name t _).1 ht
    exact ⟨_, fun ts => by rw [ofFirst, hk], readsBack_arrayAssign target hl hgi hgv⟩
  | ifElse condition thenBranch elseBranch =>
    obtain ⟨hgc, hgs⟩ := List.forall_mem_append.1 hg
    obtain ⟨hgt, hge⟩ := List.forall_mem_append.1 hgs
    simp only [words, List.length_cons, List.length_append] at hlen
    apply readsBack_first
    intro t ht
    obtain ⟨hk, -⟩ := (Token.word?_eq_fixed t _).1 ht
    exact ⟨_, fun ts => by rw [ofFirst, hk],
      readsBack_conditional hgc (hn _ hgt (by omega)) (hn _ hge (by omega))⟩
  | loop condition body =>
    obtain ⟨hgc, hgb⟩ := List.forall_mem_append.1 hg
    simp only [words, List.length_cons, List.length_append] at hlen
    apply readsBack_first
    intro t ht
    obtain ⟨hk, -⟩ := (Token.word?_eq_fixed t _).1 ht
    exact ⟨_, fun ts => by rw [ofFirst, hk], readsBack_whileLoop hgc (hn _ hgb (by omega))⟩
  | print value =>
    apply readsBack_first
    intro t ht
    obtain ⟨hk, -⟩ := (Token.word?_eq_fixed t _).1 ht
    exact ⟨_, fun ts => by rw [ofFirst, hk], readsBack_printStmt hg⟩

theorem readsStmts_parseWithin (depth : Nat) : ReadsStmts (parseWithin depth) depth := by
  induction depth with
  | zero => exact fun s hg hlen => absurd hlen (Nat.not_lt_zero _)
  | succ depth ih => exact readsStmts_ofFirst ih (reads_parseWithin depth)

theorem readsBack_parse {s : Stmt} (hg : s.Grouped) :
    ReadsBack Stmt.parse s.words (fun s' => s'.bare = s.bare) fun _ => True := by
  intro us rest hsay hrest
  have hlen : s.words.length < (us ++ rest).length + 1 := by
    rw [List.length_append, ← hsay.length_eq]
    omega
  exact readsStmts_parseWithin _ s hg hlen us rest hsay hrest

end Stmt

end ClassCheck
