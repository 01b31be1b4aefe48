import ClassCheck.Proofs.Parser.Decl
import ClassCheck.Proofs.Grammar.Levels
import ClassCheck.Proofs.Grammar.Steps

/-!
# What is read is what the tokens say

Whatever a parser takes, the tree that it gives has just these words, in this order, and its
expressions are grouped as the grammar asks.
-/

namespace ClassCheck

open ClassCheck.Parser

/-! ## Lists -/

section

variable {α : Type} {item : Parser α} {f : α → List Word} {Q : α → Prop}

theorem reads_commaSeparated (h : Reads item fun used a => Says used (f a) ∧ Q a) :
    Reads (commaSeparated item) fun used as => Says used (commas (as.map f)) ∧ ∀ a ∈ as, Q a := by
  have hothers := (readsItems_afterComma h).reads_many
    (S := fun used as => Says used (as.flatMap fun a => .fixed .comma :: f a) ∧ ∀ a ∈ as, Q a)
    ⟨rfl, by simp⟩ (by
      rintro u a vs as ⟨t, ws, rfl, ht, hsay, hQ⟩ ⟨hall, hQs⟩
      refine ⟨?_, List.forall_mem_cons.2 ⟨hQ, hQs⟩⟩
      rw [List.flatMap_cons, List.cons_append, List.cons_append, Says.cons_cons]
      exact ⟨by simp [Token.word?_eq_fixed, ht], hsay.append hall⟩)
  rw [commaSeparated_eq]
  apply h.bind
  rintro first us ⟨hsay, hQ⟩
  apply hothers.bind
  rintro others vs ⟨hall, hQs⟩
  apply reads_pure
  refine ⟨?_, List.forall_mem_cons.2 ⟨hQ, hQs⟩⟩
  rw [List.map_cons, commas_cons, List.flatMap_map, List.append_nil]
  exact hsay.append hall

theorem readsItems_words {more : List Token → Bool} (hnil : more [] = false) (hf : ∀ a, f a ≠ [])
    (h : Reads item fun used a => Says used (f a) ∧ Q a) :
    ReadsItems (itemWhile more item) fun used a => Says used (f a) ∧ Q a := by
  apply readsItems_while hnil
  apply h.mono
  rintro used a ⟨hsay, hQ⟩
  refine ⟨?_, hsay, hQ⟩
  rintro rfl
  exact hf a (List.eq_nil_of_length_eq_zero hsay.length_eq.symm)

theorem reads_manyWhile {more : List Token → Bool} (hnil : more [] = false) (hf : ∀ a, f a ≠ [])
    (h : Reads item fun used a => Says used (f a) ∧ Q a) :
    Reads (manyWhile more item) fun used as => Says used (as.flatMap f) ∧ ∀ a ∈ as, Q a := by
  apply (readsItems_words hnil hf h).reads_many
  · exact ⟨rfl, by simp⟩
  · rintro u a us as ⟨hsay, hQ⟩ ⟨hall, hQs⟩
    exact ⟨hsay.append hall, List.forall_mem_cons.2 ⟨hQ, hQs⟩⟩

end

/-! ## Operands -/

namespace Expr

/-- The tokens say the expression, which is grouped and holds together at this level or a tighter
one. -/
def SaidAt (level : Nat) (used : List Token) (e : Expr) : Prop :=
  Says used e.words ∧ e.Grouped ∧ level ≤ e.level

theorem SaidAt.mono {m n : Nat} {used : List Token} {e : Expr} (h : SaidAt n used e) (hmn : m ≤ n) :
    SaidAt m used e :=
  ⟨h.1, h.2.1, Nat.le_trans hmn h.2.2⟩

variable {nested : Parser Expr} {t : Token}

theorem reads_allocation (hn : Reads nested (SaidAt 1)) (ht : t.kind = .newWord) :
    Reads (allocation nested t.span) fun used e => SaidAt 7 (t :: used) e := by
  apply reads_accept_bind
  · intro i hi
    apply reads_expect_bind
    intro o ho
    apply hn.bind
    rintro size us ⟨hsay, hg, -⟩
    apply reads_expect_bind
    intro c hc
    apply reads_pure
    refine ⟨?_, (grouped_newArray _ _).2 hg, Nat.le_refl _⟩
    simp [words, Says.cons_cons, Says.append_right hsay, Token.word?_eq_fixed, Says.nil_iff, *]
  · apply reads_expectIdent_bind
    intro i hi
    apply reads_expect_bind
    intro o ho
    apply reads_expect_bind
    intro c hc
    apply reads_pure
    refine ⟨?_, grouped_of_leaf rfl trivial, Nat.le_refl _⟩
    simp [words, Says.cons_cons, Token.word?_eq_fixed, Token.word?_eq_name, Says.nil_iff, *]

theorem reads_parenthesized (hn : Reads nested (SaidAt 1)) (ht : t.kind = .leftParen) :
    Reads (parenthesized nested t.span) fun used e => SaidAt 7 (t :: used) e := by
  apply hn.bind
  rintro inner us ⟨hsay, hg, -⟩
  apply reads_expect_bind
  intro c hc
  apply reads_pure
  refine ⟨?_, (grouped_paren _ _).2 hg, Nat.le_refl _⟩
  simp [words, Says.cons_cons, Says.append_right hsay, Token.word?_eq_fixed, Says.nil_iff, *]

theorem saidAt_int {value : Int} (ht : t.kind = .number) (hv : Literal.read? t.lexeme = some value) :
    SaidAt 7 [t] (.int t.span value) := by
  refine ⟨?_, grouped_of_leaf rfl trivial, Nat.le_refl _⟩
  simp [words, Says.cons_cons, Token.word?_eq_number, Says.nil_iff, ht, hv]

theorem saidAt_bool (value : Bool) (ht : t.kind = if value then .trueWord else .falseWord) :
    SaidAt 7 [t] (.bool t.span value) := by
  refine ⟨?_, grouped_of_leaf rfl trivial, Nat.le_refl _⟩
  cases value <;> simp [words, Says.cons_cons, Token.word?_eq_fixed, Says.nil_iff, ht]

theorem saidAt_ident (ht : t.kind = .identifier) : SaidAt 7 [t] (.ident t.span t.lexeme) := by
  refine ⟨?_, grouped_of_leaf rfl trivial, Nat.le_refl _⟩
  simp [words, Says.cons_cons, Token.word?_eq_name, Says.nil_iff, ht]

theorem saidAt_this (ht : t.kind = .thisWord) : SaidAt 7 [t] (.this t.span) := by
  refine ⟨?_, grouped_of_leaf rfl trivial, Nat.le_refl _⟩
  simp [words, Says.cons_cons, Token.word?_eq_fixed, Says.nil_iff, ht]

theorem reads_primary (hn : Reads nested (SaidAt 1)) : Reads (primary nested) (SaidAt 7) := by
  intro ts e rest h
  cases ts with
  | nil => exact (fail_ne_ok h).elim
  | cons t ts =>
    rw [primary] at h
    split at h
    · next ht =>
      split at h
      · next value hv => exact (reads_pure (b := .int t.span value) (saidAt_int ht hv)).after h
      · exact (fail_ne_ok h).elim
    · next ht => exact (reads_pure (b := .bool t.span true) (saidAt_bool true ht)).after h
    · next ht => exact (reads_pure (b := .bool t.span false) (saidAt_bool false ht)).after h
    · next ht => exact (reads_pure (b := .ident t.span t.lexeme) (saidAt_ident ht)).after h
    · next ht => exact (reads_pure (b := .this t.span) (saidAt_this ht)).after h
    · next ht => exact (reads_allocation hn ht).after h
    · next ht => exact (reads_parenthesized hn ht).after h
    · exact (fail_ne_ok h).elim

/-! ## What may follow an operand -/

theorem reads_arguments (hn : Reads nested (SaidAt 1)) :
    Reads (arguments nested) fun used args =>
      Says used (commas (args.map words)) ∧ ∀ arg ∈ args, arg.Grouped := by
  intro ts args rest h
  rw [arguments] at h
  split at h
  · obtain ⟨rfl, rfl⟩ := pure_ok.1 h
    exact ⟨[], rfl, rfl, by simp⟩
  · exact reads_commaSeparated (hn.mono fun _ _ h => ⟨h.1, h.2.1⟩) h

theorem readsItems_suffix (hn : Reads nested (SaidAt 1)) :
    ReadsItems (suffix? nested) fun used s => Says used s.words ∧ s.Grouped where
  nil := rfl
  reads := by
    apply reads_accept_bind
    · intro o ho
      apply hn.bind
      rintro position us ⟨hsay, hg, -⟩
      apply reads_expect_bind
      intro c hc
      apply reads_pure
      refine ⟨by simp, ?_, hg⟩
      simp [Suffix.words, Says.cons_cons, Says.append_right hsay, Token.word?_eq_fixed,
        Says.nil_iff, *]
    apply reads_accept_bind
    · intro d hd
      apply reads_accept_bind
      · intro l hl
        apply reads_pure
        refine ⟨by simp, ?_, trivial⟩
        simp [Suffix.words, Says.cons_cons, Token.word?_eq_fixed, Says.nil_iff, *]
      apply reads_expectIdent_bind
      intro m hm
      apply reads_expect_bind
      intro o ho
      apply (reads_arguments hn).bind
      rintro args us ⟨hsay, hg⟩
      apply reads_expect_bind
      intro c hc
      apply reads_pure
      refine ⟨by simp, ?_, hg⟩
      simp [Suffix.words, Says.cons_cons, Says.append_right hsay, Token.word?_eq_fixed,
        Token.word?_eq_name, Says.nil_iff, *]
    · exact reads_pure rfl

theorem access_eq (nested : Parser Expr) :
    access nested = (primary nested >>= foldMany (suffix? nested) attach) := rfl

theorem reads_access (hn : Reads nested (SaidAt 1)) : Reads (access nested) (SaidAt 6) := by
  have hstep : ∀ used e u s, SaidAt 6 used e → (Says u s.words ∧ s.Grouped) →
      SaidAt 6 (used ++ u) (attach e s) := by
    rintro used e u s ⟨hsay, hg, hl⟩ ⟨hs, hsg⟩
    refine ⟨?_, (grouped_attach e s).2 ⟨hl, hg, hsg⟩, Nat.le_of_eq (level_attach e s).symm⟩
    rw [words_attach]
    exact hsay.append hs
  rw [access_eq]
  apply (reads_primary hn).bind
  intro operand us ho
  exact (readsItems_suffix hn).reads_foldMany hstep (ho.mono (by omega))

/-! ## Operators -/

theorem reads_negation (hn : Reads nested (SaidAt 1)) : Reads (negation nested) (SaidAt 5) := by
  have haccess : Reads (access nested) (SaidAt 5) :=
    (reads_access hn).mono fun _ _ h => h.mono (by omega)
  intro ts e rest h
  induction ts generalizing e with
  | nil => exact haccess h
  | cons t ts ih =>
    by_cases ht : t.kind = .bang
    · rw [negation_cons ht, bind_ok] at h
      obtain ⟨operand, mid, ho, h⟩ := h
      obtain ⟨rfl, rfl⟩ := pure_ok.1 h
      obtain ⟨used, rfl, hsay, hg, hl⟩ := ih ho
      refine ⟨t :: used, rfl, ?_, (grouped_not _ _).2 ⟨hl, hg⟩, Nat.le_refl _⟩
      simp [words, Says.cons_cons, Token.word?_eq_fixed, ht, hsay]
    · rw [negation, if_neg ht] at h
      exact haccess h

theorem chain_eq (op? : TokenKind → Option BinaryOp) (operand : Parser Expr) :
    chain op? operand = (operand >>= foldMany (operation? op? operand) joinNext) := rfl

theorem readsItems_operation {op? : TokenKind → Option BinaryOp} {operand : Parser Expr}
    {R : List Token → Expr → Prop} (h : Reads operand R) :
    ReadsItems (operation? op? operand) fun used next =>
      ∃ t us, used = t :: us ∧ op? t.kind = some next.1 ∧ R us next.2 where
  nil := rfl
  reads := by
    intro ts x rest hx
    rw [operation?, bind_ok] at hx
    obtain ⟨y, mid, hy, hx⟩ := hx
    cases y with
    | none =>
      obtain ⟨rfl, -⟩ := takeIf?_none.1 hy
      obtain ⟨rfl, rfl⟩ := pure_ok.1 hx
      exact ⟨[], rfl, rfl⟩
    | some op =>
      obtain ⟨t, rfl, hop⟩ := takeIf?_some.1 hy
      obtain ⟨e, mid', he, hx⟩ := bind_ok.1 hx
      obtain ⟨rfl, rfl⟩ := pure_ok.1 hx
      obtain ⟨us, rfl, hR⟩ := h he
      exact ⟨t :: us, rfl, by simp, t, us, rfl, hop, hR⟩

theorem reads_chain {op? : TokenKind → Option BinaryOp} {level : Nat} {operand : Parser Expr}
    (hops : KnowsOps op? level) (h : Reads operand (SaidAt (level + 1))) :
    Reads (chain op? operand) (SaidAt level) := by
  have hstep : ∀ used left u next, SaidAt level used left →
      (∃ t vs, u = t :: vs ∧ op? t.kind = some next.1 ∧ SaidAt (level + 1) vs next.2) →
      SaidAt level (used ++ u) (joinNext left next) := by
    rintro used left u ⟨op, right⟩ ⟨hsay, hg, hl⟩ ⟨t, vs, rfl, hop, hsay', hg', hl'⟩
    obtain ⟨hlevel, hkind⟩ := (hops _ _).1 hop
    refine ⟨?_, (grouped_binary _ _ _ _).2 ⟨⟨by omega, by omega⟩, hg, hg'⟩,
      Nat.le_of_eq hlevel.symm⟩
    apply hsay.append
    rw [Says.cons_cons, Token.word?_eq_fixed]
    refine ⟨⟨hkind.symm, ?_⟩, hsay'⟩
    cases op <;> simp [BinaryOp.kind]
  rw [chain_eq]
  apply h.bind
  intro first us hfirst
  exact (readsItems_operation h).reads_foldMany hstep (hfirst.mono (by omega))

theorem reads_parseWithin (depth : Nat) : Reads (parseWithin depth) (SaidAt 1) := by
  induction depth with
  | zero => exact reads_fail
  | succ depth ih =>
    apply reads_chain knowsOps_conjunction
    apply reads_chain knowsOps_comparison
    apply reads_chain knowsOps_sum
    apply reads_chain knowsOps_product
    exact reads_negation ih

theorem reads_parse : Reads parse fun used e => Says used e.words ∧ e.Grouped := by
  intro ts e rest h
  obtain ⟨used, hu, hsay, hg, -⟩ := reads_parseWithin _ h
  exact ⟨used, hu, hsay, hg⟩

end Expr

/-! ## Statements -/

namespace Stmt

def Grouped (s : Stmt) : Prop := ∀ e ∈ s.exprs, e.TopGrouped

/-- The tokens say the statement, and its expressions are grouped. -/
def Said (used : List Token) (s : Stmt) : Prop := Says used s.words ∧ s.Grouped

variable {nested : Parser Stmt} {t : Token}

theorem reads_sequence {ends : List Token → Bool} (hn : Reads nested Said) :
    Reads (sequence nested ends) fun used body =>
      Says used (body.flatMap words) ∧ ∀ s ∈ body, s.Grouped :=
  reads_manyWhile rfl words_ne_nil hn

theorem reads_blockBody (hn : Reads nested Said) (ht : t.kind = .leftBrace) :
    Reads (blockBody nested) fun used s => Said (t :: used) s := by
  apply (reads_sequence hn).bind
  rintro body us ⟨hsay, hg⟩
  apply reads_expect_bind
  intro c hc
  apply reads_pure
  refine ⟨?_, ?_⟩
  · simp [words, Says.cons_cons, Says.append_right hsay, Token.word?_eq_fixed, Says.nil_iff, *]
  · simpa only [Grouped, exprs, exprsOfAll_eq, List.forall_mem_flatMap] using hg

theorem reads_assignment (ht : t.kind = .identifier) :
    Reads (assignment ⟨t.lexeme, t.span⟩) fun used s => Said (t :: used) s := by
  apply reads_accept_bind
  · intro o ho
    apply Expr.reads_parse.bind
    rintro position us ⟨hsay, hg⟩
    apply reads_expect_bind
    intro c hc
    apply reads_expect_bind
    intro q hq
    apply Expr.reads_parse.bind
    rintro value vs ⟨hsay', hg'⟩
    apply reads_expect_bind
    intro d hd
    apply reads_pure
    refine ⟨?_, List.forall_mem_append.2 ⟨hg, hg'⟩⟩
    simp [words, Says.cons_cons, Says.append_right hsay, Says.append_right hsay',
      Token.word?_eq_fixed, Token.word?_eq_name, Says.nil_iff, *]
  · apply reads_expect_bind
    intro q hq
    apply Expr.reads_parse.bind
    rintro value us ⟨hsay, hg⟩
    apply reads_expect_bind
    intro d hd
    apply reads_pure
    refine ⟨?_, hg⟩
    simp [words, Says.cons_cons, Says.append_right hsay, Token.word?_eq_fixed,
      Token.word?_eq_name, Says.nil_iff, *]

theorem reads_conditional (hn : Reads nested Said) (ht : t.kind = .ifWord) :
    Reads (conditional nested) fun used s => Said (t :: used) s := by
  apply reads_expect_bind
  intro o ho
  apply Expr.reads_parse.bind
  rintro condition us ⟨hsay, hg⟩
  apply reads_expect_bind
  intro c hc
  apply hn.bind
  rintro thenBranch vs ⟨hsay', hg'⟩
  apply reads_expect_bind
  intro l hl
  apply hn.bind
  rintro elseBranch ws ⟨hsay'', hg''⟩
  apply reads_pure
  refine ⟨?_, List.forall_mem_append.2 ⟨hg, List.forall_mem_append.2 ⟨hg', hg''⟩⟩⟩
  simp [words, Says.cons_cons, Says.append_right hsay, Says.append_right hsay',
    Token.word?_eq_fixed, *]

theorem reads_whileLoop (hn : Reads nested Said) (ht : t.kind = .whileWord) :
    Reads (whileLoop nested) fun used s => Said (t :: used) s := by
  apply reads_expect_bind
  intro o ho
  apply Expr.reads_parse.bind
  rintro condition us ⟨hsay, hg⟩
  apply reads_expect_bind
  intro c hc
  apply hn.bind
  rintro body vs ⟨hsay', hg'⟩
  apply reads_pure
  refine ⟨?_, List.forall_mem_append.2 ⟨hg, hg'⟩⟩
  simp [words, Says.cons_cons, Says.append_right hsay, Token.word?_eq_fixed, *]

theorem reads_printStmt (ht : t.kind = .print) :
    Reads printStmt fun used s => Said (t :: used) s := by
  apply reads_expect_bind
  intro o ho
  apply Expr.reads_parse.bind
  rintro value us ⟨hsay, hg⟩
  apply reads_expect_bind
  intro c hc
  apply reads_expect_bind
  intro d hd
  apply reads_pure
  refine ⟨?_, hg⟩
  simp [words, Says.cons_cons, Says.append_right hsay, Token.word?_eq_fixed, Says.nil_iff, *]

theorem reads_ofFirst (hn : Reads nested Said) : Reads (ofFirst nested) Said := by
  intro ts s rest h
  cases ts with
  | nil => exact (fail_ne_ok h).elim
  | cons t ts =>
    rw [ofFirst] at h
    split at h
    · next ht => exact (reads_blockBody hn ht).after h
    · next ht => exact (reads_conditional hn ht).after h
    · next ht => exact (reads_whileLoop hn ht).after h
    · next ht => exact (reads_printStmt ht).after h
    · next ht => exact (reads_assignment ht).after h
    · exact (fail_ne_ok h).elim

theorem reads_parseWithin (depth : Nat) : Reads (parseWithin depth) Said := by
  induction depth with
  | zero => exact reads_fail
  | succ depth ih => exact reads_ofFirst ih

theorem reads_parse : Reads parse Said := fun _ _ _ h => reads_parseWithin _ h

end Stmt

/-! ## Declarations -/

def TypeRef.Said (used : List Token) (r : TypeRef) : Prop := Says used r.name.words

theorem TypeRef.reads_parse : Reads TypeRef.parse TypeRef.Said := by
  intro ts r rest h
  cases ts with
  | nil => exact (fail_ne_ok h).elim
  | cons t ts =>
    rw [TypeRef.parse] at h
    split at h
    · next ht =>
      refine Reads.after (S := TypeRef.Said) (reads_accept_bind ?_ ?_) h
      · intro o ho
        apply reads_expect_bind
        intro c hc
        apply reads_pure
        simp [TypeRef.Said, TypeName.words, Says.cons_cons, Token.word?_eq_fixed, Says.nil_iff, *]
      · apply reads_pure
        simp [TypeRef.Said, TypeName.words, Says.cons_cons, Token.word?_eq_fixed, Says.nil_iff, ht]
    · next ht =>
      refine Reads.after (S := TypeRef.Said) (reads_pure (b := ⟨.boolean, t.span⟩) ?_) h
      simp [TypeRef.Said, TypeName.words, Says.cons_cons, Token.word?_eq_fixed, Says.nil_iff, ht]
    · next ht =>
      refine Reads.after (S := TypeRef.Said) (reads_pure (b := ⟨.named t.lexeme, t.span⟩) ?_) h
      simp [TypeRef.Said, TypeName.words, Says.cons_cons, Token.word?_eq_name, Says.nil_iff, ht]
    · exact (fail_ne_ok h).elim

namespace VarDecl

theorem reads_parse (what : String) : Reads (parse what) fun used d => Says used d.words ∧ True := by
  apply TypeRef.reads_parse.bind
  intro type us hsay
  apply reads_expectIdent_bind
  intro i hi
  apply reads_pure
  simp [words, Says.append_right hsay, Says.cons_cons, Token.word?_eq_name, Says.nil_iff, hi]

theorem reads_parseEnded : Reads parseEnded fun used d => Says used d.endedWords ∧ True := by
  apply (reads_parse _).bind
  rintro d us ⟨hsay, -⟩
  apply reads_expect_bind
  intro c hc
  apply reads_pure
  simp [endedWords, Says.append_right hsay, Says.cons_cons, Token.word?_eq_fixed, Says.nil_iff, hc]

theorem reads_parseAll : Reads parseAll fun used ds => Says used (ds.flatMap endedWords) :=
  (reads_manyWhile rfl (by simp [endedWords]) reads_parseEnded).mono fun _ _ h => h.1

theorem reads_parseParams : Reads parseParams fun used ds => Says used (commas (ds.map words)) := by
  intro ts ds rest h
  rw [parseParams] at h
  split at h
  · obtain ⟨rfl, rfl⟩ := pure_ok.1 h
    exact ⟨[], rfl, rfl⟩
  · obtain ⟨used, hu, hsay, -⟩ := reads_commaSeparated (reads_parse _) h
    exact ⟨used, hu, hsay⟩

end VarDecl

namespace MethodDecl

def Grouped (d : MethodDecl) : Prop := ∀ e ∈ d.exprs, e.TopGrouped

theorem reads_parse : Reads parse fun used d => Says used d.words ∧ d.Grouped := by
  apply reads_expect_bind
  intro p hp
  apply TypeRef.reads_parse.bind
  intro returnType rs hrs
  apply reads_expectIdent_bind
  intro i hi
  apply reads_expect_bind
  intro o ho
  apply VarDecl.reads_parseParams.bind
  intro params ps hps
  apply reads_expect_bind
  intro c hc
  apply reads_expect_bind
  intro b hb
  apply VarDecl.reads_parseAll.bind
  intro locals ls hls
  apply (Stmt.reads_sequence Stmt.reads_parse).bind
  rintro body bs ⟨hbs, hbody⟩
  apply reads_expect_bind
  intro r hr
  apply Expr.reads_parse.bind
  rintro returned es ⟨hes, hreturned⟩
  apply reads_expect_bind
  intro s hs
  apply reads_expect_bind
  intro e he
  apply reads_pure
  refine ⟨?_, List.forall_mem_append.2 ⟨List.forall_mem_flatMap.2 hbody, hreturned⟩⟩
  simp [words, Says.cons_cons, Says.append_right hrs, Says.append_right hps,
    Says.append_right hls, Says.append_right hbs, Says.append_right hes, Token.word?_eq_fixed,
    Token.word?_eq_name, Says.nil_iff, *]

end MethodDecl

namespace ClassDecl

def Grouped (d : ClassDecl) : Prop := ∀ e ∈ d.exprs, e.TopGrouped

theorem reads_superclass : Reads superclass? fun used s => Says used (superclassWords s) := by
  apply reads_accept_bind
  · intro e he
    apply reads_expectIdent_bind
    intro i hi
    apply reads_pure
    simp [superclassWords, Says.cons_cons, Token.word?_eq_fixed, Token.word?_eq_name,
      Says.nil_iff, *]
  · exact reads_pure rfl

theorem reads_parse : Reads parse fun used d => Says used d.words ∧ d.Grouped := by
  have hmethods : Reads (manyWhile (ahead .publicWord) MethodDecl.parse) fun used ds =>
      Says used (ds.flatMap MethodDecl.words) ∧ ∀ d ∈ ds, d.Grouped :=
    reads_manyWhile rfl (fun d => by simp [MethodDecl.words]) MethodDecl.reads_parse
  apply reads_expect_bind
  intro k hk
  apply reads_expectIdent_bind
  intro i hi
  apply reads_superclass.bind
  intro superclass ss hss
  apply reads_expect_bind
  intro o ho
  apply VarDecl.reads_parseAll.bind
  intro fields fs hfs
  apply hmethods.bind
  rintro methods ms ⟨hms, hg⟩
  apply reads_expect_bind
  intro c hc
  apply reads_pure
  refine ⟨?_, List.forall_mem_flatMap.2 hg⟩
  simp [words, Says.cons_cons, Says.append_right hss, Says.append_right hfs,
    Says.append_right hms, Token.word?_eq_fixed, Token.word?_eq_name, Says.nil_iff, *]

end ClassDecl

namespace MainClass

def Grouped (d : MainClass) : Prop := ∀ e ∈ d.exprs, e.TopGrouped

theorem reads_parse : Reads parse fun used d => Says used d.words ∧ d.Grouped := by
  apply reads_expect_bind
  intro t₁ h₁
  apply reads_expectIdent_bind
  intro t₂ h₂
  apply reads_expect_bind
  intro t₃ h₃
  -- The words of `public static void main(String[]`.
  apply reads_expect_bind
  intro t₄ h₄
  apply reads_expect_bind
  intro t₅ h₅
  apply reads_expect_bind
  intro t₆ h₆
  apply reads_expect_bind
  intro t₇ h₇
  apply reads_expect_bind
  intro t₈ h₈
  apply reads_expect_bind
  intro t₉ h₉
  apply reads_expect_bind
  intro t₁₀ h₁₀
  apply reads_expect_bind
  intro t₁₁ h₁₁
  apply reads_expectIdent_bind
  intro t₁₂ h₁₂
  apply reads_expect_bind
  intro t₁₃ h₁₃
  apply reads_expect_bind
  intro t₁₄ h₁₄
  apply VarDecl.reads_parseAll.bind
  intro locals ls hls
  apply (Stmt.reads_sequence Stmt.reads_parse).bind
  rintro body bs ⟨hbs, hg⟩
  apply reads_expect_bind
  intro t₁₅ h₁₅
  apply reads_expect_bind
  intro t₁₆ h₁₆
  apply reads_pure
  refine ⟨?_, List.forall_mem_flatMap.2 hg⟩
  simp [words, Says.cons_cons, Says.append_right hls, Says.append_right hbs,
    Token.word?_eq_fixed, Token.word?_eq_name, Says.nil_iff, *]

end MainClass

end ClassCheck
