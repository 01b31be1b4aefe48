import ClassCheck.Proofs.Grammar.Completeness
import ClassCheck.Proofs.Grammar.Spelling

/-!
# Where everything stands that is read

Whatever a parser takes, each expression in the tree that it gives is spelled by some of the tokens
in a row, and each name is that of a token.
-/

namespace ClassCheck

open ClassCheck.Parser

/-! ## Reading expressions -/

theorem Token.word?_of_kind {t : Token} {kind : TokenKind} (h : t.kind = kind)
    (hk : kind ≠ .number ∧ kind ≠ .identifier) : t.word? = some (.fixed kind) :=
  (Token.word?_eq_fixed t kind).2 ⟨h, hk⟩

theorem Token.names_of_kind {t : Token} (h : t.kind = .identifier) : t.Names ⟨t.lexeme, t.span⟩ :=
  ⟨(Token.word?_eq_name t t.lexeme).2 ⟨h, rfl⟩, rfl⟩

theorem BinaryOp.kind_fixed (op : BinaryOp) : op.kind ≠ .number ∧ op.kind ≠ .identifier := by
  cases op <;> decide

namespace Expr

variable {nested : Parser Expr} {t : Token}

theorem spells_allocation (hn : Reads nested Spells) (ht : t.kind = .newWord) :
    Reads (allocation nested t.span) fun used e => Spells (t :: used) e := by
  have hnew := Token.word?_of_kind ht (by decide)
  apply reads_accept_bind
  · intro i hi
    apply reads_expect_bind
    intro o ho
    apply hn.bind
    intro size us hsize
    apply reads_expect_bind
    intro c hc
    apply reads_pure
    exact ⟨t, i, o, us, c, rfl, hnew, Token.word?_of_kind hi (by decide),
      Token.word?_of_kind ho (by decide), hsize, Token.word?_of_kind hc (by decide), rfl⟩
  · apply reads_expectIdent_bind
    intro i hi
    apply reads_expect_bind
    intro o ho
    apply reads_expect_bind
    intro c hc
    apply reads_pure
    exact ⟨t, i, o, c, rfl, hnew, Token.names_of_kind hi, Token.word?_of_kind ho (by decide),
      Token.word?_of_kind hc (by decide), rfl⟩

theorem spells_parenthesized (hn : Reads nested Spells) (ht : t.kind = .leftParen) :
    Reads (parenthesized nested t.span) fun used e => Spells (t :: used) e := by
  apply hn.bind
  intro inner us hinner
  apply reads_expect_bind
  intro c hc
  apply reads_pure
  exact ⟨t, us, c, rfl, Token.word?_of_kind ht (by decide), hinner,
    Token.word?_of_kind hc (by decide), rfl⟩

theorem spells_primary (hn : Reads nested Spells) : Reads (primary nested) Spells := by
  intro ts e rest h
  cases ts with
  | nil => exact (fail_ne_ok h).elim
  | cons t ts =>
    rw [primary] at h
    split at h
    · next ht =>
      split at h
      · next value hv =>
        have hword := (Token.word?_eq_number t value).2 ⟨ht, hv⟩
        exact (reads_pure (b := .int t.span value) ⟨t, rfl, hword, rfl⟩).after h
      · exact (fail_ne_ok h).elim
    · next ht =>
      have hword := Token.word?_of_kind ht (by decide)
      exact (reads_pure (b := .bool t.span true) ⟨t, rfl, hword, rfl⟩).after h
    · next ht =>
      have hword := Token.word?_of_kind ht (by decide)
      exact (reads_pure (b := .bool t.span false) ⟨t, rfl, hword, rfl⟩).after h
    · next ht =>
      exact (reads_pure (b := .ident t.span t.lexeme) ⟨t, rfl, Token.names_of_kind ht⟩).after h
    · next ht =>
      have hword := Token.word?_of_kind ht (by decide)
      exact (reads_pure (b := .this t.span) ⟨t, rfl, hword, rfl⟩).after h
    · next ht => exact (spells_allocation hn ht).after h
    · next ht => exact (spells_parenthesized hn ht).after h
    · exact (fail_ne_ok h).elim

theorem spells_arguments (hn : Reads nested Spells) : Reads (arguments nested) SpellsArgs := by
  have hmore := (readsItems_afterComma hn).reads_many
    (S := fun used args => ∀ us first, Spells us first → SpellsArgs (us ++ used) (first :: args))
    (fun us first hfirst => by rw [List.append_nil]; exact hfirst) (by
      rintro u arg vs args ⟨c, ws, rfl, hc, harg⟩ hrest us first hfirst
      exact ⟨us, c, ws ++ vs, rfl, hfirst, Token.word?_of_kind hc (by decide), hrest ws arg harg⟩)
  have hargs : Reads (commaSeparated nested) SpellsArgs := by
    rw [commaSeparated_eq]
    apply hn.bind
    intro first us hfirst
    apply hmore.bind
    intro others vs hothers
    apply reads_pure
    rw [List.append_nil]
    exact hothers us first hfirst
  intro ts args rest h
  rw [arguments] at h
  split at h
  · obtain ⟨rfl, rfl⟩ := pure_ok.1 h
    exact ⟨[], rfl, rfl⟩
  · exact hargs h

theorem spells_suffix (hn : Reads nested Spells) :
    ReadsItems (suffix? nested) fun used s =>
      ∀ us e, Spells us e → Spells (us ++ used) (attach e s) where
  nil := rfl
  reads := by
    apply reads_accept_bind
    · intro o ho
      apply hn.bind
      intro position vs hposition
      apply reads_expect_bind
      intro c hc
      apply reads_pure
      refine ⟨by simp, fun us e he => ?_⟩
      exact ⟨us, o, vs, c, rfl, he, Token.word?_of_kind ho (by decide), hposition,
        Token.word?_of_kind hc (by decide), rfl⟩
    apply reads_accept_bind
    · intro d hd
      apply reads_accept_bind
      · intro l hl
        apply reads_pure
        refine ⟨by simp, fun us e he => ?_⟩
        exact ⟨us, d, l, rfl, he, Token.word?_of_kind hd (by decide),
          Token.word?_of_kind hl (by decide), rfl⟩
      apply reads_expectIdent_bind
      intro m hm
      apply reads_expect_bind
      intro o ho
      apply (spells_arguments hn).bind
      intro args vs hargs
      apply reads_expect_bind
      intro c hc
      apply reads_pure
      refine ⟨by simp, fun us e he => ?_⟩
      exact ⟨us, d, m, o, vs, c, rfl, he, Token.word?_of_kind hd (by decide), Token.names_of_kind hm,
        Token.word?_of_kind ho (by decide), hargs, Token.word?_of_kind hc (by decide), rfl⟩
    · exact reads_pure rfl

theorem spells_access (hn : Reads nested Spells) : Reads (access nested) Spells := by
  rw [access_eq]
  apply (spells_primary hn).bind
  intro operand us hoperand
  exact (spells_suffix hn).reads_foldMany (fun used e u s he hs => hs used e he) hoperand

theorem spells_negation (hn : Reads nested Spells) : Reads (negation nested) Spells := by
  intro ts e rest h
  induction ts generalizing e with
  | nil => exact spells_access hn h
  | cons t ts ih =>
    by_cases ht : t.kind = .bang
    · rw [negation_cons ht, bind_ok] at h
      obtain ⟨operand, mid, ho, h⟩ := h
      obtain ⟨rfl, rfl⟩ := pure_ok.1 h
      obtain ⟨used, rfl, hoperand⟩ := ih ho
      exact ⟨t :: used, rfl, t, used, rfl, Token.word?_of_kind ht (by decide), hoperand, rfl⟩
    · rw [negation, if_neg ht] at h
      exact spells_access hn h

theorem spells_chain {op? : TokenKind → Option BinaryOp} {level : Nat} {operand : Parser Expr}
    (hops : KnowsOps op? level) (h : Reads operand Spells) : Reads (chain op? operand) Spells := by
  have hstep : ∀ used left u next, Spells used left →
      (∃ t vs, u = t :: vs ∧ op? t.kind = some next.1 ∧ Spells vs next.2) →
      Spells (used ++ u) (joinNext left next) := by
    rintro used left u ⟨op, right⟩ hleft ⟨t, vs, rfl, hop, hright⟩
    obtain ⟨-, hkind⟩ := (hops _ _).1 hop
    exact ⟨used, t, vs, rfl, hleft, Token.word?_of_kind hkind.symm op.kind_fixed, hright, rfl⟩
  rw [chain_eq]
  apply h.bind
  intro first us hfirst
  exact (readsItems_operation h).reads_foldMany hstep hfirst

theorem spells_parseWithin (depth : Nat) : Reads (parseWithin depth) Spells := by
  induction depth with
  | zero => exact reads_fail
  | succ depth ih =>
    apply spells_chain knowsOps_conjunction
    apply spells_chain knowsOps_comparison
    apply spells_chain knowsOps_sum
    apply spells_chain knowsOps_product
    exact spells_negation ih

theorem spells_parse : Reads parse Spells := fun _ _ _ h => spells_parseWithin _ h

theorem parse_of_spells_shift {ts : List Token} {e : Expr} {distance : Nat}
    (h : Spells (ts.map (Token.shift distance)) e) (hg : e.Grouped) :
    ∃ e', parse ts = .ok (e', []) ∧ e'.shift distance = e := by
  have hsay : Says ts e.words := by
    have hsaid := h.said
    rwa [Says, List.map_map] at hsaid
  have hsettled : Settled 1 [] := by simp [Settled]
  obtain ⟨e', hparse, hbare⟩ := readsBack_parse hg ts [] hsay hsettled
  obtain ⟨used, hused, hspells⟩ := spells_parse hparse
  obtain rfl := List.append_cancel_right hused
  rw [List.append_nil] at hparse
  refine ⟨e', hparse, (hspells.shift distance).unique h ?_⟩
  rw [bare_shift, hbare]

theorem Grouped.nodes {e : Expr} (h : e.Grouped) : ∀ n ∈ e.nodes, n.Grouped := by
  induction e with
  | int | bool | ident | this | newObject => exact List.forall_mem_singleton.2 h
  | binary span op left right ihl ihr =>
    obtain ⟨-, hl, hr⟩ := (grouped_binary _ _ _ _).1 h
    exact List.forall_mem_cons.2 ⟨h, List.forall_mem_append.2 ⟨ihl hl, ihr hr⟩⟩
  | not span operand ih => exact List.forall_mem_cons.2 ⟨h, ih ((grouped_not _ _).1 h).2⟩
  | index span array position iha ihp =>
    obtain ⟨-, ha, hp⟩ := (grouped_index _ _ _).1 h
    exact List.forall_mem_cons.2 ⟨h, List.forall_mem_append.2 ⟨iha ha, ihp hp⟩⟩
  | length span array ih => exact List.forall_mem_cons.2 ⟨h, ih ((grouped_length _ _).1 h).2⟩
  | call span receiver method args ihr ihargs =>
    obtain ⟨-, hr, hargs⟩ := (grouped_call _ _ _ _).1 h
    rw [Expr.nodes, nodesOfAll_eq]
    refine List.forall_mem_cons.2 ⟨h, List.forall_mem_append.2 ⟨ihr hr, ?_⟩⟩
    exact List.forall_mem_flatMap.2 fun arg harg => ihargs arg harg (hargs arg harg)
  | newArray span size ih => exact List.forall_mem_cons.2 ⟨h, ih ((grouped_newArray _ _).1 h)⟩
  | paren span inner ih => exact List.forall_mem_cons.2 ⟨h, ih ((grouped_paren _ _).1 h)⟩

end Expr

/-! ## Expressions and names among tokens -/

/-- Each of the expressions is grouped and spelled by some of the tokens, and each of the names is
the name of one of them. -/
structure Locates (ts : List Token) (es : List Expr) (names : List Ident) : Prop where
  exprs : ∀ e ∈ es, Expr.SpelledIn ts e ∧ e.Grouped
  names : ∀ i ∈ names, ∃ t ∈ ts, t.Names i

namespace Locates

variable {ts us : List Token} {t : Token} {es es' : List Expr} {names names' : List Ident}

theorem mono (h : Locates us es names) (hus : us <:+: ts) : Locates ts es names := by
  constructor
  · intro e he
    obtain ⟨hspelled, hg⟩ := h.exprs e he
    exact ⟨hspelled.mono hus, hg⟩
  · intro i hi
    obtain ⟨t, ht, hname⟩ := h.names i hi
    exact ⟨t, hus.subset ht, hname⟩

theorem append (h : Locates ts es names) (h' : Locates ts es' names') :
    Locates ts (es ++ es') (names ++ names') where
  exprs := List.forall_mem_append.2 ⟨h.exprs, h'.exprs⟩
  names := List.forall_mem_append.2 ⟨h.names, h'.names⟩

theorem append_exprs (h : Locates ts es names) (h' : Locates ts es' []) :
    Locates ts (es ++ es') names where
  exprs := List.forall_mem_append.2 ⟨h.exprs, h'.exprs⟩
  names := h.names

theorem nil : Locates ts [] [] := ⟨nofun, nofun⟩

theorem name (h : Locates ts es names) (ht : t.kind = .identifier) (hmem : t ∈ ts) :
    Locates ts es (⟨t.lexeme, t.span⟩ :: names) where
  exprs := h.exprs
  names := List.forall_mem_cons.2 ⟨⟨t, hmem, Token.names_of_kind ht⟩, h.names⟩

end Locates

section

variable {α : Type} {item : Parser α} {f : α → List Expr} {g : α → List Ident}

theorem locates_commaSeparated (h : Reads item fun used a => Locates used (f a) (g a)) :
    Reads (commaSeparated item) fun used as => Locates used (as.flatMap f) (as.flatMap g) := by
  have hothers := (readsItems_afterComma h).reads_many
    (S := fun used as => Locates used (as.flatMap f) (as.flatMap g)) Locates.nil (by
      rintro u a vs as ⟨c, us, rfl, -, ha⟩ has
      exact (ha.mono ⟨[c], vs, rfl⟩).append (has.mono (List.suffix_append _ _).isInfix))
  rw [commaSeparated_eq]
  apply h.bind
  intro first us hfirst
  apply hothers.bind
  intro others vs hrest
  apply reads_pure
  rw [List.append_nil]
  exact (hfirst.mono (List.prefix_append us vs).isInfix).append
    (hrest.mono (List.suffix_append us vs).isInfix)

theorem locates_manyWhile {more : List Token → Bool} {words : α → List Word} {Q : α → Prop}
    (hnil : more [] = false) (hwords : ∀ a, words a ≠ [])
    (hsaid : Reads item fun used a => Says used (words a) ∧ Q a)
    (h : Reads item fun used a => Locates used (f a) (g a)) :
    Reads (manyWhile more item) fun used as => Locates used (as.flatMap f) (as.flatMap g) := by
  have hitem : ReadsItems (itemWhile more item) fun used a => Locates used (f a) (g a) := by
    apply readsItems_while hnil
    apply (hsaid.and h).mono
    rintro used a ⟨⟨hsay, -⟩, hlocates⟩
    refine ⟨?_, hlocates⟩
    rintro rfl
    exact hwords a (List.eq_nil_of_length_eq_zero hsay.length_eq.symm)
  apply hitem.reads_many Locates.nil
  intro u a us as ha has
  exact (ha.mono (List.prefix_append u us).isInfix).append (has.mono (List.suffix_append u us).isInfix)

end

theorem Expr.locates_parse : Reads Expr.parse fun used e => Locates used e.nodes [] := by
  apply (Expr.spells_parse.and Expr.reads_parse).mono
  rintro used e ⟨hspells, -, hg⟩
  exact ⟨fun n hn => ⟨hspells.nodes_spelledIn n hn, hg.nodes n hn⟩, nofun⟩

/-! ## Statements -/

namespace Stmt

/-- The tokens spell the expressions of the statement and name its names. -/
def Located (used : List Token) (s : Stmt) : Prop := Locates used s.exprs s.names

variable {nested : Parser Stmt} {t : Token}

theorem located_sequence {ends : List Token → Bool} (hsaid : Reads nested Said)
    (hn : Reads nested Located) :
    Reads (sequence nested ends) fun used body =>
      Locates used (body.flatMap exprs) (body.flatMap names) :=
  locates_manyWhile rfl words_ne_nil hsaid hn

theorem located_blockBody (hsaid : Reads nested Said) (hn : Reads nested Located) :
    Reads (blockBody nested) fun used s => Located (t :: used) s := by
  apply (located_sequence hsaid hn).bind
  intro body us hbody
  apply reads_expect_bind
  intro c hc
  apply reads_pure
  rw [Located, exprs, exprsOfAll_eq, names, namesOfAll_eq]
  exact hbody.mono ⟨[t], [c], rfl⟩

theorem located_assignment (ht : t.kind = .identifier) :
    Reads (assignment ⟨t.lexeme, t.span⟩) fun used s => Located (t :: used) s := by
  apply reads_accept_bind
  · intro o ho
    apply Expr.locates_parse.bind
    intro position us hposition
    apply reads_expect_bind
    intro c hc
    apply reads_expect_bind
    intro q hq
    apply Expr.locates_parse.bind
    intro value vs hvalue
    apply reads_expect_bind
    intro d hd
    apply reads_pure
    apply Locates.name _ ht List.mem_cons_self
    exact (hposition.mono ⟨[t, o], c :: q :: (vs ++ [d]), rfl⟩).append
      (hvalue.mono ⟨t :: o :: (us ++ [c, q]), [d], by simp⟩)
  · apply reads_expect_bind
    intro q hq
    apply Expr.locates_parse.bind
    intro value us hvalue
    apply reads_expect_bind
    intro d hd
    apply reads_pure
    exact (hvalue.mono ⟨[t, q], [d], rfl⟩).name ht List.mem_cons_self

theorem located_conditional (hn : Reads nested Located) :
    Reads (conditional nested) fun used s => Located (t :: used) s := by
  apply reads_expect_bind
  intro o ho
  apply Expr.locates_parse.bind
  intro condition us hcondition
  apply reads_expect_bind
  intro c hc
  apply hn.bind
  intro thenBranch vs hthen
  apply reads_expect_bind
  intro l hl
  apply hn.bind
  intro elseBranch ws helse
  apply reads_pure
  apply (hcondition.mono ⟨[t, o], c :: (vs ++ l :: ws), by simp⟩).append
  exact (hthen.mono ⟨t :: o :: (us ++ [c]), l :: ws, by simp⟩).append
    (helse.mono ⟨t :: o :: (us ++ c :: (vs ++ [l])), [], by simp⟩)

theorem located_whileLoop (hn : Reads nested Located) :
    Reads (whileLoop nested) fun used s => Located (t :: used) s := by
  apply reads_expect_bind
  intro o ho
  apply Expr.locates_parse.bind
  intro condition us hcondition
  apply reads_expect_bind
  intro c hc
  apply hn.bind
  intro body vs hbody
  apply reads_pure
  exact (hcondition.mono ⟨[t, o], c :: vs, by simp⟩).append
    (hbody.mono ⟨t :: o :: (us ++ [c]), [], by simp⟩)

theorem located_printStmt : Reads printStmt fun used s => Located (t :: used) s := by
  apply reads_expect_bind
  intro o ho
  apply Expr.locates_parse.bind
  intro value us hvalue
  apply reads_expect_bind
  intro c hc
  apply reads_expect_bind
  intro d hd
  apply reads_pure
  exact hvalue.mono ⟨[t, o], [c, d], rfl⟩

theorem located_ofFirst (hsaid : Reads nested Said) (hn : Reads nested Located) :
    Reads (ofFirst nested) Located := by
  intro ts s rest h
  cases ts with
  | nil => exact (fail_ne_ok h).elim
  | cons t ts =>
    rw [ofFirst] at h
    split at h
    · exact (located_blockBody hsaid hn).after h
    · exact (located_conditional hn).after h
    · exact (located_whileLoop hn).after h
    · exact located_printStmt.after h
    · next ht => exact (located_assignment ht).after h
    · exact (fail_ne_ok h).elim

theorem located_parseWithin (depth : Nat) : Reads (parseWithin depth) Located := by
  induction depth with
  | zero => exact reads_fail
  | succ depth ih => exact located_ofFirst (reads_parseWithin depth) ih

theorem located_parse : Reads parse Located := fun _ _ _ h => located_parseWithin _ h

end Stmt

/-! ## Declarations -/

namespace VarDecl

/-- The tokens name the variables. -/
def Located (used : List Token) (ds : List VarDecl) : Prop := Locates used [] (ds.map VarDecl.name)

theorem located_of_flatMap (used : List Token) (ds : List VarDecl)
    (h : Locates used (ds.flatMap fun _ => []) (ds.flatMap fun d => [d.name])) : Located used ds := by
  refine ⟨nofun, ?_⟩
  rw [List.map_eq_flatMap]
  exact h.names

theorem locates_parse (what : String) :
    Reads (parse what) fun used d => Locates used [] [d.name] := by
  apply TypeRef.reads_parse.bind
  intro type us _
  apply reads_expectIdent_bind
  intro i hi
  apply reads_pure
  exact Locates.nil.name hi (by simp)

theorem locates_parseEnded : Reads parseEnded fun used d => Locates used [] [d.name] := by
  apply (locates_parse _).bind
  intro d us hd
  apply reads_expect_bind
  intro c hc
  apply reads_pure
  exact hd.mono ⟨[], [c], rfl⟩

theorem located_parseAll : Reads parseAll Located :=
  (locates_manyWhile rfl (by simp [endedWords]) reads_parseEnded locates_parseEnded).mono
    located_of_flatMap

theorem located_parseParams : Reads parseParams Located := by
  intro ts ds rest h
  rw [parseParams] at h
  split at h
  · obtain ⟨rfl, rfl⟩ := pure_ok.1 h
    exact ⟨[], rfl, Locates.nil⟩
  · exact (locates_commaSeparated (locates_parse _)).mono located_of_flatMap h

end VarDecl

theorem MethodDecl.locates_parse : Reads parse fun used d => Locates used d.exprs d.names := by
  apply reads_expect_bind
  intro p hp
  apply TypeRef.reads_parse.bind
  intro returnType rs _
  apply reads_expectIdent_bind
  intro i hi
  apply reads_expect_bind
  intro o ho
  apply VarDecl.located_parseParams.bind
  intro params ps hparams
  apply reads_expect_bind
  intro c hc
  apply reads_expect_bind
  intro b hb
  apply VarDecl.located_parseAll.bind
  intro locals ls hlocals
  apply (Stmt.located_sequence Stmt.reads_parse Stmt.located_parse).bind
  intro body bs hbody
  apply reads_expect_bind
  intro r hr
  apply Expr.locates_parse.bind
  intro returned es hreturned
  apply reads_expect_bind
  intro s hs
  apply reads_expect_bind
  intro e he
  apply reads_pure
  apply Locates.name _ hi (by simp)
  apply Locates.append_exprs _ (hreturned.mono
    ⟨p :: (rs ++ i :: o :: (ps ++ c :: b :: (ls ++ (bs ++ [r])))), [s, e], by simp⟩)
  apply (hparams.mono
    ⟨p :: (rs ++ [i, o]), c :: b :: (ls ++ (bs ++ r :: (es ++ [s, e]))), by simp⟩).append
  apply (hlocals.mono
    ⟨p :: (rs ++ i :: o :: (ps ++ [c, b])), bs ++ r :: (es ++ [s, e]), by simp⟩).append
  exact hbody.mono ⟨p :: (rs ++ i :: o :: (ps ++ c :: b :: ls)), r :: (es ++ [s, e]), by simp⟩

theorem ClassDecl.locates_superclass :
    Reads superclass? fun used superclass => Locates used [] superclass.toList := by
  apply reads_accept_bind
  · intro e he
    apply reads_expectIdent_bind
    intro i hi
    apply reads_pure
    exact Locates.nil.name hi (by simp)
  · exact reads_pure Locates.nil

theorem ClassDecl.locates_parse : Reads parse fun used d => Locates used d.exprs d.names := by
  have hall : Reads (manyWhile (ahead .publicWord) MethodDecl.parse) fun used ds =>
      Locates used (ds.flatMap MethodDecl.exprs) (ds.flatMap MethodDecl.names) :=
    locates_manyWhile rfl (fun d => by simp [MethodDecl.words]) MethodDecl.reads_parse
      MethodDecl.locates_parse
  apply reads_expect_bind
  intro k hk
  apply reads_expectIdent_bind
  intro i hi
  apply locates_superclass.bind
  intro superclass ss hsuperclass
  apply reads_expect_bind
  intro o ho
  apply VarDecl.located_parseAll.bind
  intro fields fs hfields
  apply hall.bind
  intro methods ms hmethods
  apply reads_expect_bind
  intro c hc
  apply reads_pure
  apply Locates.name _ hi (by simp)
  apply (hsuperclass.mono ⟨[k, i], o :: (fs ++ (ms ++ [c])), by simp⟩).append
  apply (hfields.mono ⟨k :: i :: (ss ++ [o]), ms ++ [c], by simp⟩).append
  exact hmethods.mono ⟨k :: i :: (ss ++ o :: fs), [c], by simp⟩

theorem MainClass.locates_parse : Reads parse fun used d => Locates used d.exprs d.names := by
  apply reads_expect_bind
  intro t₁ h₁
  apply reads_expectIdent_bind
  intro t₂ h₂
  apply reads_expect_bind
  intro t₃ h₃
  -- The words of `public static void main(String[]`.
  apply reads_expect_bind
  intro t₄ h₄
  apply reads_expect_bind
  intro t₅ h₅
  apply reads_expect_bind
  intro t₆ h₆
  apply reads_expect_bind
  intro t₇ h₇
  apply reads_expect_bind
  intro t₈ h₈
  apply reads_expect_bind
  intro t₉ h₉
  apply reads_expect_bind
  intro t₁₀ h₁₀
  apply reads_expect_bind
  intro t₁₁ h₁₁
  apply reads_expectIdent_bind
  intro t₁₂ h₁₂
  apply reads_expect_bind
  intro t₁₃ h₁₃
  apply reads_expect_bind
  intro t₁₄ h₁₄
  apply VarDecl.located_parseAll.bind
  intro locals ls hlocals
  apply (Stmt.located_sequence Stmt.reads_parse Stmt.located_parse).bind
  intro body bs hbody
  apply reads_expect_bind
  intro t₁₅ h₁₅
  apply reads_expect_bind
  intro t₁₆ h₁₆
  apply reads_pure
  apply Locates.name _ h₂ (by simp)
  apply Locates.name _ h₁₂ (by simp)
  apply (hlocals.mono ⟨[t₁, t₂, t₃, t₄, t₅, t₆, t₇, t₈, t₉, t₁₀, t₁₁, t₁₂, t₁₃, t₁₄],
    bs ++ [t₁₅, t₁₆], by simp⟩).append
  exact hbody.mono ⟨[t₁, t₂, t₃, t₄, t₅, t₆, t₇, t₈, t₉, t₁₀, t₁₁, t₁₂, t₁₃, t₁₄] ++ ls,
    [t₁₅, t₁₆], by simp⟩

end ClassCheck
