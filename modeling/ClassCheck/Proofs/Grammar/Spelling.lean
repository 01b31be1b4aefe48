import ClassCheck.Proofs.Grammar.Words
import ClassCheck.Proofs.Token.Places

/-!
# Where expressions stand

An expression stands where the tokens stand that it was read from: a literal or a name at its token,
and everything else from its first token to its last.
-/

namespace ClassCheck

/-- The token says this name, and the name stands where it does. -/
def Token.Names (t : Token) (i : Ident) : Prop := t.word? = some (.name i.name) ∧ i.span = t.span

theorem Token.Names.unique {t : Token} {i j : Ident} (hi : t.Names i) (hj : t.Names j) : i = j := by
  obtain ⟨name, span⟩ := i
  obtain ⟨name', span'⟩ := j
  obtain ⟨hname, rfl⟩ := hi
  obtain ⟨hname', rfl⟩ := hj
  obtain rfl := Word.name.inj (Option.some.inj (hname.symm.trans hname'))
  rfl

namespace Expr

mutual
/-- The tokens say the expression, and it stands where they do. -/
def Spells : List Token → Expr → Prop
  | ts, .int span value => ∃ t, ts = [t] ∧ t.word? = some (.number value) ∧ span = t.span
  | ts, .bool span value =>
    ∃ t, ts = [t] ∧ t.word? = some (.fixed (if value then .trueWord else .falseWord)) ∧ span = t.span
  | ts, .ident span name => ∃ t, ts = [t] ∧ t.Names ⟨name, span⟩
  | ts, .this span => ∃ t, ts = [t] ∧ t.word? = some (.fixed .thisWord) ∧ span = t.span
  | ts, .binary span op left right =>
    ∃ us t vs, ts = us ++ t :: vs ∧ Spells us left ∧ t.word? = some (.fixed op.kind) ∧
      Spells vs right ∧ span = left.span.merge right.span
  | ts, .not span operand =>
    ∃ t us, ts = t :: us ∧ t.word? = some (.fixed .bang) ∧ Spells us operand ∧
      span = t.span.merge operand.span
  | ts, .index span array position =>
    ∃ us o vs c, ts = us ++ o :: (vs ++ [c]) ∧ Spells us array ∧
      o.word? = some (.fixed .leftBracket) ∧ Spells vs position ∧
      c.word? = some (.fixed .rightBracket) ∧ span = array.span.merge c.span
  | ts, .length span array =>
    ∃ us d l, ts = us ++ [d, l] ∧ Spells us array ∧ d.word? = some (.fixed .dot) ∧
      l.word? = some (.fixed .lengthWord) ∧ span = array.span.merge l.span
  | ts, .call span receiver method args =>
    ∃ us d m o vs c, ts = us ++ d :: m :: o :: (vs ++ [c]) ∧ Spells us receiver ∧
      d.word? = some (.fixed .dot) ∧ m.Names method ∧ o.word? = some (.fixed .leftParen) ∧
      SpellsArgs vs args ∧ c.word? = some (.fixed .rightParen) ∧ span = receiver.span.merge c.span
  | ts, .newArray span size =>
    ∃ n i o us c, ts = n :: i :: o :: (us ++ [c]) ∧ n.word? = some (.fixed .newWord) ∧
      i.word? = some (.fixed .int) ∧ o.word? = some (.fixed .leftBracket) ∧ Spells us size ∧
      c.word? = some (.fixed .rightBracket) ∧ span = n.span.merge c.span
  | ts, .newObject span className =>
    ∃ n i o c, ts = [n, i, o, c] ∧ n.word? = some (.fixed .newWord) ∧ i.Names className ∧
      o.word? = some (.fixed .leftParen) ∧ c.word? = some (.fixed .rightParen) ∧
      span = n.span.merge c.span
  | ts, .paren span inner =>
    ∃ o us c, ts = o :: (us ++ [c]) ∧ o.word? = some (.fixed .leftParen) ∧ Spells us inner ∧
      c.word? = some (.fixed .rightParen) ∧ span = o.span.merge c.span

/-- So they do for arguments, with commas between them. -/
def SpellsArgs : List Token → List Expr → Prop
  | ts, [] => ts = []
  | ts, [arg] => Spells ts arg
  | ts, arg :: next :: args =>
    ∃ us c vs, ts = us ++ c :: vs ∧ Spells us arg ∧ c.word? = some (.fixed .comma) ∧
      SpellsArgs vs (next :: args)
end

variable {ts : List Token} {e : Expr}

/-! ## The words -/

theorem SpellsArgs.said {args : List Expr} (h : SpellsArgs ts args)
    (hall : ∀ arg ∈ args, ∀ us, Spells us arg → Says us arg.words) :
    Says ts (commas (args.map words)) := by
  induction args generalizing ts with
  | nil =>
    obtain rfl := h
    rfl
  | cons arg args ih =>
    rw [List.forall_mem_cons] at hall
    cases args with
    | nil =>
      rw [List.map_singleton, commas_cons, List.flatMap_nil, List.append_nil]
      exact hall.1 ts h
    | cons next args =>
      obtain ⟨us, c, vs, rfl, harg, hc, hrest⟩ := h
      have hmore := ih hrest hall.2
      rw [List.map_cons, commas_cons] at hmore ⊢
      rw [List.map_cons, List.flatMap_cons, Says.append_right (hall.1 us harg), List.cons_append,
        Says.cons_cons]
      exact ⟨hc, hmore⟩

theorem Spells.said (h : Spells ts e) : Says ts e.words := by
  induction e generalizing ts with
  | int span value =>
    obtain ⟨t, rfl, ht, -⟩ := h
    exact Says.cons_cons.2 ⟨ht, rfl⟩
  | bool span value =>
    obtain ⟨t, rfl, ht, -⟩ := h
    exact Says.cons_cons.2 ⟨ht, rfl⟩
  | ident span name =>
    obtain ⟨t, rfl, ht, -⟩ := h
    exact Says.cons_cons.2 ⟨ht, rfl⟩
  | this span =>
    obtain ⟨t, rfl, ht, -⟩ := h
    exact Says.cons_cons.2 ⟨ht, rfl⟩
  | binary span op left right ihl ihr =>
    obtain ⟨us, t, vs, rfl, hl, ht, hr, -⟩ := h
    exact (ihl hl).append (Says.cons_cons.2 ⟨ht, ihr hr⟩)
  | not span operand ih =>
    obtain ⟨t, us, rfl, ht, hoperand, -⟩ := h
    exact Says.cons_cons.2 ⟨ht, ih hoperand⟩
  | index span array position iha ihp =>
    obtain ⟨us, o, vs, c, rfl, ha, ho, hp, hc, -⟩ := h
    simp [words, Says.append_right (iha ha), Says.cons_cons, Says.append_right (ihp hp),
      Says.nil_iff, ho, hc]
  | length span array ih =>
    obtain ⟨us, d, l, rfl, ha, hd, hl, -⟩ := h
    simp [words, Says.append_right (ih ha), Says.cons_cons, Says.nil_iff, hd, hl]
  | call span receiver method args ihr ihargs =>
    obtain ⟨us, d, m, o, vs, c, rfl, hr, hd, hm, ho, hargs, hc, -⟩ := h
    have hsay := hargs.said fun arg harg us hus => ihargs arg harg hus
    simp [words, Says.append_right (ihr hr), Says.cons_cons, Says.append_right hsay, Says.nil_iff,
      hd, hm.1, ho, hc]
  | newArray span size ih =>
    obtain ⟨n, i, o, us, c, rfl, hn, hi, ho, hsize, hc, -⟩ := h
    simp [words, Says.cons_cons, Says.append_right (ih hsize), Says.nil_iff, hn, hi, ho, hc]
  | newObject span className =>
    obtain ⟨n, i, o, c, rfl, hn, hi, ho, hc, -⟩ := h
    simp [words, Says.cons_cons, Says.nil_iff, hn, hi.1, ho, hc]
  | paren span inner ih =>
    obtain ⟨o, us, c, rfl, ho, hinner, hc, -⟩ := h
    simp [words, Says.cons_cons, Says.append_right (ih hinner), Says.nil_iff, ho, hc]

/-! ## The expressions inside -/

/-- Some of the tokens, next to each other, spell the expression. -/
def SpelledIn (ts : List Token) (e : Expr) : Prop := ∃ us, us <:+: ts ∧ Spells us e

theorem Spells.spelledIn (h : Spells ts e) : SpelledIn ts e := ⟨ts, List.infix_refl ts, h⟩

theorem SpelledIn.mono {us : List Token} (h : SpelledIn us e) (hus : us <:+: ts) :
    SpelledIn ts e := by
  obtain ⟨vs, hvs, hspells⟩ := h
  exact ⟨vs, hvs.trans hus, hspells⟩

theorem SpellsArgs.spelledIn {args : List Expr} (h : SpellsArgs ts args) :
    ∀ arg ∈ args, SpelledIn ts arg := by
  induction args generalizing ts with
  | nil => exact List.forall_mem_nil _
  | cons arg args ih =>
    cases args with
    | nil => exact List.forall_mem_singleton.2 (Spells.spelledIn h)
    | cons next args =>
      obtain ⟨us, c, vs, rfl, harg, -, hrest⟩ := h
      refine List.forall_mem_cons.2 ⟨harg.spelledIn.mono ⟨[], c :: vs, rfl⟩, fun other hother => ?_⟩
      exact (ih hrest other hother).mono ⟨us ++ [c], [], by simp⟩

theorem Spells.nodes_spelledIn (h : Spells ts e) : ∀ n ∈ e.nodes, SpelledIn ts n := by
  induction e generalizing ts with
  | int | bool | ident | this | newObject => exact List.forall_mem_singleton.2 h.spelledIn
  | binary span op left right ihl ihr =>
    refine List.forall_mem_cons.2 ⟨h.spelledIn, ?_⟩
    obtain ⟨us, t, vs, rfl, hl, -, hr, -⟩ := h
    refine List.forall_mem_append.2 ⟨fun n hn => ?_, fun n hn => ?_⟩
    · exact (ihl hl n hn).mono ⟨[], t :: vs, rfl⟩
    · exact (ihr hr n hn).mono ⟨us ++ [t], [], by simp⟩
  | not span operand ih =>
    refine List.forall_mem_cons.2 ⟨h.spelledIn, fun n hn => ?_⟩
    obtain ⟨t, us, rfl, -, hoperand, -⟩ := h
    exact (ih hoperand n hn).mono ⟨[t], [], by simp⟩
  | index span array position iha ihp =>
    refine List.forall_mem_cons.2 ⟨h.spelledIn, ?_⟩
    obtain ⟨us, o, vs, c, rfl, ha, -, hp, -⟩ := h
    refine List.forall_mem_append.2 ⟨fun n hn => ?_, fun n hn => ?_⟩
    · exact (iha ha n hn).mono ⟨[], o :: (vs ++ [c]), rfl⟩
    · exact (ihp hp n hn).mono ⟨us ++ [o], [c], by simp⟩
  | length span array ih =>
    refine List.forall_mem_cons.2 ⟨h.spelledIn, fun n hn => ?_⟩
    obtain ⟨us, d, l, rfl, ha, -⟩ := h
    exact (ih ha n hn).mono ⟨[], [d, l], rfl⟩
  | call span receiver method args ihr ihargs =>
    refine List.forall_mem_cons.2 ⟨h.spelledIn, ?_⟩
    obtain ⟨us, d, m, o, vs, c, rfl, hr, -, -, -, hargs, -⟩ := h
    rw [nodesOfAll_eq]
    refine List.forall_mem_append.2 ⟨fun n hn => ?_, List.forall_mem_flatMap.2 fun arg harg n hn => ?_⟩
    · exact (ihr hr n hn).mono ⟨[], d :: m :: o :: (vs ++ [c]), rfl⟩
    · obtain ⟨ws, hws, hspells⟩ := hargs.spelledIn arg harg
      refine (ihargs arg harg hspells n hn).mono (hws.trans ?_)
      exact ⟨us ++ [d, m, o], [c], by simp⟩
  | newArray span size ih =>
    refine List.forall_mem_cons.2 ⟨h.spelledIn, fun n hn => ?_⟩
    obtain ⟨t, i, o, us, c, rfl, -, -, -, hsize, -⟩ := h
    exact (ih hsize n hn).mono ⟨[t, i, o], [c], by simp⟩
  | paren span inner ih =>
    refine List.forall_mem_cons.2 ⟨h.spelledIn, fun n hn => ?_⟩
    obtain ⟨o, us, c, rfl, -, hinner, -⟩ := h
    exact (ih hinner n hn).mono ⟨[o], [c], by simp⟩

/-! ## The span -/

theorem Spells.covers (h : Spells ts e) (hts : InOrder ts) : e.span.Covers ts := by
  induction e generalizing ts with
  | int span value | bool span value | this span =>
    obtain ⟨t, rfl, -, rfl⟩ := h
    exact Span.Covers.singleton t
  | ident span name =>
    obtain ⟨t, rfl, -, rfl⟩ := h
    exact Span.Covers.singleton t
  | binary span op left right ihl ihr =>
    obtain ⟨us, t, vs, rfl, hl, -, hr, rfl⟩ := h
    have hus : us <+: us ++ t :: vs := List.prefix_append us (t :: vs)
    have hvs : vs <:+ us ++ t :: vs := ⟨us ++ [t], by simp⟩
    exact (ihl hl (hts.sublist hus.sublist)).merge (ihr hr (hts.sublist hvs.sublist)) hus hvs hts
  | not span operand ih =>
    obtain ⟨t, us, rfl, -, hoperand, rfl⟩ := h
    have hus : us <:+ t :: us := List.suffix_cons t us
    exact (Span.Covers.singleton t).merge (ih hoperand (hts.sublist hus.sublist)) ⟨us, rfl⟩ hus hts
  | index span array position iha ihp =>
    obtain ⟨us, o, vs, c, rfl, ha, -, -, -, rfl⟩ := h
    have hus : us <+: us ++ o :: (vs ++ [c]) := List.prefix_append _ _
    exact (iha ha (hts.sublist hus.sublist)).merge (Span.Covers.singleton c) hus
      ⟨us ++ o :: vs, by simp⟩ hts
  | length span array ih =>
    obtain ⟨us, d, l, rfl, ha, -, -, rfl⟩ := h
    have hus : us <+: us ++ [d, l] := List.prefix_append _ _
    exact (ih ha (hts.sublist hus.sublist)).merge (Span.Covers.singleton l) hus
      ⟨us ++ [d], by simp⟩ hts
  | call span receiver method args ihr ihargs =>
    obtain ⟨us, d, m, o, vs, c, rfl, hr, -, -, -, -, -, rfl⟩ := h
    have hus : us <+: us ++ d :: m :: o :: (vs ++ [c]) := List.prefix_append _ _
    exact (ihr hr (hts.sublist hus.sublist)).merge (Span.Covers.singleton c) hus
      ⟨us ++ d :: m :: o :: vs, by simp⟩ hts
  | newArray span size ih =>
    obtain ⟨n, i, o, us, c, rfl, -, -, -, -, -, rfl⟩ := h
    exact (Span.Covers.singleton n).merge (Span.Covers.singleton c) ⟨i :: o :: (us ++ [c]), rfl⟩
      ⟨n :: i :: o :: us, by simp⟩ hts
  | newObject span className =>
    obtain ⟨n, i, o, c, rfl, -, -, -, -, rfl⟩ := h
    exact (Span.Covers.singleton n).merge (Span.Covers.singleton c) ⟨[i, o, c], rfl⟩ ⟨[n, i, o], rfl⟩
      hts
  | paren span inner ih =>
    obtain ⟨o, us, c, rfl, -, -, -, rfl⟩ := h
    exact (Span.Covers.singleton o).merge (Span.Covers.singleton c) ⟨us ++ [c], rfl⟩
      ⟨o :: us, by simp⟩ hts

/-! ## Tokens and words leave nothing open -/

theorem words_bare (e : Expr) : e.bare.words = e.words := by
  induction e with
  | int | bool | ident | this | newObject => rfl
  | binary span op left right ihl ihr => rw [bare, words, words, ihl, ihr]
  | not span operand ih => rw [bare, words, words, ih]
  | index span array position iha ihp => rw [bare, words, words, iha, ihp]
  | length span array ih => rw [bare, words, words, ih]
  | call span receiver method args ihr ihargs =>
    have hargs : (args.map bare).map words = args.map words := by
      rw [List.map_map]
      exact List.map_congr_left ihargs
    rw [bare, words, words, ihr, bareAll_eq, wordsOfAll_eq, wordsOfAll_eq, hargs]
    rfl
  | newArray span size ih => rw [bare, words, words, ih]
  | paren span inner ih => rw [bare, words, words, ih]

theorem Spells.append_inj {us us' vs vs' : List Token} {e' : Expr} (h : Spells us e)
    (h' : Spells us' e') (hbare : e.bare = e'.bare) (heq : us ++ vs = us' ++ vs') :
    us = us' ∧ vs = vs' := by
  apply List.append_inj heq
  rw [h.said.length_eq, h'.said.length_eq, ← words_bare e, hbare, words_bare]

theorem SpellsArgs.unique {args args' : List Expr} (h : SpellsArgs ts args)
    (h' : SpellsArgs ts args') (hbare : args.map bare = args'.map bare)
    (hall : ∀ arg ∈ args, ∀ us e', Spells us arg → Spells us e' → arg.bare = e'.bare → arg = e') :
    args = args' := by
  induction args generalizing ts args' with
  | nil => exact (List.map_eq_nil_iff.1 hbare.symm).symm
  | cons arg args ih =>
    obtain ⟨arg', args', rfl, harg, hargs⟩ := List.map_eq_cons_iff.1 hbare.symm
    rw [List.forall_mem_cons] at hall
    cases args with
    | nil =>
      obtain rfl := List.map_eq_nil_iff.1 hargs
      obtain rfl := hall.1 ts arg' h h' harg.symm
      rfl
    | cons next args =>
      obtain ⟨next', args', rfl, -, -⟩ := List.map_eq_cons_iff.1 hargs
      obtain ⟨us, c, vs, rfl, hfirst, -, hrest⟩ := h
      obtain ⟨us', c', vs', heq, hfirst', -, hrest'⟩ := h'
      obtain ⟨rfl, htail⟩ := hfirst.append_inj hfirst' harg.symm heq
      obtain ⟨-, rfl⟩ := List.cons.inj htail
      obtain rfl := hall.1 us arg' hfirst hfirst' harg.symm
      rw [ih hrest hrest' hargs.symm hall.2]

theorem Spells.unique {e' : Expr} (h : Spells ts e) (h' : Spells ts e') (hbare : e.bare = e'.bare) :
    e = e' := by
  induction e generalizing ts e' with
  | int span value =>
    cases e' with
    | int span' value' =>
      obtain ⟨t, rfl, -, rfl⟩ := h
      obtain ⟨t', heq, -, rfl⟩ := h'
      obtain ⟨rfl, -⟩ := List.cons.inj heq
      obtain ⟨-, rfl⟩ := Expr.int.inj hbare
      rfl
    | _ => nomatch hbare
  | bool span value =>
    cases e' with
    | bool span' value' =>
      obtain ⟨t, rfl, -, rfl⟩ := h
      obtain ⟨t', heq, -, rfl⟩ := h'
      obtain ⟨rfl, -⟩ := List.cons.inj heq
      obtain ⟨-, rfl⟩ := Expr.bool.inj hbare
      rfl
    | _ => nomatch hbare
  | ident span name =>
    cases e' with
    | ident span' name' =>
      obtain ⟨t, rfl, ht⟩ := h
      obtain ⟨t', heq, ht'⟩ := h'
      obtain ⟨rfl, -⟩ := List.cons.inj heq
      obtain ⟨rfl, rfl⟩ := Ident.mk.inj (ht.unique ht')
      rfl
    | _ => nomatch hbare
  | this span =>
    cases e' with
    | this span' =>
      obtain ⟨t, rfl, -, rfl⟩ := h
      obtain ⟨t', heq, -, rfl⟩ := h'
      obtain ⟨rfl, -⟩ := List.cons.inj heq
      rfl
    | _ => nomatch hbare
  | binary span op left right ihl ihr =>
    cases e' with
    | binary span' op' left' right' =>
      obtain ⟨us, t, vs, rfl, hl, -, hr, rfl⟩ := h
      obtain ⟨us', t', vs', heq, hl', -, hr', rfl⟩ := h'
      obtain ⟨-, rfl, hleft, hright⟩ := Expr.binary.inj hbare
      obtain ⟨rfl, htail⟩ := hl.append_inj hl' hleft heq
      obtain ⟨-, rfl⟩ := List.cons.inj htail
      rw [ihl hl hl' hleft, ihr hr hr' hright]
    | _ => nomatch hbare
  | not span operand ih =>
    cases e' with
    | not span' operand' =>
      obtain ⟨t, us, rfl, -, ho, rfl⟩ := h
      obtain ⟨t', us', heq, -, ho', rfl⟩ := h'
      obtain ⟨-, hoperand⟩ := Expr.not.inj hbare
      obtain ⟨rfl, rfl⟩ := List.cons.inj heq
      rw [ih ho ho' hoperand]
    | _ => nomatch hbare
  | index span array position iha ihp =>
    cases e' with
    | index span' array' position' =>
      obtain ⟨us, o, vs, c, rfl, ha, -, hp, -, rfl⟩ := h
      obtain ⟨us', o', vs', c', heq, ha', -, hp', -, rfl⟩ := h'
      obtain ⟨-, harray, hposition⟩ := Expr.index.inj hbare
      obtain ⟨rfl, htail⟩ := ha.append_inj ha' harray heq
      obtain ⟨rfl, hc⟩ := hp.append_inj hp' hposition (List.cons.inj htail).2
      obtain ⟨rfl, -⟩ := List.cons.inj hc
      rw [iha ha ha' harray, ihp hp hp' hposition]
    | _ => nomatch hbare
  | length span array ih =>
    cases e' with
    | length span' array' =>
      obtain ⟨us, d, l, rfl, ha, -, -, rfl⟩ := h
      obtain ⟨us', d', l', heq, ha', -, -, rfl⟩ := h'
      obtain ⟨-, harray⟩ := Expr.length.inj hbare
      obtain ⟨rfl, htail⟩ := ha.append_inj ha' harray heq
      obtain ⟨rfl, -⟩ := List.cons.inj (List.cons.inj htail).2
      rw [ih ha ha' harray]
    | _ => nomatch hbare
  | call span receiver method args ihr ihargs =>
    cases e' with
    | call span' receiver' method' args' =>
      obtain ⟨us, d, m, o, vs, c, rfl, hr, -, hm, -, has, -, rfl⟩ := h
      obtain ⟨us', d', m', o', vs', c', heq, hr', -, hm', -, has', -, rfl⟩ := h'
      obtain ⟨-, hreceiver, -, hargs⟩ := Expr.call.inj hbare
      rw [bareAll_eq, bareAll_eq] at hargs
      obtain ⟨rfl, htail⟩ := hr.append_inj hr' hreceiver heq
      simp only [List.cons.injEq] at htail
      obtain ⟨-, rfl, -, hargsTail⟩ := htail
      obtain ⟨rfl, hc⟩ := List.append_inj' hargsTail rfl
      obtain ⟨rfl, -⟩ := List.cons.inj hc
      rw [ihr hr hr' hreceiver, hm.unique hm',
        has.unique has' hargs fun arg harg us e' h₁ h₂ => ihargs arg harg h₁ h₂]
    | _ => nomatch hbare
  | newArray span size ih =>
    cases e' with
    | newArray span' size' =>
      obtain ⟨n, i, o, us, c, rfl, -, -, -, hs, -, rfl⟩ := h
      obtain ⟨n', i', o', us', c', heq, -, -, -, hs', -, rfl⟩ := h'
      obtain ⟨-, hsize⟩ := Expr.newArray.inj hbare
      simp only [List.cons.injEq] at heq
      obtain ⟨rfl, -, -, htail⟩ := heq
      obtain ⟨rfl, hc⟩ := List.append_inj' htail rfl
      obtain ⟨rfl, -⟩ := List.cons.inj hc
      rw [ih hs hs' hsize]
    | _ => nomatch hbare
  | newObject span className =>
    cases e' with
    | newObject span' className' =>
      obtain ⟨n, i, o, c, rfl, -, hi, -, -, rfl⟩ := h
      obtain ⟨n', i', o', c', heq, -, hi', -, -, rfl⟩ := h'
      simp only [List.cons.injEq] at heq
      obtain ⟨rfl, rfl, -, rfl, -⟩ := heq
      rw [hi.unique hi']
    | _ => nomatch hbare
  | paren span inner ih =>
    cases e' with
    | paren span' inner' =>
      obtain ⟨o, us, c, rfl, -, hi, -, rfl⟩ := h
      obtain ⟨o', us', c', heq, -, hi', -, rfl⟩ := h'
      obtain ⟨-, hinner⟩ := Expr.paren.inj hbare
      obtain ⟨rfl, htail⟩ := List.cons.inj heq
      obtain ⟨rfl, hc⟩ := List.append_inj' htail rfl
      obtain ⟨rfl, -⟩ := List.cons.inj hc
      rw [ih hi hi' hinner]
    | _ => nomatch hbare

end Expr

/-! ## Moving to another offset -/

def Ident.shift (distance : Nat) (i : Ident) : Ident := { i with span := i.span.shift distance }

theorem Token.Names.shift {t : Token} {i : Ident} (h : t.Names i) (distance : Nat) :
    (t.shift distance).Names (i.shift distance) :=
  ⟨h.1, congrArg (Span.shift distance) h.2⟩

namespace Expr

mutual
/-- The expression with everything in it farther from the start of the text. -/
def shift (distance : Nat) : Expr → Expr
  | .int span value => .int (span.shift distance) value
  | .bool span value => .bool (span.shift distance) value
  | .ident span name => .ident (span.shift distance) name
  | .this span => .this (span.shift distance)
  | .binary span op left right =>
    .binary (span.shift distance) op (left.shift distance) (right.shift distance)
  | .not span operand => .not (span.shift distance) (operand.shift distance)
  | .index span array position =>
    .index (span.shift distance) (array.shift distance) (position.shift distance)
  | .length span array => .length (span.shift distance) (array.shift distance)
  | .call span receiver method args =>
    .call (span.shift distance) (receiver.shift distance) (method.shift distance)
      (shiftAll distance args)
  | .newArray span size => .newArray (span.shift distance) (size.shift distance)
  | .newObject span className => .newObject (span.shift distance) (className.shift distance)
  | .paren span inner => .paren (span.shift distance) (inner.shift distance)

def shiftAll (distance : Nat) : List Expr → List Expr
  | [] => []
  | e :: es => e.shift distance :: shiftAll distance es
end

@[simp] theorem shiftAll_eq (distance : Nat) (es : List Expr) :
    shiftAll distance es = es.map (shift distance) := by
  induction es with
  | nil => rfl
  | cons e es ih => rw [shiftAll, ih, List.map_cons]

variable {ts : List Token} {e : Expr}

theorem span_shift (distance : Nat) (e : Expr) : (e.shift distance).span = e.span.shift distance := by
  cases e <;> rfl

theorem bare_shift (distance : Nat) (e : Expr) : (e.shift distance).bare = e.bare := by
  induction e with
  | int | bool | ident | this | newObject => rfl
  | binary span op left right ihl ihr => rw [shift, bare, bare, ihl, ihr]
  | not span operand ih => rw [shift, bare, bare, ih]
  | index span array position iha ihp => rw [shift, bare, bare, iha, ihp]
  | length span array ih => rw [shift, bare, bare, ih]
  | call span receiver method args ihr ihargs =>
    have hargs : (args.map (shift distance)).map bare = args.map bare := by
      rw [List.map_map]
      exact List.map_congr_left ihargs
    rw [shift, bare, bare, ihr, shiftAll_eq, bareAll_eq, bareAll_eq, hargs]
    rfl
  | newArray span size ih => rw [shift, bare, bare, ih]
  | paren span inner ih => rw [shift, bare, bare, ih]

theorem SpellsArgs.shift {args : List Expr} (h : SpellsArgs ts args) (distance : Nat)
    (hall : ∀ arg ∈ args, ∀ us, Spells us arg →
      Spells (us.map (Token.shift distance)) (arg.shift distance)) :
    SpellsArgs (ts.map (Token.shift distance)) (args.map (Expr.shift distance)) := by
  induction args generalizing ts with
  | nil =>
    obtain rfl := h
    rfl
  | cons arg args ih =>
    rw [List.forall_mem_cons] at hall
    cases args with
    | nil => exact hall.1 ts h
    | cons next args =>
      obtain ⟨us, c, vs, rfl, harg, hc, hrest⟩ := h
      exact ⟨_, c.shift distance, _, by simp, hall.1 us harg, hc, ih hrest hall.2⟩

theorem Spells.shift (h : Spells ts e) (distance : Nat) :
    Spells (ts.map (Token.shift distance)) (e.shift distance) := by
  induction e generalizing ts with
  | int | bool | this =>
    obtain ⟨t, rfl, ht, rfl⟩ := h
    exact ⟨t.shift distance, rfl, ht, rfl⟩
  | ident span name =>
    obtain ⟨t, rfl, ht⟩ := h
    exact ⟨t.shift distance, rfl, ht.shift distance⟩
  | binary span op left right ihl ihr =>
    obtain ⟨us, t, vs, rfl, hl, ht, hr, rfl⟩ := h
    refine ⟨_, t.shift distance, _, by simp, ihl hl, ht, ihr hr, ?_⟩
    rw [span_shift, span_shift, Span.shift_merge]
  | not span operand ih =>
    obtain ⟨t, us, rfl, ht, ho, rfl⟩ := h
    refine ⟨t.shift distance, _, rfl, ht, ih ho, ?_⟩
    rw [span_shift, Token.span_shift, Span.shift_merge]
  | index span array position iha ihp =>
    obtain ⟨us, o, vs, c, rfl, ha, ho, hp, hc, rfl⟩ := h
    refine ⟨_, o.shift distance, _, c.shift distance, by simp, iha ha, ho, ihp hp, hc, ?_⟩
    rw [span_shift, Token.span_shift, Span.shift_merge]
  | length span array ih =>
    obtain ⟨us, d, l, rfl, ha, hd, hl, rfl⟩ := h
    refine ⟨_, d.shift distance, l.shift distance, by simp, ih ha, hd, hl, ?_⟩
    rw [span_shift, Token.span_shift, Span.shift_merge]
  | call span receiver method args ihr ihargs =>
    obtain ⟨us, d, m, o, vs, c, rfl, hr, hd, hm, ho, hargs, hc, rfl⟩ := h
    have hshift := hargs.shift distance fun arg harg us hus => ihargs arg harg hus
    rw [Expr.shift, shiftAll_eq]
    refine ⟨_, d.shift distance, m.shift distance, o.shift distance, _, c.shift distance, by simp,
      ihr hr, hd, hm.shift distance, ho, hshift, hc, ?_⟩
    rw [span_shift, Token.span_shift, Span.shift_merge]
  | newArray span size ih =>
    obtain ⟨n, i, o, us, c, rfl, hn, hi, ho, hs, hc, rfl⟩ := h
    refine ⟨n.shift distance, i.shift distance, o.shift distance, _, c.shift distance, by simp, hn,
      hi, ho, ih hs, hc, ?_⟩
    rw [Token.span_shift, Token.span_shift, Span.shift_merge]
  | newObject span className =>
    obtain ⟨n, i, o, c, rfl, hn, hi, ho, hc, rfl⟩ := h
    refine ⟨n.shift distance, i.shift distance, o.shift distance, c.shift distance, rfl, hn,
      hi.shift distance, ho, hc, ?_⟩
    rw [Token.span_shift, Token.span_shift, Span.shift_merge]
  | paren span inner ih =>
    obtain ⟨o, us, c, rfl, ho, hi, hc, rfl⟩ := h
    refine ⟨o.shift distance, _, c.shift distance, by simp, ho, ih hi, hc, ?_⟩
    rw [Token.span_shift, Token.span_shift, Span.shift_merge]

end Expr

end ClassCheck
