import ClassCheck.Compile
import ClassCheck.Proofs.Grammar.Locations
import ClassCheck.Proofs.Grammar.Reading
import ClassCheck.Proofs.Outcome
import ClassCheck.Text.Unicode

/-!
# Spans are faithful

Every expression of a program that was read stands where the tokens stand that spell it, and every
name where its token stands. So the text at the span of an expression, read alone, is the expression
again.
-/

namespace ClassCheck

open ClassCheck.Parser

/-! ## The whole program -/

theorem Expr.Spells.ownNames {ts : List Token} {e : Expr} (h : Expr.Spells ts e) :
    ∀ i ∈ e.ownNames, ∃ t ∈ ts, t.Names i := by
  cases e with
  | ident span name =>
    obtain ⟨t, rfl, ht⟩ := h
    exact List.forall_mem_singleton.2 ⟨t, List.mem_cons_self, ht⟩
  | call span receiver method args =>
    obtain ⟨us, d, m, o, vs, c, rfl, -, -, hm, -⟩ := h
    exact List.forall_mem_singleton.2 ⟨m, by simp, hm⟩
  | newObject span className =>
    obtain ⟨n, i, o, c, rfl, -, hi, -⟩ := h
    exact List.forall_mem_singleton.2 ⟨i, by simp, hi⟩
  | int | bool | this | binary | not | index | length | newArray | paren => exact nofun

namespace Reader

theorem locates_readClassesWithin (bound : Nat) {r : Reader} (hlost : r.lost = false)
    (he : (readClassesWithin bound r).2.errors = []) :
    ∀ c ∈ (readClassesWithin bound r).1, Locates r.rest c.exprs c.names := by
  induction bound generalizing r with
  | zero => exact nofun
  | succ bound ih =>
    rw [readClassesWithin] at he ⊢
    split at he
    · next hrest => simp [hrest]
    · next hrest =>
      rw [if_neg hrest]
      obtain ⟨c, rest, hp⟩ := parse_ok_of_errors_nil hlost he
      rw [readClass_of_ok hp] at he ⊢
      obtain ⟨used, hused, hlocates⟩ := ClassDecl.locates_parse hp
      rw [hused]
      refine List.forall_mem_cons.2 ⟨hlocates.mono (List.prefix_append used rest).isInfix, ?_⟩
      intro other hother
      exact (ih (r := { r with rest }) hlost he other hother).mono
        (List.suffix_append used rest).isInfix

theorem locates_readProgram {r r' : Reader} {p : Program} (hlost : r.lost = false)
    (h : r.readProgram = (some p, r')) (he : r'.errors = []) :
    Locates r.rest p.exprs (p.main.names ++ p.classes.flatMap ClassDecl.names) := by
  cases hp : MainClass.parse r.rest with
  | error s =>
    rw [readProgram_of_error hp] at h
    cases h
  | ok x =>
    obtain ⟨main, rest⟩ := x
    rw [readProgram_of_ok hp] at h
    cases h
    obtain ⟨used, hused, hmain⟩ := MainClass.locates_parse hp
    have hclasses := locates_readClassesWithin rest.length (r := { r with rest }) hlost he
    rw [hused]
    apply (hmain.mono (List.prefix_append used rest).isInfix).append
    apply Locates.mono _ (List.suffix_append used rest).isInfix
    exact ⟨List.forall_mem_flatMap.2 fun c hc => (hclasses c hc).exprs,
      List.forall_mem_flatMap.2 fun c hc => (hclasses c hc).names⟩

theorem ofTokens_scan [Alphabet] (text : String) :
    ofTokens (scan text).tokens =
      { rest := tokensOf text, stop := Token.endOfFile (byteSize text.toList) } := by
  rw [tokens_scan_eq, ofTokens_append kind_ne_endOfFile rfl]

end Reader

theorem Reader.exists_of_verdict_ok {reading : Option Program × Reader} {p : Program}
    (h : Reader.verdict reading = .ok p) : ∃ r, reading = (some p, r) ∧ r.errors = [] := by
  obtain ⟨found?, r⟩ := reading
  cases found? with
  | none => cases h
  | some found =>
    rw [Reader.verdict] at h
    split at h
    · next hr =>
      obtain rfl := Except.ok.inj h
      exact ⟨r, rfl, hr⟩
    · cases h

/-- Scanned and read alone, the text is this expression and nothing else, without an error. -/
def Expr.IsWhole [Alphabet] (text : String) (e : Expr) : Prop :=
  (scan text).errors = [] ∧
    ∃ r, (Reader.ofTokens (scan text).tokens).readExpression = (some e, r) ∧ r.rest = [] ∧
      r.errors = []

theorem Expr.isWhole_of_parse [Alphabet] {text : String} {e : Expr} (herrors : (scan text).errors = [])
    (h : Expr.parse (tokensOf text) = .ok (e, [])) : e.IsWhole text := by
  refine ⟨herrors, { rest := [], stop := Token.endOfFile (byteSize text.toList) }, ?_, rfl, rfl⟩
  rw [Reader.ofTokens_scan, Reader.readExpression_eq, Reader.read_of_ok h]

theorem Expr.SpelledIn.exists_part [Alphabet] {text : String} {e : Expr} (herrors : (scan text).errors = [])
    (h : Expr.SpelledIn (tokensOf text) e) (hg : e.Grouped) :
    ∃ part e', e.span.slice? text = some part ∧ Expr.IsWhole part e' ∧ e'.shift e.span.offset = e := by
  obtain ⟨us, hus, hspells⟩ := h
  have hcovers := hspells.covers ((inOrder_tokensOf text).sublist hus.sublist)
  obtain ⟨before, after, htokens⟩ := hus
  rw [List.append_assoc] at htokens
  obtain ⟨span, part, hspan, hslice, hpart, hpartErrors⟩ :=
    ClassCheck.exists_part htokens.symm hcovers.ne_nil
  obtain rfl := hspan.eq hcovers
  rw [← hpart] at hspells
  obtain ⟨e', hparse, hshift⟩ := Expr.parse_of_spells_shift hspells hg
  exact ⟨part, e', hslice, Expr.isWhole_of_parse (hpartErrors herrors) hparse, hshift⟩

theorem Token.Names.slice? [Alphabet] {text : String} {t : Token} {i : Ident} (h : t.Names i)
    (ht : t ∈ tokensOf text) : i.span.slice? text = some i.name := by
  obtain ⟨-, hname⟩ := (Token.word?_eq_name t i.name).1 h.1
  rw [h.2, ← hname]
  exact slice?_of_mem_tokensOf ht

/-- In a program that was read, the text at the span of an expression is the expression, as far from
the start of this text as it was from the offset of the span. The text at the span of a name is the
name. -/
theorem Source.spans_faithful [Alphabet] {source : Source} {listings : Listings} {p : Program}
    (h : (source.parse listings).outcome = .ok p) :
    (∀ e ∈ p.exprs, ∃ part e', e.span.slice? source.text = some part ∧ Expr.IsWhole part e' ∧
      e'.shift e.span.offset = e) ∧
    ∀ i ∈ p.names, i.span.slice? source.text = some i.name := by
  rw [Source.outcome_parse] at h
  split at h
  · cases h
  next herrors =>
  rw [Decidable.not_not] at herrors
  obtain ⟨r, hread, hr⟩ := Reader.exists_of_verdict_ok h
  rw [Reader.ofTokens_scan] at hread
  have hlocates := Reader.locates_readProgram rfl hread hr
  refine ⟨fun e he => ?_, List.forall_mem_append.2 ⟨fun i hi => ?_, ?_⟩⟩
  · obtain ⟨hspelled, hg⟩ := hlocates.exprs e he
    exact hspelled.exists_part herrors hg
  · obtain ⟨t, ht, hname⟩ := hlocates.names i hi
    exact hname.slice? ht
  · refine List.forall_mem_flatMap.2 fun e he i hi => ?_
    obtain ⟨us, hus, hspells⟩ := (hlocates.exprs e he).1
    obtain ⟨t, ht, hname⟩ := hspells.ownNames i hi
    exact hname.slice? (hus.subset ht)

/-- A comment of more bytes than characters stands before the statement, and another one inside it. -/
def commentedSource : Source where
  file := "A.java"
  text := "class A \x7b // ü\n public static void main(String[] a) \x7b " ++
    "x = (1 +/**/ 2) * a [ 3 ]; \x7d \x7d"

theorem Source.spans_faithful_commentedSource :
    ∃ p e e', (commentedSource.parse .none).outcome = .ok p ∧ e ∈ p.exprs ∧ e.span = ⟨59, 11⟩ ∧
      e.span.slice? commentedSource.text = some "(1 +/**/ 2)" ∧ Expr.IsWhole "(1 +/**/ 2)" e' ∧
      e'.shift 59 = e ∧ p.names.map Ident.name = ["A", "a", "x", "a"] ∧
      ∀ i ∈ p.names, i.span.slice? commentedSource.text = some i.name := by
  have hrun : ((commentedSource.parse .none).outcome.toOption.any fun p =>
      p.exprs.any (·.span == ⟨59, 11⟩) && p.names.map Ident.name == ["A", "a", "x", "a"]) = true := by
    decide +kernel
  have hpart : Span.slice? ⟨59, 11⟩ commentedSource.text = some "(1 +/**/ 2)" := by decide +kernel
  obtain ⟨p, hp, hfound⟩ := Outcome.any_toOption_iff.1 hrun
  obtain ⟨hexpr, hnames⟩ := Bool.and_eq_true_iff.1 hfound
  obtain ⟨e, he, hspan⟩ := List.any_eq_true.1 hexpr
  obtain ⟨hexprs, hslices⟩ := Source.spans_faithful hp
  obtain ⟨part, e', hslice, hwhole, hshift⟩ := hexprs e he
  rw [beq_iff_eq.1 hspan] at hslice hshift
  obtain rfl := Option.some.inj (hslice.symm.trans hpart)
  refine ⟨p, e, e', hp, he, beq_iff_eq.1 hspan, ?_, hwhole, hshift, beq_iff_eq.1 hnames, hslices⟩
  rw [beq_iff_eq.1 hspan, hpart]

end ClassCheck
