import ClassCheck.Proofs.Text.Classes
import ClassCheck.Proofs.Token.Account
import ClassCheck.Text.Unicode
import Mathlib.Data.List.Chain

/-!
# Scanning undoes printing

Tokens are printed one after another with white space and comments between them. They are scanned back,
unless two words touch, or `System.out.println` is printed in five tokens that touch: it is one word.
-/

namespace ClassCheck

open Text

/-! ## The shapes of lexemes -/

namespace TokenKind

/-- Identifiers, keywords, numbers and the print word: two of them that touch could be one. -/
def isWordLike (kind : TokenKind) : Bool :=
  kind == .identifier || kind == .number || kind == .print || (keywords.map Prod.snd).contains kind

theorem spelling?_cases {kind : TokenKind} {text : List Char} (h : kind.spelling? = some text)
    (hk : kind ≠ .endOfFile) :
    (kind = .print ∧ text = printWord) ∨ (kind = .andAnd ∧ text = ['&', '&']) ∨
      (text, kind) ∈ keywords ∨ ∃ c, text = [c] ∧ (c, kind) ∈ signs := by
  unfold spelling? at h
  split at h
  · cases h
  · cases h
  · exact absurd rfl hk
  · exact .inl ⟨rfl, (Option.some.inj h).symm⟩
  · exact .inr (.inl ⟨rfl, (Option.some.inj h).symm⟩)
  · split at h
    · next hfind =>
      have hmem := List.mem_of_find?_eq_some hfind
      have hkind := List.find?_some hfind
      simp only [beq_iff_eq, Option.some.injEq] at hkind h
      exact .inr (.inr (.inl (by rwa [← h, ← hkind])))
    · obtain ⟨⟨c, found⟩, hfind, heq⟩ := Option.map_eq_some_iff.1 h
      have hmem := List.mem_of_find?_eq_some hfind
      have hkind := List.find?_some hfind
      simp only [beq_iff_eq] at hkind heq
      exact .inr (.inr (.inr ⟨c, heq.symm, by rwa [← hkind]⟩))

/-- What a lexeme looks like. -/
inductive Shape [Alphabet] : TokenKind → List Char → Prop
  | number {c : Char} {cs : List Char} : c.isDigit = true → (∀ d ∈ cs, d.isDigit = true) →
      Shape .number (c :: cs)
  | word {c : Char} {cs : List Char} : isIdentStart c = true → (∀ d ∈ cs, isIdentContinue d = true) →
      Shape (ofWord (c :: cs)) (c :: cs)
  | print : Shape .print printWord
  | andAnd : Shape .andAnd ['&', '&']
  | sign {kind : TokenKind} {c : Char} : (c, kind) ∈ signs → Shape kind [c]

theorem isWordLike_ofWord (text : List Char) : (ofWord text).isWordLike = true := by
  have hkeywords : ∀ entry ∈ keywords, entry.2.isWordLike = true := by decide
  unfold ofWord
  cases hlookup : keywords.lookup text with
  | none => rfl
  | some kind => exact hkeywords _ (Piece.mem_of_lookup hlookup)

theorem shape_of_writes [Alphabet] {kind : TokenKind} {text : List Char} (h : kind.Writes text) :
    Shape kind text := by
  have hkeywords : ∀ entry ∈ keywords, ofWord entry.1 = entry.2 ∧ entry.1 ≠ [] ∧ entry.1.all Char.isAlpha = true := by
    decide
  have hk := ne_endOfFile_of_writes h
  unfold Writes at h
  split at h
  · obtain ⟨hne, hdigits⟩ := h
    obtain ⟨c, cs, rfl⟩ := List.exists_cons_of_ne_nil hne
    exact .number (hdigits c (by simp)) fun d hd => hdigits d (by simp [hd])
  · obtain ⟨hlookup, c, cs, rfl, hc, hcs⟩ := h
    have hword : ofWord (c :: cs) = .identifier := by rw [ofWord, hlookup]; rfl
    rw [← hword]
    exact .word hc hcs
  · exact h.elim
  · rcases spelling?_cases h hk with ⟨rfl, rfl⟩ | ⟨rfl, rfl⟩ | hmem | ⟨c, rfl, hmem⟩
    · exact .print
    · exact .andAnd
    · obtain ⟨hword, hne, hall⟩ := hkeywords _ hmem
      obtain ⟨c, cs, rfl⟩ := List.exists_cons_of_ne_nil hne
      obtain ⟨hc, hcs⟩ := List.forall_mem_cons.1 (List.all_eq_true.1 hall)
      obtain rfl : ofWord (c :: cs) = kind := hword
      exact .word (isIdentStart_of_isAlpha hc) fun d hd =>
        isIdentContinue_of_isIdentStart (isIdentStart_of_isAlpha (hcs d hd))
    · exact .sign hmem

end TokenKind

theorem TokenKind.isIdentContinue_of_mem [Alphabet] {text : List Char} (h : (ofWord text).Writes text) :
    ∀ d ∈ text, isIdentContinue d = true := by
  generalize hk : ofWord text = kind at h
  have hword : kind.isWordLike = true := hk ▸ isWordLike_ofWord text
  cases shape_of_writes h with
  | number hc hcs =>
    exact List.forall_mem_cons.2 ⟨(ident_of_isDigit hc).1, fun d hd => (ident_of_isDigit (hcs d hd)).1⟩
  | word hc hcs => exact List.forall_mem_cons.2 ⟨isIdentContinue_of_isIdentStart hc, hcs⟩
  | print => exact absurd hk (by decide)
  | andAnd => exact absurd hword (by decide)
  | sign hmem =>
    have hsigns : ∀ entry ∈ signs, entry.2.isWordLike = false := by decide
    simp [hsigns _ hmem] at hword

/-! ## Lexemes are scanned back -/

namespace Piece

/-- No identifier goes on here. -/
def Stops [Alphabet] (rest : List Char) : Prop := ∀ d ∈ rest.head?, isIdentContinue d = false

section

variable {c : Char} {cs rest : List Char}

theorem first_of_isIdentContinue [Alphabet] (h : isIdentContinue c = true) (cs : List Char) :
    first c cs = if c.isDigit then number c cs else if isIdentStart c then word c cs else sign c cs := by
  have hslash := ne_slash_of_isIdentContinue h
  rw [first_eq, if_neg (by simp [not_isBlank_of_isIdentContinue h]), if_neg (by simp [hslash]),
    if_neg (by simp [hslash])]

theorem first_number [Alphabet] (hc : c.isDigit = true) (hcs : ∀ d ∈ cs, d.isDigit = true) (hrest : Stops rest) :
    first c (cs ++ rest) = .token .number (c :: cs) := by
  have hdigits : ∀ d ∈ rest.head?, d.isDigit = false := by
    intro d hd
    rw [Bool.eq_false_iff]
    intro hdigit
    simpa [hrest d hd] using ident_of_isDigit hdigit
  rw [first_of_isIdentContinue (ident_of_isDigit hc).1, if_pos hc, number,
    List.takeWhile_append_of_pos hcs, takeWhile_of_stop hdigits, List.dropWhile_append_of_pos hcs,
    dropWhile_of_stop hdigits, takeWhile_of_stop hrest, List.append_nil]

theorem first_word [Alphabet] (hc : isIdentStart c = true) (hcs : ∀ d ∈ cs, isIdentContinue d = true)
    (hrest : Stops rest) (hprint : isPrintWord (c :: (cs ++ rest)) = false) :
    first c (cs ++ rest) = .token (TokenKind.ofWord (c :: cs)) (c :: cs) := by
  rw [first_of_isIdentContinue (isIdentContinue_of_isIdentStart hc),
    if_neg (by simp [not_isDigit_of_isIdentStart hc]), if_pos hc, word, if_neg (by simp [hprint]),
    List.takeWhile_append_of_pos hcs, takeWhile_of_stop hrest, List.append_nil]

theorem isPrintWord_append [Alphabet] (hrest : Stops rest) : isPrintWord (TokenKind.printWord ++ rest) = true := by
  unfold isPrintWord
  rw [List.drop_left, Bool.and_eq_true]
  refine ⟨List.isPrefixOf_iff_prefix.2 (List.prefix_append _ _), ?_⟩
  cases rest with
  | nil => rfl
  | cons d rest => simpa using hrest d rfl

theorem first_print [Alphabet] {tail : List Char} (h : TokenKind.printWord = c :: tail) (hrest : Stops rest) :
    first c (tail ++ rest) = .token .print TokenKind.printWord := by
  obtain rfl : 'S' = c := (List.cons.inj h).1
  rw [first_of_isIdentContinue (isIdentContinue_of_isAlphanum (by decide)), if_neg (by decide),
    if_pos (isIdentStart_of_isAlpha (by decide)), word, if_pos]
  rw [← List.cons_append, ← h]
  exact isPrintWord_append hrest

theorem first_sign [Alphabet] {kind : TokenKind} (h : (c, kind) ∈ TokenKind.signs) (rest : List Char) :
    first c rest = .token kind [c] := by
  have htable : ∀ entry ∈ TokenKind.signs, isBlank entry.1 = false ∧ entry.1 ≠ '/' ∧
      entry.1.isDigit = false ∧ entry.1 ≠ '&' ∧ TokenKind.ofSign? entry.1 = some entry.2 := by
    decide
  have hstart := not_isIdentStart_of_not_isIdentContinue (not_isIdentContinue_sign _ h)
  obtain ⟨hblank, hslash, hdigit, hand, hsign⟩ := htable _ h
  dsimp only at hblank hslash hdigit hstart hand hsign
  rw [first_eq, sign, hsign]
  simp [hblank, hslash, hdigit, hstart, hand]

end

theorem first_andAnd [Alphabet] (rest : List Char) : first '&' ('&' :: rest) = .token .andAnd ['&', '&'] := by
  have hstart : isIdentStart '&' = false :=
    not_isIdentStart_of_not_isIdentContinue (not_isIdentContinue_of_ascii (by decide) (by decide))
  rw [first_eq, if_neg (by decide), if_neg (by simp), if_neg (by simp), if_neg (by decide), if_neg (by simp [hstart])]
  rfl

theorem split_append_of_first [Alphabet] {c : Char} (cs : List Char) {rest : List Char} {piece : Piece}
    (h : first c (cs ++ rest) = piece) (htext : piece.text = c :: cs) :
    split (c :: (cs ++ rest)) = piece :: split rest := by
  rw [split, h, htext, ← List.cons_append, List.drop_left]

/-- A lexeme is one piece, if what comes after it does not change it. -/
theorem split_lexeme [Alphabet] {kind : TokenKind} {text rest : List Char} (h : kind.Writes text)
    (hrest : kind.isWordLike = true → Stops rest)
    (hprint : kind = TokenKind.ofWord text → isPrintWord (text ++ rest) = false) :
    split (text ++ rest) = .token kind text :: split rest := by
  cases TokenKind.shape_of_writes h with
  | number hc hcs => exact split_append_of_first _ (first_number hc hcs (hrest rfl)) rfl
  | word hc hcs =>
    have hstops := hrest (TokenKind.isWordLike_ofWord _)
    exact split_append_of_first _ (first_word hc hcs hstops (hprint rfl)) rfl
  | print => exact split_append_of_first _ (first_print rfl (hrest rfl)) rfl
  | andAnd => exact split_append_of_first ['&'] (first_andAnd rest) rfl
  | sign hmem => exact split_append_of_first [] (first_sign hmem rest) rfl

/-! ## Separators are skipped -/

/-- Pieces that are neither tokens nor errors. -/
def Silent (pieces : List Piece) : Prop :=
  ∀ piece ∈ pieces, piece.token? 0 = none ∧ piece.error? 0 = none

theorem split_trivium [Alphabet] {part rest : List Char} (h : IsTrivium rest part) :
    ∃ piece, split (part ++ rest) = piece :: split rest ∧ Silent [piece] := by
  cases h with
  | @blank c hc =>
    refine ⟨.blank c, split_append_of_first [] ?_ rfl, by simp [Silent, token?, error?]⟩
    rw [first_eq, if_pos hc]
  | @lineComment body hbody hrest =>
    have hpos : ∀ d ∈ body, (d != '\n') = true := by
      intro d hd
      rw [bne_iff_ne]
      rintro rfl
      exact hbody hd
    have hstop : ∀ d ∈ rest.head?, (d != '\n') = false := by
      intro d hd
      rw [hrest d hd, bne_self_eq_false]
    refine ⟨.lineComment ('/' :: '/' :: body), split_append_of_first _ ?_ rfl,
      by simp [Silent, token?, error?]⟩
    change lineCommentOf (body ++ rest) = _
    rw [lineCommentOf, List.takeWhile_append_of_pos hpos, takeWhile_of_stop hstop, List.append_nil]
  | @blockComment body hbody =>
    refine ⟨.blockComment ('/' :: '*' :: (body ++ ['*', '/'])), split_append_of_first _ ?_ rfl,
      by simp [Silent, token?, error?]⟩
    change blockCommentOf (body ++ ['*', '/'] ++ rest) = _
    rw [blockCommentOf, List.append_assoc, List.cons_append, List.cons_append, List.nil_append,
      splitClose_of_not_closes hbody]

end Piece

/-- A string of white space, line comments with the line feed that ends them, and block comments. -/
inductive Separator : List Char → Prop
  | nil : Separator []
  | blank {c : Char} {cs : List Char} : isBlank c = true → Separator cs → Separator (c :: cs)
  | lineComment {body cs : List Char} : '\n' ∉ body → Separator cs →
      Separator ('/' :: '/' :: (body ++ '\n' :: cs))
  | blockComment {body cs : List Char} : ¬ Piece.Closes body → Separator cs →
      Separator ('/' :: '*' :: (body ++ '*' :: '/' :: cs))

namespace Separator

theorem head {cs : List Char} (h : Separator cs) : ∀ c ∈ cs.head?, isBlank c = true ∨ c = '/' := by
  cases h with
  | nil => simp
  | blank hc => simp [hc]
  | lineComment | blockComment => simp

theorem split_append [Alphabet] {cs : List Char} (h : Separator cs) (rest : List Char) :
    ∃ pieces, Piece.split (cs ++ rest) = pieces ++ Piece.split rest ∧ Piece.Silent pieces := by
  have hstep : ∀ part cs : List Char, Piece.IsTrivium (cs ++ rest) part →
      (∃ pieces, Piece.split (cs ++ rest) = pieces ++ Piece.split rest ∧ Piece.Silent pieces) →
      ∃ pieces, Piece.split (part ++ (cs ++ rest)) = pieces ++ Piece.split rest ∧
        Piece.Silent pieces := by
    rintro part cs hpart ⟨pieces, hsplit, hsilent⟩
    obtain ⟨piece, hpiece, hquiet⟩ := Piece.split_trivium hpart
    refine ⟨piece :: pieces, by rw [hpiece, hsplit, List.cons_append], ?_⟩
    exact List.forall_mem_cons.2 ⟨hquiet piece (by simp), hsilent⟩
  induction h with
  | nil => exact ⟨[], rfl, by simp [Piece.Silent]⟩
  | blank hc _ ih => exact hstep [_] _ (.blank hc) ih
  | @lineComment body cs hbody _ ih =>
    -- The line feed is white space after the comment.
    have hfeed := hstep ['\n'] cs (.blank (by decide)) ih
    simpa using hstep _ ('\n' :: cs) (.lineComment hbody (by simp)) hfeed
  | blockComment hbody _ ih => simpa using hstep _ _ (.blockComment hbody) ih

end Separator

/-! ## Printed tokens -/

/-- A token to be printed, and what stands before it. -/
structure Printed where
  gap : List Char
  kind : TokenKind
  lexeme : List Char
  deriving DecidableEq

/-- Tokens one after another, and then `tail`. -/
def printed (items : List Printed) (tail : List Char) : List Char :=
  items.flatMap (fun p => p.gap ++ p.lexeme) ++ tail

theorem printed_cons (p : Printed) (items : List Printed) (tail : List Char) :
    printed (p :: items) tail = p.gap ++ (p.lexeme ++ printed items tail) := by
  simp [printed]

/-- The print word as five tokens that touch. -/
def printInFive (gap : List Char) : List Printed :=
  [⟨gap, .identifier, "System".toList⟩, ⟨[], .dot, ['.']⟩, ⟨[], .identifier, "out".toList⟩,
    ⟨[], .dot, ['.']⟩, ⟨[], .identifier, "println".toList⟩]

/-- Lexemes fit their kinds and have separators between them, which may be empty except between two
words. -/
structure Printable [Alphabet] (items : List Printed) (tail : List Char) : Prop where
  writes : ∀ p ∈ items, p.kind.Writes p.lexeme
  gaps : ∀ p ∈ items, Separator p.gap
  tail : Separator tail
  apart : items.IsChain fun p q =>
    p.kind.isWordLike = true → q.kind.isWordLike = true → q.gap ≠ []
  whole : ∀ gap, ¬ printInFive gap <:+: items

namespace Printable

variable {p : Printed} {items : List Printed} {tail : List Char}

theorem of_cons [Alphabet] (h : Printable (p :: items) tail) : Printable items tail where
  writes q hq := h.writes q (List.mem_cons_of_mem p hq)
  gaps q hq := h.gaps q (List.mem_cons_of_mem p hq)
  tail := h.tail
  apart := h.apart.tail
  whole gap hgap := h.whole gap (hgap.trans (List.suffix_cons p items).isInfix)

theorem exists_of_cons [Alphabet] {c : Char} {cs : List Char} (h : Printable items tail)
    (hc : printed items tail = c :: cs) (hblank : isBlank c = false) (hslash : c ≠ '/') :
    ∃ kind word rest, items = ⟨[], kind, c :: word⟩ :: rest ∧ cs = word ++ printed rest tail := by
  have hnone : ∀ {gap : List Char}, Separator gap → ∀ ds, gap ++ ds = c :: cs → gap = [] := by
    intro gap hgap ds heq
    cases gap with
    | nil => rfl
    | cons d gap =>
      obtain ⟨rfl, -⟩ := List.cons.inj heq
      rcases hgap.head d rfl with hd | hd
      · simp [hblank] at hd
      · exact absurd hd hslash
  cases items with
  | nil =>
    have htail := hnone h.tail [] (by simpa [printed] using hc)
    simp [printed, htail] at hc
  | cons q rest =>
    obtain ⟨gap, kind, lexeme⟩ := q
    rw [printed_cons] at hc
    obtain rfl := hnone (h.gaps _ List.mem_cons_self) _ hc
    obtain ⟨d, word, rfl⟩ := List.exists_cons_of_ne_nil (TokenKind.ne_nil_of_writes
      (h.writes _ List.mem_cons_self))
    obtain ⟨rfl, hcs⟩ := List.cons.inj hc
    exact ⟨kind, word, rest, rfl, hcs.symm⟩

theorem stops [Alphabet] (h : Printable (p :: items) tail) (hp : p.kind.isWordLike = true) :
    Piece.Stops (printed items tail) := by
  intro d hd
  rw [Bool.eq_false_iff]
  intro hcontinue
  obtain ⟨cs, hcs⟩ := List.head?_eq_some_iff.1 hd
  obtain ⟨kind, word, rest, rfl, -⟩ := h.of_cons.exists_of_cons hcs
    (not_isBlank_of_isIdentContinue hcontinue) (ne_slash_of_isIdentContinue hcontinue)
  have hword : ¬ kind.isWordLike = true := by
    intro hkind
    exact (List.isChain_cons_cons.1 h.apart).1 hp hkind rfl
  generalize htext : d :: word = text at h
  cases TokenKind.shape_of_writes (h.of_cons.writes _ List.mem_cons_self) with
  | number | print => exact hword rfl
  | word => exact hword (TokenKind.isWordLike_ofWord _)
  | andAnd =>
    obtain ⟨rfl, -⟩ := List.cons.inj htext
    rw [not_isIdentContinue_of_ascii (by decide) (by decide)] at hcontinue
    cases hcontinue
  | sign hmem =>
    obtain ⟨rfl, -⟩ := List.cons.inj htext
    simp [Piece.not_isIdentContinue_sign _ hmem] at hcontinue

/-! ## The print word is never met -/

theorem exists_of_dot [Alphabet] {cs : List Char} (h : Printable items tail) (hcs : printed items tail = '.' :: cs) :
    ∃ rest, items = ⟨[], .dot, ['.']⟩ :: rest ∧ cs = printed rest tail := by
  obtain ⟨kind, word, rest, rfl, rfl⟩ := h.exists_of_cons hcs (by decide) (by decide)
  generalize htext : '.' :: word = text at h ⊢
  cases TokenKind.shape_of_writes (h.writes _ List.mem_cons_self) with
  | number hc =>
    obtain ⟨rfl, -⟩ := List.cons.inj htext
    exact absurd hc (by decide)
  | word hc =>
    obtain ⟨rfl, -⟩ := List.cons.inj htext
    have hcontinue := isIdentContinue_of_isIdentStart hc
    rw [not_isIdentContinue_of_ascii (by decide) (by decide)] at hcontinue
    cases hcontinue
  | print | andAnd => exact absurd (List.cons.inj htext).1 (by decide)
  | @sign kind c hmem =>
    obtain ⟨rfl, rfl⟩ := List.cons.inj htext
    have hdot : ∀ entry ∈ TokenKind.signs, entry.1 = '.' → entry.2 = .dot := by decide
    obtain rfl : kind = .dot := hdot _ hmem rfl
    exact ⟨rest, rfl, rfl⟩

theorem exists_of_word [Alphabet] {c : Char} {cs after : List Char} (h : Printable items tail)
    (htext : printed items tail = c :: cs ++ after) (hc : isIdentStart c = true)
    (hcs : ∀ d ∈ cs, isIdentContinue d = true) (hafter : Piece.Stops after) (hprint : c ≠ 'S') :
    ∃ rest, items = ⟨[], TokenKind.ofWord (c :: cs), c :: cs⟩ :: rest ∧ after = printed rest tail := by
  have hcontinue := isIdentContinue_of_isIdentStart hc
  obtain ⟨kind, word, rest, rfl, hword⟩ := h.exists_of_cons htext
    (not_isBlank_of_isIdentContinue hcontinue) (ne_slash_of_isIdentContinue hcontinue)
  generalize hlexeme : c :: word = text at h ⊢
  have hshape := TokenKind.shape_of_writes (h.writes _ List.mem_cons_self)
  cases hshape with
  | number hd =>
    obtain ⟨rfl, -⟩ := List.cons.inj hlexeme
    simp [not_isDigit_of_isIdentStart hc] at hd
  | word hd hds =>
    obtain ⟨rfl, rfl⟩ := List.cons.inj hlexeme
    have hstops := h.stops (TokenKind.isWordLike_ofWord _)
    obtain ⟨rfl, rfl⟩ := Piece.append_inj_of_stop hafter hcs hds hstops hword
    exact ⟨rest, rfl, rfl⟩
  | print => exact absurd (List.cons.inj hlexeme).1 hprint
  | andAnd =>
    obtain ⟨rfl, -⟩ := List.cons.inj hlexeme
    rw [not_isIdentContinue_of_ascii (by decide) (by decide)] at hcontinue
    cases hcontinue
  | sign hmem =>
    obtain ⟨rfl, -⟩ := List.cons.inj hlexeme
    simp [Piece.not_isIdentContinue_sign _ hmem] at hcontinue

theorem not_isPrintWord [Alphabet] (h : Printable (p :: items) tail)
    (hp : p.kind = TokenKind.ofWord p.lexeme) :
    Piece.isPrintWord (p.lexeme ++ printed items tail) = false := by
  rw [Bool.eq_false_iff]
  intro hprint
  obtain ⟨gap, kind, text⟩ := p
  dsimp only at hp hprint
  subst hp
  have htext := TokenKind.isIdentContinue_of_mem (h.writes _ List.mem_cons_self)
  have hstops := h.stops (TokenKind.isWordLike_ofWord text)
  have hdot : ∀ cs, Piece.Stops ('.' :: cs) := by
    simp only [Piece.Stops, List.head?_cons, Option.mem_some_iff, forall_eq', forall_const]
    exact not_isIdentContinue_of_ascii (by decide) (by decide)
  have hletters : ∀ {cs : List Char}, cs.all Char.isAlphanum = true → ∀ d ∈ cs, isIdentContinue d = true :=
    fun hall d hd => isIdentContinue_of_isAlphanum (List.all_eq_true.1 hall d hd)
  -- The text goes on with the print word, and then no identifier goes on.
  obtain ⟨hstart, hend⟩ := Bool.and_eq_true_iff.1 hprint
  obtain ⟨after, hafter⟩ := List.isPrefixOf_iff_prefix.1 hstart
  rw [← hafter, List.drop_left] at hend
  have hstopsAfter : Piece.Stops after := by
    intro d hd
    rw [hd] at hend
    simpa using hend
  -- Its five parts are this token and the next four.
  have hparts : text ++ printed items tail = "System".toList ++ '.' :: ("out".toList ++ '.' ::
      ("println".toList ++ after)) := hafter.symm
  obtain ⟨rfl, hrest⟩ := Piece.append_inj_of_stop hstops htext (hletters (by decide)) (hdot _) hparts
  obtain ⟨items₁, rfl, hitems₁⟩ := h.of_cons.exists_of_dot hrest
  obtain ⟨items₂, rfl, hitems₂⟩ := h.of_cons.of_cons.exists_of_word hitems₁.symm
    (isIdentStart_of_isAlpha (by decide)) (hletters (by decide)) (hdot _) (by decide)
  obtain ⟨items₃, rfl, hitems₃⟩ := h.of_cons.of_cons.of_cons.exists_of_dot hitems₂.symm
  obtain ⟨items₄, rfl, -⟩ := h.of_cons.of_cons.of_cons.of_cons.exists_of_word hitems₃.symm
    (isIdentStart_of_isAlpha (by decide)) (hletters (by decide)) hstopsAfter (by decide)
  exact h.whole gap ⟨[], items₄, rfl⟩

end Printable

/-! ## The scan of a printed text -/

/-- What a piece is scanned as, wherever it stands. -/
def Piece.lexeme? : Piece → Option (TokenKind × String)
  | .token kind text => some (kind, String.ofList text)
  | _ => none

theorem Piece.map_tokensFrom (offset : Nat) (pieces : List Piece) :
    (tokensFrom offset pieces).map (fun t => (t.kind, t.lexeme)) = pieces.filterMap lexeme? := by
  induction pieces generalizing offset with
  | nil => rfl
  | cons piece pieces ih =>
    rw [tokensFrom_cons, List.map_append, ih]
    cases piece <;> rfl

theorem Piece.Silent.filterMap_lexeme? {pieces : List Piece} (h : Silent pieces) :
    pieces.filterMap lexeme? = [] := by
  rw [List.filterMap_eq_nil_iff]
  intro piece hpiece
  cases piece with
  | token kind text => simpa [token?] using (h _ hpiece).1
  | blank | lineComment | blockComment | openComment | badNumber | stray => rfl

/-- By induction over the tokens: each is scanned after what separates it from the one before. -/
theorem Printable.split_printed [Alphabet] {items : List Printed} {tail : List Char} (h : Printable items tail) :
    (Piece.split (printed items tail)).filterMap Piece.lexeme? =
        items.map (fun p => (p.kind, String.ofList p.lexeme)) ∧
      ∀ piece ∈ Piece.split (printed items tail), piece.error? 0 = none := by
  induction items with
  | nil =>
    obtain ⟨pieces, hsplit, hsilent⟩ := h.tail.split_append []
    rw [List.append_nil, Piece.split, List.append_nil] at hsplit
    rw [printed, List.flatMap_nil, List.nil_append, hsplit]
    exact ⟨hsilent.filterMap_lexeme?, fun piece hpiece => (hsilent piece hpiece).2⟩
  | cons p items ih =>
    obtain ⟨pieces, hsplit, hsilent⟩ := (h.gaps p List.mem_cons_self).split_append
      (p.lexeme ++ printed items tail)
    rw [Piece.split_lexeme (h.writes p List.mem_cons_self) h.stops h.not_isPrintWord] at hsplit
    obtain ⟨hwords, herrors⟩ := ih h.of_cons
    rw [printed_cons, hsplit, List.filterMap_append, hsilent.filterMap_lexeme?, List.nil_append,
      List.filterMap_cons, hwords]
    refine ⟨rfl, List.forall_mem_append.2 ⟨fun piece hpiece => (hsilent piece hpiece).2, ?_⟩⟩
    exact List.forall_mem_cons.2 ⟨rfl, herrors⟩

/-- Printed tokens are scanned back, without an error. -/
theorem scan_printed [Alphabet] (items : List Printed) (tail : List Char) (h : Printable items tail) :
    (scan (String.ofList (printed items tail))).tokens.map (fun t => (t.kind, t.lexeme)) =
        items.map (fun p => (p.kind, String.ofList p.lexeme)) ++ [(.endOfFile, "")] ∧
      (scan (String.ofList (printed items tail))).errors = [] := by
  obtain ⟨hwords, herrors⟩ := h.split_printed
  constructor
  · rw [tokens_scan_eq, List.map_append, tokensOf, Piece.map_tokensFrom, String.toList_ofList, hwords]
    rfl
  · rw [errors_scan_eq_nil_iff, String.toList_ofList]
    exact herrors

/-- The print word as one token, and then in five tokens with a comment among them. -/
def printWordTwice : List Printed :=
  [⟨[], .print, "System.out.println".toList⟩, ⟨"/***/".toList, .identifier, "System".toList⟩,
    ⟨[], .dot, ['.']⟩, ⟨[], .identifier, "out".toList⟩, ⟨"// é\n".toList, .dot, ['.']⟩,
    ⟨[], .identifier, "println".toList⟩, ⟨[], .star, ['*']⟩, ⟨"/*/*/".toList, .number, "07".toList⟩]

theorem scan_printed_printWordTwice :
    Printable printWordTwice [' '] ∧
      (scan "System.out.println/***/System.out// é\n.println*/*/*/07 ").tokens.map
          (fun t => (t.kind, t.lexeme)) =
        [(.print, "System.out.println"), (.identifier, "System"), (.dot, "."), (.identifier, "out"),
          (.dot, "."), (.identifier, "println"), (.star, "*"), (.number, "07"), (.endOfFile, "")] ∧
      (scan "System.out.println/***/System.out// é\n.println*/*/*/07 ").errors = [] := by
  have hname : ∀ c cs, TokenKind.keywords.lookup (c :: cs) = none ∧ isIdentStart c = true ∧
      cs.all isIdentContinue = true → TokenKind.identifier.Writes (c :: cs) := by
    rintro c cs ⟨hlookup, hc, hcs⟩
    exact ⟨hlookup, c, cs, rfl, hc, List.all_eq_true.1 hcs⟩
  have hclosed : ∀ body, body ∈ [['*'], ['/']] → ¬ Piece.Closes body := by
    unfold Piece.Closes
    decide
  have h : Printable printWordTwice [' '] := by
    refine ⟨?_, ?_, .blank (by decide) .nil, ?_, fun gap hgap => ?_⟩
    · simp only [printWordTwice, List.forall_mem_cons]
      exact ⟨rfl, hname _ _ (by decide), rfl, hname _ _ (by decide), rfl,
        hname _ _ (by decide), rfl, ⟨by decide, List.all_eq_true.1 (by decide)⟩,
        List.forall_mem_nil _⟩
    · simp only [printWordTwice, List.forall_mem_cons]
      exact ⟨.nil, .blockComment (hclosed ['*'] (by decide)) .nil, .nil, .nil,
        .lineComment (by decide : '\n' ∉ " é".toList) .nil, .nil, .nil,
        .blockComment (hclosed ['/'] (by decide)) .nil, List.forall_mem_nil _⟩
    · simp [printWordTwice]
      decide
    · -- The five tokens do not all touch, whatever stands before the first of them.
      have hfour : (printInFive []).tail <:+: printWordTwice :=
        (List.suffix_cons _ _).isInfix.trans hgap
      revert hfour
      decide
  exact ⟨h, scan_printed printWordTwice [' '] h⟩

end ClassCheck
