import ClassCheck.Proofs.Text.Classes
import ClassCheck.Proofs.Token.Lexemes

/-!
# Cutting a text between two pieces

What comes before a piece has no part in it, and what comes after it has only where an identifier
could go on. So a text that is cut between two of its pieces is split into the same pieces on either
side, unless the cut goes through an identifier.
-/

namespace ClassCheck

open Text

namespace Piece

/-- A character of an identifier on either side: the two could be one word. -/
def Joins [Alphabet] (xs ys : List Char) : Prop :=
  xs.getLast?.any isIdentContinue = true ∧ ys.head?.any isIdentContinue = true

theorem Joins.append_left [Alphabet] {xs ys : List Char} (h : Joins xs ys) (ws : List Char) :
    Joins (ws ++ xs) ys := by
  refine ⟨?_, h.2⟩
  obtain ⟨c, hlast, hc⟩ := (Option.any_eq_true _ _).1 h.1
  rw [List.getLast?_append, hlast, Option.some_or, Option.any_some, hc]

theorem Joins.of_append [Alphabet] {ws xs ys : List Char} (h : Joins (ws ++ xs) ys) (hxs : xs ≠ []) :
    Joins xs ys := by
  refine ⟨?_, h.2⟩
  have hlast := h.1
  rwa [List.getLast?_append, List.getLast?_eq_some_getLast hxs, Option.some_or,
    ← List.getLast?_eq_some_getLast hxs] at hlast

/-! ## Words, numbers and comments that end before the cut -/

section

variable {α : Type} {p : α → Bool} {xs ys : List α}
  (h : ((xs ++ ys).takeWhile p).length ≤ xs.length)

include h

theorem takeWhile_eq_of_append : xs.takeWhile p = (xs ++ ys).takeWhile p := by
  rw [List.takeWhile_append] at h ⊢
  split
  · next hall =>
    rw [if_pos hall, List.length_append] at h
    have hnone : (ys.takeWhile p).length = 0 := by omega
    have htake := (List.takeWhile_prefix p (l := xs)).eq_of_length hall
    rw [htake, List.eq_nil_of_length_eq_zero hnone, List.append_nil]
  · rfl

theorem dropWhile_eq_of_append : (xs ++ ys).dropWhile p = xs.dropWhile p ++ ys := by
  have hwhole : xs.takeWhile p ++ (xs ++ ys).dropWhile p =
      xs.takeWhile p ++ (xs.dropWhile p ++ ys) := by
    rw [← List.append_assoc, List.takeWhile_append_dropWhile, takeWhile_eq_of_append h,
      List.takeWhile_append_dropWhile]
  exact List.append_cancel_left hwhole

end

section

variable {α : Type} {p : α → Bool} {ys : List α} (h : ∀ y ∈ ys.head?, p y = false)

include h

theorem takeWhile_of_stop : ys.takeWhile p = [] := by
  cases ys with
  | nil => rfl
  | cons y ys => rw [List.takeWhile_cons_of_neg (by simp [h y rfl])]

theorem takeWhile_append_of_stop (xs : List α) : (xs ++ ys).takeWhile p = xs.takeWhile p := by
  rw [List.takeWhile_append, takeWhile_of_stop h]
  split
  · next hall => rw [List.append_nil, (List.takeWhile_prefix p).eq_of_length hall]
  · rfl

theorem dropWhile_append_of_stop (xs : List α) : (xs ++ ys).dropWhile p = xs.dropWhile p ++ ys := by
  apply dropWhile_eq_of_append
  rw [takeWhile_append_of_stop h]
  exact (List.takeWhile_prefix p).length_le

theorem dropWhile_of_stop : ys.dropWhile p = ys := by
  simpa using dropWhile_append_of_stop h []

theorem append_inj_of_stop {xs zs ws : List α} (hxs : ∀ x ∈ xs, p x = true) (hzs : ∀ z ∈ zs, p z = true)
    (hws : ∀ w ∈ ws.head?, p w = false) (heq : xs ++ ys = zs ++ ws) : xs = zs ∧ ys = ws := by
  have htake := congrArg (List.takeWhile p) heq
  rw [List.takeWhile_append_of_pos hxs, List.takeWhile_append_of_pos hzs, takeWhile_of_stop h,
    takeWhile_of_stop hws, List.append_nil, List.append_nil] at htake
  subst htake
  exact ⟨rfl, List.append_cancel_left heq⟩

end

theorem splitClose_length {cs body rest : List Char} (h : splitClose cs = some (body, rest)) :
    2 ≤ body.length := by
  fun_induction splitClose cs generalizing body rest with
  | case1 => cases h
  | case2 =>
    obtain ⟨rfl, -⟩ := Prod.mk.inj (Option.some.inj h)
    simp
  | case3 c cs _ ih =>
    obtain ⟨⟨body', rest'⟩, hbody, heq⟩ := Option.map_eq_some_iff.1 h
    obtain ⟨rfl, -⟩ := Prod.mk.inj heq
    exact Nat.le_succ_of_le (ih hbody)

theorem splitClose_of_append {xs ys body rest : List Char}
    (h : splitClose (xs ++ ys) = some (body, rest)) (hlen : body.length ≤ xs.length) :
    ∃ rest', splitClose xs = some (body, rest') := by
  fun_induction splitClose xs generalizing body rest with
  | case1 =>
    have := splitClose_length h
    rw [List.length_nil] at hlen
    omega
  | case2 cs =>
    obtain ⟨rfl, -⟩ := Prod.mk.inj (Option.some.inj h)
    exact ⟨cs, rfl⟩
  | case3 c cs hopen ih =>
    have hnot : ∀ ds, c = '*' → cs ++ ys = '/' :: ds → False := by
      intro ds hc hds
      cases cs with
      | nil =>
        have := splitClose_length h
        rw [List.length_singleton] at hlen
        omega
      | cons d cs => exact hopen cs hc (by rw [(List.cons.inj hds).1])
    rw [List.cons_append, splitClose.eq_3 _ _ hnot] at h
    obtain ⟨⟨body', rest'⟩, hbody, heq⟩ := Option.map_eq_some_iff.1 h
    obtain ⟨rfl, rfl⟩ := Prod.mk.inj heq
    obtain ⟨rest₀, hrest₀⟩ := ih hbody (Nat.le_of_succ_le_succ hlen)
    exact ⟨rest₀, by rw [hrest₀]; rfl⟩

/-! ## The first piece -/

variable {c : Char} {xs ys : List Char}

theorem blockCommentOf_of_append
    (hlen : (blockCommentOf (xs ++ ys)).text.length ≤ xs.length + 2) :
    blockCommentOf xs = blockCommentOf (xs ++ ys) := by
  unfold blockCommentOf at hlen ⊢
  cases hclose : splitClose (xs ++ ys) with
  | none =>
    rw [hclose] at hlen
    simp only [text, List.length_cons, List.length_append] at hlen
    obtain rfl : ys = [] := List.eq_nil_of_length_eq_zero (by omega)
    rw [List.append_nil] at hclose ⊢
    rw [hclose]
  | some found =>
    obtain ⟨body, rest⟩ := found
    rw [hclose] at hlen
    obtain ⟨rest', hrest⟩ := splitClose_of_append hclose (by simpa [text] using hlen)
    rw [hrest]

theorem number_of_append [Alphabet] (hlen : (number c (xs ++ ys)).text.length ≤ xs.length + 1) :
    number c xs = number c (xs ++ ys) := by
  have htext : (number c (xs ++ ys)).text.length = ((xs ++ ys).takeWhile Char.isDigit).length +
      (((xs ++ ys).dropWhile Char.isDigit).takeWhile isIdentContinue).length + 1 := by
    unfold number
    split
    · next hnil => simp [text, hnil]
    · simp only [text, List.length_append, List.length_cons]
      omega
  have hdigits : ((xs ++ ys).takeWhile Char.isDigit).length ≤ xs.length := by omega
  have htail : ((xs.dropWhile Char.isDigit ++ ys).takeWhile isIdentContinue).length ≤
      (xs.dropWhile Char.isDigit).length := by
    have hsum := congrArg List.length (List.takeWhile_append_dropWhile (p := Char.isDigit) (l := xs))
    rw [List.length_append, takeWhile_eq_of_append hdigits] at hsum
    rw [dropWhile_eq_of_append hdigits] at htext
    omega
  unfold number
  rw [dropWhile_eq_of_append hdigits, ← takeWhile_eq_of_append hdigits,
    ← takeWhile_eq_of_append htail]

theorem isPrintWord_of_append [Alphabet] (hlen : TokenKind.printWord.length ≤ xs.length)
    (hjoin : ¬ Joins xs ys) : isPrintWord xs = isPrintWord (xs ++ ys) := by
  have hstart : TokenKind.printWord.isPrefixOf xs = TokenKind.printWord.isPrefixOf (xs ++ ys) := by
    rw [Bool.eq_iff_iff, List.isPrefixOf_iff_prefix, List.isPrefixOf_iff_prefix]
    refine ⟨fun h => h.trans (List.prefix_append _ _), fun h => ?_⟩
    exact List.prefix_of_prefix_length_le h (List.prefix_append _ _) hlen
  unfold isPrintWord
  rw [← hstart, List.drop_append_of_le_length hlen]
  cases hword : TokenKind.printWord.isPrefixOf xs with
  | false => rfl
  | true =>
    obtain ⟨rest, rfl⟩ := List.isPrefixOf_iff_prefix.1 hword
    rw [List.drop_left]
    cases rest with
    | cons d rest => rfl
    | nil =>
      -- The print word ends at the cut, and it ends in a letter.
      have hlast : (TokenKind.printWord ++ []).getLast?.any isIdentContinue = true :=
        isIdentContinue_of_isAlphanum (c := 'n') (by decide)
      have hnext : ys.head?.any isIdentContinue = false :=
        Bool.eq_false_iff.2 fun hnext => hjoin ⟨hlast, hnext⟩
      rw [List.nil_append, hnext]
      rfl

theorem word_of_append [Alphabet] (hlen : (word c (xs ++ ys)).text.length ≤ xs.length + 1)
    (hjoin : ¬ Joins (c :: xs) ys) : word c xs = word c (xs ++ ys) := by
  have hprint : isPrintWord (c :: xs) = isPrintWord (c :: (xs ++ ys)) := by
    rcases Nat.lt_or_ge (c :: xs).length TokenKind.printWord.length with hshort | hlong
    · have hxs : isPrintWord (c :: xs) = false := by
        rw [Bool.eq_false_iff]
        intro h
        obtain ⟨hstart, -⟩ := Bool.and_eq_true_iff.1 h
        have := (List.isPrefixOf_iff_prefix.1 hstart).length_le
        omega
      have hcut : isPrintWord (c :: (xs ++ ys)) = false := by
        rw [Bool.eq_false_iff]
        intro h
        rw [word, if_pos h] at hlen
        simp only [text, List.length_cons] at hlen hshort
        omega
      rw [hxs, hcut]
    · exact isPrintWord_of_append hlong hjoin
  unfold word at hlen ⊢
  rw [hprint]
  split
  · rfl
  · next hnot =>
    rw [if_neg hnot] at hlen
    rw [takeWhile_eq_of_append (Nat.le_of_succ_le_succ hlen)]

theorem sign_of_append (hlen : (sign c (xs ++ ys)).text.length ≤ xs.length + 1) :
    sign c xs = sign c (xs ++ ys) := by
  cases xs with
  | cons d xs => rfl
  | nil =>
    unfold sign at hlen ⊢
    split at hlen
    · simp [text] at hlen
    · next hnot =>
      rw [if_neg hnot]
      simp

/-- A comment comes before everything else that a slash could begin. -/
theorem first_eq [Alphabet] (c : Char) (cs : List Char) :
    first c cs =
      if isBlank c then .blank c
      else if c = '/' ∧ cs.head? = some '/' then lineCommentOf cs.tail
      else if c = '/' ∧ cs.head? = some '*' then blockCommentOf cs.tail
      else if c.isDigit then number c cs
      else if isIdentStart c then word c cs
      else sign c cs := by
  unfold first
  split
  · rfl
  split
  · rfl
  · rfl
  · next hline hblock =>
    have hnoLine : ¬ (c = '/' ∧ cs.head? = some '/') := by
      rintro ⟨rfl, h⟩
      obtain ⟨rest, rfl⟩ := List.head?_eq_some_iff.1 h
      exact hline rest rfl rfl
    have hnoBlock : ¬ (c = '/' ∧ cs.head? = some '*') := by
      rintro ⟨rfl, h⟩
      obtain ⟨rest, rfl⟩ := List.head?_eq_some_iff.1 h
      exact hblock rest rfl rfl
    rw [if_neg hnoLine, if_neg hnoBlock]

theorem lineCommentOf_of_append
    (hlen : (lineCommentOf (xs ++ ys)).text.length ≤ xs.length + 2) :
    lineCommentOf xs = lineCommentOf (xs ++ ys) := by
  unfold lineCommentOf
  rw [takeWhile_eq_of_append (Nat.le_of_succ_le_succ (Nat.le_of_succ_le_succ hlen))]

theorem first_of_append [Alphabet] (hlen : (first c (xs ++ ys)).text.length ≤ xs.length + 1)
    (hjoin : ¬ Joins (c :: xs) ys) : first c xs = first c (xs ++ ys) := by
  rw [first_eq c (xs ++ ys)] at hlen ⊢
  rw [first_eq c xs]
  by_cases hblank : isBlank c = true
  · rw [if_pos hblank, if_pos hblank]
  rw [if_neg hblank] at hlen ⊢
  rw [if_neg hblank]
  by_cases hline : c = '/' ∧ (xs ++ ys).head? = some '/'
  · rw [if_pos hline] at hlen ⊢
    cases xs with
    | nil => simp [lineCommentOf, text] at hlen
    | cons d xs =>
      have hline' : c = '/' ∧ (d :: xs).head? = some '/' := hline
      rw [if_pos hline']
      exact lineCommentOf_of_append hlen
  rw [if_neg hline] at hlen ⊢
  by_cases hblock : c = '/' ∧ (xs ++ ys).head? = some '*'
  · rw [if_pos hblock] at hlen ⊢
    cases xs with
    | nil =>
      obtain ⟨body, -, htext, -⟩ := text_blockCommentOf (([] ++ ys).tail)
      rw [htext] at hlen
      simp at hlen
    | cons d xs =>
      have hline' : ¬ (c = '/' ∧ (d :: xs).head? = some '/') := hline
      have hblock' : c = '/' ∧ (d :: xs).head? = some '*' := hblock
      rw [if_neg hline', if_pos hblock']
      exact blockCommentOf_of_append hlen
  rw [if_neg hblock] at hlen ⊢
  have hhead : ∀ d, xs.head? = some d → (xs ++ ys).head? = some d := by
    intro d hd
    rw [List.head?_append, hd, Option.some_or]
  rw [if_neg fun h => hline ⟨h.1, hhead _ h.2⟩, if_neg fun h => hblock ⟨h.1, hhead _ h.2⟩]
  split
  · next hdigit =>
    rw [if_pos hdigit] at hlen
    exact number_of_append hlen
  · next hdigit =>
    rw [if_neg hdigit] at hlen
    split
    · next hstart =>
      rw [if_pos hstart] at hlen
      exact word_of_append hlen hjoin
    · next hstart =>
      rw [if_neg hstart] at hlen
      exact sign_of_append hlen

/-! ## All pieces -/

theorem split_cons_iff [Alphabet] {cs : List Char} {piece : Piece} {rest : List Piece} :
    split cs = piece :: rest ↔
      ∃ d ds, cs = d :: ds ∧ first d ds = piece ∧
        split ((d :: ds).drop piece.text.length) = rest := by
  constructor
  · intro h
    cases cs with
    | nil => simp [split] at h
    | cons d ds =>
      rw [split] at h
      obtain ⟨rfl, hrest⟩ := List.cons.inj h
      exact ⟨d, ds, rfl, rfl, hrest⟩
  · rintro ⟨d, ds, rfl, rfl, rfl⟩
    rw [split]

theorem split_texts_of_append [Alphabet] {cs : List Char} {front back : List Piece}
    (h : split cs = front ++ back) : split (back.flatMap text) = back := by
  induction front generalizing cs with
  | nil =>
    rw [List.nil_append] at h
    rw [← h, texts_split]
  | cons piece front ih =>
    obtain ⟨d, ds, -, -, hrest⟩ := split_cons_iff.1 h
    exact ih hrest

/-- What comes after a cut has no part in the pieces before it, unless the cut is in a word. -/
theorem split_of_append [Alphabet] {front back : List Piece} (h : split (xs ++ ys) = front ++ back)
    (hfront : front.flatMap text = xs) (hjoin : ¬ Joins xs ys) : split xs = front := by
  induction front generalizing xs with
  | nil =>
    obtain rfl := hfront
    rw [List.flatMap_nil, split]
  | cons piece front ih =>
    obtain ⟨d, ds, hcs, hpiece, hrest⟩ := split_cons_iff.1 h
    obtain ⟨body, -, htext, -⟩ := text_first d ds
    rw [hpiece] at htext
    -- The text before the cut is that of the piece and of the pieces after it.
    obtain rfl : xs = d :: (body ++ front.flatMap text) := by
      rw [← hfront, List.flatMap_cons, htext, List.cons_append]
    obtain rfl : body ++ front.flatMap text ++ ys = ds := (List.cons.inj hcs).2
    have hfirst : first d (body ++ front.flatMap text) = piece := by
      rw [← hpiece]
      apply first_of_append _ hjoin
      rw [hpiece, htext, List.length_cons, List.length_append]
      omega
    refine split_cons_iff.2 ⟨d, body ++ front.flatMap text, rfl, hfirst, ?_⟩
    have hdrop : ∀ zs, (d :: (body ++ zs)).drop piece.text.length = zs := by
      intro zs
      rw [htext]
      exact List.drop_left
    rw [hdrop]
    rw [List.append_assoc, hdrop] at hrest
    exact ih hrest rfl fun h => hjoin (h.append_left (d :: body))

/-! ## Cutting next to a token -/

theorem not_isIdentContinue_sign [Alphabet] : ∀ entry ∈ TokenKind.signs, isIdentContinue entry.1 = false := by
  have htable : ∀ entry ∈ TokenKind.signs, entry.1.toNat < 0x80 ∧ (entry.1.isAlphanum || entry.1 == '_') = false := by
    decide
  intro entry hmem
  obtain ⟨hascii, hnot⟩ := htable entry hmem
  exact not_isIdentContinue_of_ascii hascii hnot

theorem eq_dropWhile_of_append {p : Char → Bool} {cs rest : List Char}
    (h : cs = cs.takeWhile p ++ rest) : rest = cs.dropWhile p :=
  List.append_cancel_left (h.symm.trans List.takeWhile_append_dropWhile.symm)

/-- A token is never cut short: no word goes on where a token ends. -/
theorem not_joins_of_token [Alphabet] {cs rest word : List Char} {kind : TokenKind}
    (h : first c cs = .token kind word) (htext : c :: cs = word ++ rest) : ¬ Joins word rest := by
  rintro ⟨hlast, hnext⟩
  rw [first_eq] at h
  split at h
  · cases h
  split at h
  · cases h
  split at h
  · unfold blockCommentOf at h
    split at h <;> cases h
  split at h
  · unfold number at h
    split at h
    · next hnone =>
      obtain ⟨-, rfl⟩ := Piece.token.inj h
      obtain rfl := eq_dropWhile_of_append (List.cons.inj htext).2
      obtain ⟨d, hd, hcontinue⟩ := (Option.any_eq_true _ _).1 hnext
      obtain ⟨ds, hds⟩ := List.head?_eq_some_iff.1 hd
      rw [hds, List.takeWhile_cons_of_pos hcontinue] at hnone
      cases hnone
    · cases h
  split at h
  · unfold Piece.word at h
    split at h
    · next hprint =>
      obtain ⟨-, rfl⟩ := Piece.token.inj h
      obtain ⟨-, hprint⟩ := Bool.and_eq_true_iff.1 hprint
      rw [htext, List.drop_left, hnext] at hprint
      cases hprint
    · obtain ⟨-, rfl⟩ := Piece.token.inj h
      obtain rfl := eq_dropWhile_of_append (List.cons.inj htext).2
      obtain ⟨d, hd, hcontinue⟩ := (Option.any_eq_true _ _).1 hnext
      have hstop := List.head?_dropWhile_not isIdentContinue cs
      rw [hd] at hstop
      exact Bool.eq_false_iff.1 hstop hcontinue
  · unfold sign at h
    split at h
    · obtain ⟨-, rfl⟩ := Piece.token.inj h
      have hsign : isIdentContinue '&' = false := not_isIdentContinue_of_ascii (by decide) (by decide)
      simp [hsign] at hlast
    · split at h
      · next kind' hk =>
        obtain ⟨-, rfl⟩ := Piece.token.inj h
        have hsign := not_isIdentContinue_sign (c, kind') (mem_of_lookup hk)
        simp [hsign] at hlast
      · cases h

theorem split_texts_of_token [Alphabet] {cs word : List Char} {kind : TokenKind} {before mid after : List Piece}
    (h : split cs = before ++ (mid ++ token kind word :: after)) :
    split ((mid ++ [token kind word]).flatMap text) = mid ++ [token kind word] := by
  have hcs : split cs = (before ++ mid) ++ token kind word :: after := by
    rw [h, List.append_assoc]
  obtain ⟨d, ds, htext, hfirst, -⟩ := split_cons_iff.1 (split_texts_of_append hcs)
  have hne : word ≠ [] := by
    obtain ⟨body, -, hword, -⟩ := text_first d ds
    rw [hfirst] at hword
    rintro rfl
    cases hword
  have hstretch : split ((mid ++ [token kind word]).flatMap text ++ after.flatMap text) =
      (mid ++ [token kind word]) ++ after := by
    rw [← List.flatMap_append, List.append_assoc]
    exact split_texts_of_append h
  refine split_of_append hstretch rfl fun hjoin => ?_
  rw [List.flatMap_append, List.flatMap_singleton] at hjoin
  exact not_joins_of_token hfirst htext.symm (hjoin.of_append hne)

end Piece

end ClassCheck
