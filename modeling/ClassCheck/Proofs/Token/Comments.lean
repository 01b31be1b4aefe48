import ClassCheck.Token.Piece

/-!
# White space and comments

A block comment ends at the first `*/` after the two characters that open it. A line comment ends where
its line does.
-/

namespace ClassCheck

open Text

namespace Piece

/-! ## The end of a block comment -/

/-- The text holds the two characters that close a block comment. -/
def Closes (cs : List Char) : Prop := ['*', '/'] <:+: cs

theorem closes_cons_iff {c : Char} {cs : List Char} :
    Closes (c :: cs) ↔ (c = '*' ∧ cs.head? = some '/') ∨ Closes cs := by
  unfold Closes
  rw [List.infix_cons_iff, List.cons_prefix_cons]
  refine or_congr_left (and_congr eq_comm ?_)
  cases cs <;> simp [eq_comm]

theorem splitClose_cons {c : Char} {cs : List Char} (h : ¬ (c = '*' ∧ cs.head? = some '/')) :
    splitClose (c :: cs) = (splitClose cs).map fun (body, rest) => (c :: body, rest) := by
  apply splitClose.eq_3
  rintro rest rfl rfl
  exact h ⟨rfl, rfl⟩

theorem splitClose_of_not_closes {body : List Char} (h : ¬ Closes body) (rest : List Char) :
    splitClose (body ++ '*' :: '/' :: rest) = some (body ++ ['*', '/'], rest) := by
  induction body with
  | nil => rfl
  | cons c body ih =>
    rw [closes_cons_iff, not_or] at h
    have hopen : ¬ (c = '*' ∧ (body ++ '*' :: '/' :: rest).head? = some '/') := by
      -- A star at the end of the body is followed by the star that closes the comment.
      cases body with
      | nil => simp
      | cons d body => simpa using h.1
    rw [List.cons_append, splitClose_cons hopen, ih h.2]
    rfl

theorem splitClose_eq_none_iff {cs : List Char} : splitClose cs = none ↔ ¬ Closes cs := by
  fun_induction splitClose cs with
  | case1 => simp [Closes]
  | case2 cs => simp [closes_cons_iff]
  | case3 c cs hopen ih =>
    have hhead : ¬ (c = '*' ∧ cs.head? = some '/') := by
      rintro ⟨rfl, h⟩
      obtain ⟨ds, rfl⟩ := List.head?_eq_some_iff.1 h
      exact hopen ds rfl rfl
    rw [Option.map_eq_none_iff, ih, closes_cons_iff, not_or]
    exact (and_iff_right hhead).symm

theorem exists_of_splitClose {cs text rest : List Char} (h : splitClose cs = some (text, rest)) :
    ∃ body, text = body ++ ['*', '/'] ∧ ¬ Closes body := by
  fun_induction splitClose cs generalizing text rest with
  | case1 => simp at h
  | case2 cs =>
    simp only [Option.some.injEq, Prod.mk.injEq] at h
    exact ⟨[], h.1.symm, by simp [Closes]⟩
  | case3 c cs hopen ih =>
    obtain ⟨⟨text', rest'⟩, hsplit, heq⟩ := Option.map_eq_some_iff.1 h
    simp only [Prod.mk.injEq] at heq
    obtain ⟨body, rfl, hbody⟩ := ih hsplit
    refine ⟨c :: body, heq.1.symm, ?_⟩
    rw [closes_cons_iff, not_or]
    refine ⟨?_, hbody⟩
    rintro ⟨rfl, hhead⟩
    obtain ⟨ds, rfl⟩ := List.head?_eq_some_iff.1 hhead
    exact hopen _ rfl (splitClose_append hsplit).symm

theorem splitClose_append_right {cs text rest : List Char} (h : splitClose cs = some (text, rest))
    (ds : List Char) : splitClose (cs ++ ds) = some (text, rest ++ ds) := by
  obtain ⟨body, rfl, hbody⟩ := exists_of_splitClose h
  rw [← splitClose_append h]
  simpa using splitClose_of_not_closes hbody (rest ++ ds)

/-! ## What separates tokens -/

/-- White space, or a whole comment, before the text `after`. -/
inductive IsTrivium (after : List Char) : List Char → Prop
  | blank {c : Char} : isBlank c = true → IsTrivium after [c]
  | lineComment {body : List Char} : '\n' ∉ body → (∀ c ∈ after.head?, c = '\n') →
      IsTrivium after ('/' :: '/' :: body)
  | blockComment {body : List Char} : ¬ Closes body →
      IsTrivium after ('/' :: '*' :: (body ++ ['*', '/']))

/-- A block comment that is not closed. -/
def Unclosed (cs : List Char) : Prop := ∃ body, cs = '/' :: '*' :: body ∧ ¬ Closes body

theorem isTrivium_lineCommentOf {cs after : List Char}
    (h : '/' :: '/' :: cs = (lineCommentOf cs).text ++ after) :
    IsTrivium after (lineCommentOf cs).text := by
  simp only [lineCommentOf, text, List.cons_append, List.cons.injEq, true_and] at h ⊢
  have hafter : after = cs.dropWhile (· != '\n') :=
    List.append_cancel_left (h.symm.trans List.takeWhile_append_dropWhile.symm)
  refine .lineComment (fun hmem => ?_) (fun c hc => ?_)
  · simpa using List.all_eq_true.1 List.all_takeWhile '\n' hmem
  · have hstop := List.head?_dropWhile_not (· != '\n') cs
    rw [← hafter, hc] at hstop
    simpa using hstop

theorem blockCommentOf_cases {cs after : List Char}
    (h : '/' :: '*' :: cs = (blockCommentOf cs).text ++ after) :
    (∃ text, blockCommentOf cs = .blockComment text ∧ IsTrivium after text) ∨
      (blockCommentOf cs = .openComment ('/' :: '*' :: cs) ∧ Unclosed ('/' :: '*' :: cs) ∧
        after = []) := by
  unfold blockCommentOf at h ⊢
  cases hclose : splitClose cs with
  | none =>
    rw [hclose] at h
    refine .inr ⟨rfl, ⟨cs, rfl, splitClose_eq_none_iff.1 hclose⟩, ?_⟩
    simpa [text] using h
  | some found =>
    obtain ⟨closed, rest⟩ := found
    obtain ⟨body, rfl, hbody⟩ := exists_of_splitClose hclose
    exact .inl ⟨_, rfl, .blockComment hbody⟩

end Piece

end ClassCheck
