import ClassCheck.Text.Alphabet

/-!
# White space, digits and identifiers

White space is in no identifier. A digit may continue an identifier but not begin it. Of ASCII, identifiers have the
letters, the digits and the low line.
-/

namespace ClassCheck.Text

variable [Alphabet] {c : Char}

theorem isIdentContinue_of_isIdentStart (h : isIdentStart c = true) : isIdentContinue c = true := by
  simp only [isIdentStart, isIdentContinue, Bool.or_eq_true] at h ⊢
  exact h.imp_right (Alphabet.isContinue_of_isStart c)

theorem ident_of_isDigit (h : c.isDigit = true) : isIdentContinue c = true ∧ isIdentStart c = false := by
  have hline : (c == '_') = false := by
    rw [beq_eq_false_iff_ne]
    rintro rfl
    cases h
  simp [isIdentContinue, isIdentStart, hline, Alphabet.isContinue_of_isDigit c h, Alphabet.not_isStart_of_isDigit c h]

theorem not_isDigit_of_isIdentStart (h : isIdentStart c = true) : c.isDigit = false := by
  rw [Bool.eq_false_iff]
  intro hdigit
  simp [(ident_of_isDigit hdigit).2] at h

theorem not_isIdentContinue_of_isBlank (h : isBlank c = true) : isIdentContinue c = false := by
  have hline : (c == '_') = false := by
    rw [beq_eq_false_iff_ne]
    rintro rfl
    revert h
    decide
  rw [isIdentContinue, hline, Alphabet.not_isContinue_of_isBlank c h]
  rfl

theorem not_isBlank_of_isIdentContinue (h : isIdentContinue c = true) : isBlank c = false := by
  rw [Bool.eq_false_iff]
  intro hblank
  simp [not_isIdentContinue_of_isBlank hblank] at h

theorem isIdentStart_of_isAlpha (h : c.isAlpha = true) : isIdentStart c = true := by
  rw [isIdentStart, Alphabet.isStart_of_isAlpha c h, Bool.or_true]

theorem isIdentContinue_of_isAlphanum (h : c.isAlphanum = true) : isIdentContinue c = true := by
  rcases Bool.or_eq_true_iff.1 h with halpha | hdigit
  · exact isIdentContinue_of_isIdentStart (isIdentStart_of_isAlpha halpha)
  · exact (ident_of_isDigit hdigit).1

theorem not_isIdentContinue_of_ascii (hascii : c.toNat < 0x80) (h : (c.isAlphanum || c == '_') = false) :
    isIdentContinue c = false := by
  rw [Bool.eq_false_iff, ne_eq, Bool.or_eq_true, beq_iff_eq] at h
  rw [Bool.eq_false_iff]
  intro hcontinue
  simp only [isIdentContinue, Bool.or_eq_true, beq_iff_eq] at hcontinue
  rcases hcontinue with hline | hcontinue
  · exact h (.inr hline)
  · exact h (Alphabet.isAlphanum_of_isContinue c hascii hcontinue)

theorem not_isIdentStart_of_not_isIdentContinue (h : isIdentContinue c = false) : isIdentStart c = false := by
  rw [Bool.eq_false_iff] at h ⊢
  exact fun hstart => h (isIdentContinue_of_isIdentStart hstart)

theorem ne_slash_of_isIdentContinue (h : isIdentContinue c = true) : c ≠ '/' := by
  rintro rfl
  rw [not_isIdentContinue_of_ascii (by decide) (by decide)] at h
  cases h

end ClassCheck.Text
