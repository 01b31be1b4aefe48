import ClassCheck.Grammar.Literal

/-!
# Numbers in decimal

Reading undoes writing. The other way round, a row of digits without zeros in front is the decimal
numeral of its value.
-/

namespace ClassCheck.Literal

/-- A row of digits without the zeros in front. The last digit stays. -/
def dropZeros : List Char → List Char
  | '0' :: c :: cs => dropZeros (c :: cs)
  | cs => cs

variable {cs : List Char}

theorem digitsValue_eq (cs : List Char) : digitsValue cs = Nat.ofDigitChars 10 cs 0 :=
  Nat.ofDigitChars_eq_foldl.symm

theorem toNat_of_isDigit {c : Char} (h : c.isDigit = true) : 48 ≤ c.toNat ∧ c.toNat ≤ 57 := by
  simpa using Char.isDigit_iff_toNat.1 h

theorem digitChar_of_isDigit {c : Char} (h : c.isDigit = true) :
    (c.toNat - '0'.toNat).digitChar = c := by
  obtain ⟨hlo, hhi⟩ := toNat_of_isDigit h
  have hd : c.toNat - '0'.toNat < 10 := by simp; omega
  apply Char.toNat_inj.1
  rw [Nat.toNat_digitChar_of_lt_ten hd]
  simp
  omega

theorem toDigits_of_isDigit {c : Char} (h : c.isDigit = true) :
    Nat.toDigits 10 (c.toNat - '0'.toNat) = [c] := by
  obtain ⟨hlo, hhi⟩ := toNat_of_isDigit h
  rw [Nat.toDigits_of_lt_base (by simp; omega), digitChar_of_isDigit h]

theorem toDigits_ofDigitChars (h : ∀ c ∈ cs, c.isDigit = true) {n : Nat} (hn : 0 < n) :
    Nat.toDigits 10 (Nat.ofDigitChars 10 cs n) = Nat.toDigits 10 n ++ cs := by
  induction cs generalizing n with
  | nil => rw [Nat.ofDigitChars_nil, List.append_nil]
  | cons c cs ih =>
    rw [List.forall_mem_cons] at h
    obtain ⟨hlo, hhi⟩ := toNat_of_isDigit h.1
    rw [Nat.ofDigitChars_cons, ih h.2 (by omega),
      ← Nat.toDigits_append_toDigits (by omega) hn (by simp; omega), toDigits_of_isDigit h.1,
      List.append_assoc, List.singleton_append]

theorem toDigits_digitsValue (hne : cs ≠ []) (h : ∀ c ∈ cs, c.isDigit = true) :
    Nat.toDigits 10 (digitsValue cs) = dropZeros cs := by
  fun_induction dropZeros cs with
  | case1 c cs ih =>
    rw [← ih (by simp) (List.forall_mem_cons.1 h).2]
    rfl
  | case2 cs hzero =>
    cases cs with
    | nil => exact (hne rfl).elim
    | cons c cs =>
      rw [List.forall_mem_cons] at h
      rw [digitsValue_eq, Nat.ofDigitChars_cons, Nat.mul_zero, Nat.zero_add]
      cases cs with
      | nil => rw [Nat.ofDigitChars_nil, toDigits_of_isDigit h.1]
      | cons d cs =>
        -- The first of several digits is not zero, or it would have been dropped.
        have hpos : 0 < c.toNat - '0'.toNat := by
          obtain ⟨hlo, hhi⟩ := toNat_of_isDigit h.1
          have hc : c.toNat ≠ '0'.toNat := fun hc => hzero d cs (by rw [Char.toNat_inj.1 hc])
          simp at hc ⊢
          omega
        rw [toDigits_ofDigitChars h.2 hpos, toDigits_of_isDigit h.1, List.singleton_append]

/-! ## Reading and writing -/

theorem readSigned?_of_digits (hne : cs ≠ []) (h : ∀ c ∈ cs, c.isDigit = true) :
    readSigned? cs = some (digitsValue cs : Int) := by
  unfold readSigned?
  split
  · exact absurd (h '-' List.mem_cons_self) (by decide)
  · exact absurd (h '+' List.mem_cons_self) (by decide)
  · rw [readDigits?, if_pos ⟨hne, List.all_eq_true.2 h⟩]
    rfl

theorem toString_natCast (n : Nat) : toString (n : Int) = String.ofList (Nat.toDigits 10 n) :=
  Nat.toString_eq_ofList_toDigits

theorem read?_toString {v : Int} (hpos : 0 ≤ v) (hv : v ≤ 2147483647) :
    read? (toString v) = some v := by
  obtain ⟨n, rfl⟩ := Int.eq_ofNat_of_zero_le hpos
  have hfits : Fits (n : Int) := ⟨by omega, hv⟩
  have hdigits : ∀ c ∈ Nat.toDigits 10 n, c.isDigit = true := fun c =>
    Nat.isDigit_of_mem_toDigits (by omega) (Nat.le_refl _)
  rw [read?, toString_natCast, String.toList_ofList,
    readSigned?_of_digits Nat.toDigits_ne_nil hdigits, digitsValue_eq,
    Nat.ofDigitChars_ten_toDigits, Option.filter_some, if_pos (decide_eq_true hfits)]

theorem toString_of_read? {lexeme : String} {v : Int} (hne : lexeme.toList ≠ [])
    (h : ∀ c ∈ lexeme.toList, c.isDigit = true) (hv : read? lexeme = some v) :
    toString v = String.ofList (dropZeros lexeme.toList) := by
  rw [read?, readSigned?_of_digits hne h, Option.filter_eq_some_iff] at hv
  rw [← Option.some.inj hv.1, toString_natCast, toDigits_digitsValue hne h]

end ClassCheck.Literal
