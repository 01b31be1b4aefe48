import ClassCheck.Span

/-!
# The text at a span

Spans count bytes. A span that begins or ends inside a character, or past the end, marks no text.
-/

namespace ClassCheck

theorem byteSize_pos {cs : List Char} (h : cs ≠ []) : 0 < byteSize cs := by
  cases cs with
  | nil => exact absurd rfl h
  | cons c cs =>
    have := c.utf8Size_pos
    simp only [byteSize_cons]
    omega

/-- The characters in the first bytes, as many as asked for, and the characters after them. -/
def splitBytes : Nat → List Char → Option (List Char × List Char)
  | 0, cs => some ([], cs)
  | _ + 1, [] => none
  | n + 1, c :: cs =>
    if c.utf8Size ≤ n + 1 then
      (splitBytes (n + 1 - c.utf8Size) cs).map fun (before, after) => (c :: before, after)
    else none

theorem splitBytes_append (before after : List Char) :
    splitBytes (byteSize before) (before ++ after) = some (before, after) := by
  induction before with
  | nil => simp [splitBytes]
  | cons c before ih =>
    have hpos := c.utf8Size_pos
    obtain ⟨n, hn⟩ : ∃ n, byteSize (c :: before) = n + 1 :=
      Nat.exists_eq_add_one.2 (by rw [byteSize_cons]; omega)
    have hle : c.utf8Size ≤ n + 1 := by rw [← hn, byteSize_cons]; omega
    have hrest : n + 1 - c.utf8Size = byteSize before := by rw [← hn, byteSize_cons]; omega
    rw [hn, List.cons_append, splitBytes, if_pos hle, hrest, ih, Option.map_some]

theorem splitBytes_eq_some_iff {size : Nat} {cs before after : List Char} :
    splitBytes size cs = some (before, after) ↔ cs = before ++ after ∧ byteSize before = size := by
  constructor
  · intro h
    fun_induction splitBytes size cs generalizing before after with
    | case1 cs =>
      obtain ⟨rfl, rfl⟩ := Prod.mk.inj (Option.some.inj h)
      exact ⟨rfl, rfl⟩
    | case2 => cases h
    | case3 n c cs hle ih =>
      obtain ⟨⟨before', after'⟩, hsplit, heq⟩ := Option.map_eq_some_iff.1 h
      obtain ⟨rfl, rfl⟩ := Prod.mk.inj heq
      obtain ⟨rfl, hsize⟩ := ih hsplit
      refine ⟨rfl, ?_⟩
      rw [byteSize_cons, hsize]
      omega
    | case4 => cases h
  · rintro ⟨rfl, rfl⟩
    exact splitBytes_append before after

theorem append_inj_of_byteSize {before before' rest rest' : List Char} (h : before ++ rest = before' ++ rest')
    (hsize : byteSize before = byteSize before') : before = before' ∧ rest = rest' := by
  have hcut := splitBytes_append before rest
  rw [h, hsize, splitBytes_append] at hcut
  exact Prod.mk.inj (Option.some.inj hcut.symm)

namespace Span

/-- The part of a text that a span marks. -/
def slice? (span : Span) (text : String) : Option String := do
  let (_, rest) ← splitBytes span.offset text.toList
  let (part, _) ← splitBytes span.length rest
  return String.ofList part

theorem slice?_eq_some_iff {span : Span} {text part : String} :
    span.slice? text = some part ↔
      ∃ before after, text.toList = before ++ (part.toList ++ after) ∧
        byteSize before = span.offset ∧ byteSize part.toList = span.length := by
  constructor
  · intro h
    obtain ⟨⟨before, rest⟩, hbefore, h⟩ := Option.bind_eq_some_iff.1 h
    obtain ⟨⟨cs, after⟩, hpart, h⟩ := Option.bind_eq_some_iff.1 h
    obtain rfl := Option.some.inj h
    obtain ⟨htext, hoffset⟩ := splitBytes_eq_some_iff.1 hbefore
    obtain ⟨rfl, hlength⟩ := splitBytes_eq_some_iff.1 hpart
    rw [String.toList_ofList]
    exact ⟨before, after, htext, hoffset, hlength⟩
  · rintro ⟨before, after, htext, hoffset, hlength⟩
    refine Option.bind_eq_some_iff.2 ⟨(before, part.toList ++ after), ?_, ?_⟩
    · rw [htext, ← hoffset, splitBytes_append]
    · refine Option.bind_eq_some_iff.2 ⟨(part.toList, after), ?_, ?_⟩
      · rw [← hlength, splitBytes_append]
      · exact congrArg some String.ofList_toList

section

variable {a b : Span} {text x y : String}

theorem head?_slice? (ha : a.slice? text = some x) (hb : b.slice? text = some y) (h : a.offset = b.offset)
    (hx : x.toList ≠ []) (hy : y.toList ≠ []) : x.toList.head? = y.toList.head? := by
  obtain ⟨before, after, htext, hoffset, -⟩ := slice?_eq_some_iff.1 ha
  obtain ⟨before', after', htext', hoffset', -⟩ := slice?_eq_some_iff.1 hb
  obtain ⟨-, hrest⟩ := append_inj_of_byteSize (htext.symm.trans htext') (by rw [hoffset, h, hoffset'])
  have hheads := congrArg List.head? hrest
  rwa [List.head?_append, List.head?_append, Option.or_of_isSome (List.isSome_head?.2 hx),
    Option.or_of_isSome (List.isSome_head?.2 hy)] at hheads

theorem getLast?_slice? (ha : a.slice? text = some x) (hb : b.slice? text = some y) (h : a.stop = b.stop)
    (hx : x.toList ≠ []) (hy : y.toList ≠ []) : x.toList.getLast? = y.toList.getLast? := by
  obtain ⟨before, after, htext, hoffset, hlength⟩ := slice?_eq_some_iff.1 ha
  obtain ⟨before', after', htext', hoffset', hlength'⟩ := slice?_eq_some_iff.1 hb
  rw [← List.append_assoc] at htext htext'
  have hsize : byteSize (before ++ x.toList) = byteSize (before' ++ y.toList) := by
    rw [byteSize_append, byteSize_append, hoffset, hlength, hoffset', hlength']
    exact h
  obtain ⟨hfront, -⟩ := append_inj_of_byteSize (htext.symm.trans htext') hsize
  have hlasts := congrArg List.getLast? hfront
  rwa [List.getLast?_append, List.getLast?_append, Option.or_of_isSome (List.getLast?_isSome.2 hx),
    Option.or_of_isSome (List.getLast?_isSome.2 hy)] at hlasts

end

end Span

end ClassCheck
