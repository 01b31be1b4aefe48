import ClassCheck.Diagnostic.Basic

/-!
# Two texts with a line feed between them

The lines of the whole are the lines of the first text and then those of the second. So a byte of the first
text keeps its position, and a byte of the second only moves down by the number of lines before it.
-/

namespace ClassCheck

namespace Source

/-! ## Lines -/

theorem splitLines_append (xs ys : List Char) :
    splitLines (xs ++ '\n' :: ys) = splitLines xs ++ splitLines ys := by
  fun_induction splitLines xs with
  | case1 => rfl
  | case2 cs ih => simp only [List.cons_append, splitLines, ih]
  | case3 c cs hc ih =>
    obtain ⟨line, lines, h⟩ := List.exists_cons_of_ne_nil (splitLines_ne_nil cs)
    rw [List.cons_append, splitLines.eq_3 _ _ hc, ih, h]
    rfl

theorem length_splitLines (cs : List Char) : (splitLines cs).length = cs.count '\n' + 1 := by
  fun_induction splitLines cs with
  | case1 => rfl
  | case2 cs ih => simp [ih]
  | case3 c cs hc ih => simpa [List.count_cons_of_ne hc] using ih

/-- The bytes of lines, each with the line feed after it. -/
def sizeOfLines (lines : List (List Char)) : Nat :=
  lines.foldr (fun line size => byteSize line + 1 + size) 0

theorem sizeOfLines_splitLines (cs : List Char) : sizeOfLines (splitLines cs) = byteSize cs + 1 := by
  fun_induction splitLines cs with
  | case1 => rfl
  | case2 cs ih =>
    have : '\n'.utf8Size = 1 := by decide
    simp only [sizeOfLines, List.foldr_cons, byteSize_nil, byteSize_cons] at ih ⊢
    omega
  | case3 c cs hc ih =>
    obtain ⟨line, lines, h⟩ := List.exists_cons_of_ne_nil (splitLines_ne_nil cs)
    simp only [h, List.modifyHead_cons, sizeOfLines, List.foldr_cons, byteSize_cons] at ih ⊢
    omega

/-! ## Where lines begin -/

theorem startsFrom_append (offset : Nat) (ls ms : List (List Char)) :
    startsFrom offset (ls ++ ms) = startsFrom offset ls ++ startsFrom (offset + sizeOfLines ls) ms := by
  induction ls generalizing offset with
  | nil => rfl
  | cons l ls ih =>
    simp only [List.cons_append, startsFrom, sizeOfLines, List.foldr_cons, ih, List.cons.injEq, true_and]
    congr 2
    omega

theorem startsFrom_add (offset distance : Nat) (ls : List (List Char)) :
    startsFrom (offset + distance) ls = (startsFrom offset ls).map (· + distance) := by
  induction ls generalizing offset with
  | nil => rfl
  | cons l ls ih =>
    simp only [startsFrom, List.map_cons, ← ih, List.cons.injEq, true_and]
    congr 1
    omega

theorem length_startsFrom (offset : Nat) (ls : List (List Char)) :
    (startsFrom offset ls).length = ls.length := by
  induction ls generalizing offset with
  | nil => rfl
  | cons l ls ih => simp [startsFrom, ih]

theorem lt_of_mem_startsFrom {offset start : Nat} {ls : List (List Char)}
    (h : start ∈ startsFrom offset ls) : start < offset + sizeOfLines ls := by
  induction ls generalizing offset with
  | nil => simp [startsFrom] at h
  | cons l ls ih =>
    simp only [startsFrom, List.mem_cons, sizeOfLines, List.foldr_cons] at h ih ⊢
    rcases h with rfl | h
    · omega
    · have := ih h
      omega

theorem exists_lineStarts_eq (source : Source) : ∃ starts, source.lineStarts = 0 :: starts := by
  obtain ⟨line, lines, h⟩ := List.exists_cons_of_ne_nil (splitLines_ne_nil source.text.toList)
  exact ⟨_, by rw [lineStarts, Source.lines, h, startsFrom]⟩

theorem exists_lines_before (source : Source) (offset : Nat) :
    ∃ starts, source.lineStarts.takeWhile (· ≤ offset) = 0 :: starts := by
  obtain ⟨starts, h⟩ := source.exists_lineStarts_eq
  exact ⟨starts.takeWhile (· ≤ offset), by rw [h, List.takeWhile_cons_of_pos (by simp)]⟩

theorem locate_line_bounds (source : Source) (offset : Nat) :
    0 < (source.locate offset).line ∧ (source.locate offset).line ≤ source.lines.length := by
  constructor
  · obtain ⟨starts, h⟩ := source.exists_lines_before offset
    simp [locate, h]
  · rw [← length_startsFrom 0 source.lines]
    exact (List.takeWhile_prefix _).length_le

/-! ## Positions in the whole -/

variable (file : String) (first second : String)

/-- The second text on the lines after the first. -/
def onNextLine : Source := ⟨file, first ++ "\n" ++ second⟩

theorem lines_onNextLine :
    (onNextLine file first second).lines = lines ⟨file, first⟩ ++ lines ⟨file, second⟩ := by
  simp only [lines, onNextLine, String.toList_append, List.append_assoc]
  exact splitLines_append _ _

theorem lineStarts_onNextLine :
    (onNextLine file first second).lineStarts =
      lineStarts ⟨file, first⟩ ++
        (lineStarts ⟨file, second⟩).map (· + (byteSize first.toList + 1)) := by
  have hsize : sizeOfLines (lines ⟨file, first⟩) = byteSize first.toList + 1 :=
    sizeOfLines_splitLines first.toList
  rw [lineStarts, lines_onNextLine, startsFrom_append, hsize, startsFrom_add]
  rfl

theorem locate_onNextLine_left {offset : Nat} (h : offset ≤ byteSize first.toList) :
    (onNextLine file first second).locate offset = locate ⟨file, first⟩ offset := by
  obtain ⟨starts, hstarts⟩ := exists_lineStarts_eq ⟨file, second⟩
  have hbefore : (onNextLine file first second).lineStarts.takeWhile (· ≤ offset) =
      (lineStarts ⟨file, first⟩).takeWhile (· ≤ offset) := by
    rw [lineStarts_onNextLine, hstarts, List.takeWhile_append]
    split
    · next hall =>
      rw [(List.takeWhile_prefix _).eq_of_length hall, List.map_cons, List.takeWhile_cons_of_neg,
        List.append_nil]
      simp only [Nat.zero_add, decide_eq_true_eq]
      omega
    · rfl
  rw [locate, hbefore]
  rfl

theorem locate_onNextLine_right (offset : Nat) :
    (onNextLine file first second).locate (offset + (byteSize first.toList + 1)) =
      { locate ⟨file, second⟩ offset with
        line := (locate ⟨file, second⟩ offset).line + (first.toList.count '\n' + 1) } := by
  have hfirst : ∀ start ∈ lineStarts ⟨file, first⟩, start ≤ byteSize first.toList := by
    intro start hstart
    have hlt := lt_of_mem_startsFrom hstart
    have hsize : sizeOfLines (lines ⟨file, first⟩) = byteSize first.toList + 1 :=
      sizeOfLines_splitLines first.toList
    omega
  have hbefore : (onNextLine file first second).lineStarts.takeWhile
      (· ≤ offset + (byteSize first.toList + 1)) =
      lineStarts ⟨file, first⟩ ++
        ((lineStarts ⟨file, second⟩).takeWhile (· ≤ offset)).map (· + (byteSize first.toList + 1)) := by
    rw [lineStarts_onNextLine, List.takeWhile_append_of_pos, List.takeWhile_map]
    · congr 3
      funext start
      simp
    · intro start hstart
      have := hfirst start hstart
      simp only [decide_eq_true_eq]
      omega
  have hlength : (lineStarts ⟨file, first⟩).length = first.toList.count '\n' + 1 := by
    rw [lineStarts, length_startsFrom]
    exact length_splitLines _
  obtain ⟨starts, hstarts⟩ := exists_lines_before ⟨file, second⟩ offset
  rw [locate, hbefore, locate, hstarts]
  simp only [List.length_append, List.length_map, hlength, Position.mk.injEq]
  refine ⟨by omega, ?_⟩
  rw [List.getLastD_eq_getLast?, List.getLastD_eq_getLast?, List.getLast?_append, List.getLast?_map,
    List.getLast?_eq_some_getLast (List.cons_ne_nil 0 starts)]
  simp only [Option.map_some, Option.some_or, Option.getD_some]
  omega

theorem lineText_onNextLine_left {line : Nat} (h : line ≤ (lines ⟨file, first⟩).length) :
    (onNextLine file first second).lineText line = lineText ⟨file, first⟩ line := by
  cases line with
  | zero => rfl
  | succ n =>
    unfold lineText
    simp only [lines_onNextLine, List.getD_eq_getElem?_getD, List.getElem?_append_left h]

theorem lineText_onNextLine_right {line : Nat} (h : 0 < line) :
    (onNextLine file first second).lineText (line + (first.toList.count '\n' + 1)) =
      lineText ⟨file, second⟩ line := by
  cases line with
  | zero => omega
  | succ n =>
    have hlength : (lines ⟨file, first⟩).length = first.toList.count '\n' + 1 := length_splitLines _
    rw [Nat.add_right_comm]
    unfold lineText
    simp only [lines_onNextLine, ← hlength, List.getD_eq_getElem?_getD,
      List.getElem?_append_right (Nat.le_add_left _ _), Nat.add_sub_cancel]

end Source

end ClassCheck
