import ClassCheck.Proofs.Text.Lines
import ClassCheck.Proofs.Text.Slice

/-!
# What a position says

A source is cut in two at some byte. The position of the byte counts the line feeds before it, and the bytes
since the last one. The line that is shown runs from that line feed to the next one.
-/

namespace ClassCheck

namespace Source

/-- The characters after the last line feed. -/
def lastLine (cs : List Char) : List Char := (cs.reverse.takeWhile (· != '\n')).reverse

/-- The characters before the first line feed. -/
def firstLine (cs : List Char) : List Char := cs.takeWhile (· != '\n')

def withoutReturns (line : List Char) : List Char := (line.reverse.dropWhile (· == '\r')).reverse

/-! ## Cutting at line feeds -/

theorem takeWhile_line {here : List Char} (h : '\n' ∉ here) (rest : List Char) :
    (here ++ rest).takeWhile (· != '\n') = here ++ rest.takeWhile (· != '\n') := by
  apply List.takeWhile_append_of_pos
  intro c hc
  rw [bne_iff_ne]
  rintro rfl
  exact h hc

theorem lastLine_eq_self {here : List Char} (h : '\n' ∉ here) : lastLine here = here := by
  have hline := takeWhile_line (mt List.mem_reverse.1 h) []
  rw [List.append_nil, List.takeWhile_nil, List.append_nil] at hline
  rw [lastLine, hline, List.reverse_reverse]

theorem lastLine_append {here : List Char} (h : '\n' ∉ here) (above : List Char) :
    lastLine (above ++ '\n' :: here) = here := by
  have hline := takeWhile_line (mt List.mem_reverse.1 h) ('\n' :: above.reverse)
  have hreverse : (above ++ '\n' :: here).reverse = here.reverse ++ '\n' :: above.reverse := by simp
  rw [lastLine, hreverse, hline]
  simp

theorem one_line_or (cs : List Char) :
    '\n' ∉ cs ∨ ∃ above here, cs = above ++ '\n' :: here ∧ '\n' ∉ here := by
  by_cases h : '\n' ∈ cs
  · obtain ⟨here, above, hcut, hhere⟩ := List.eq_append_cons_of_mem (List.mem_reverse.2 h)
    refine .inr ⟨above.reverse, here.reverse, ?_, by simpa using hhere⟩
    rw [← List.reverse_reverse cs, hcut]
    simp
  · exact .inl h

theorem exists_splitLines_eq (cs : List Char) : ∃ below, splitLines cs = firstLine cs :: below := by
  fun_induction splitLines cs with
  | case1 => exact ⟨[], rfl⟩
  | case2 cs ih => exact ⟨splitLines cs, rfl⟩
  | case3 c cs hc ih =>
    obtain ⟨below, h⟩ := ih
    have hfirst : firstLine (c :: cs) = c :: firstLine cs := List.takeWhile_cons_of_pos (by simpa using hc)
    exact ⟨below, by rw [h, List.modifyHead_cons, hfirst]⟩

/-! ## Positions -/

/-- The position of the byte that comes after these characters. -/
def positionAfter (before : List Char) : Position :=
  ⟨before.count '\n' + 1, byteSize (lastLine before) + 1⟩

/-- The line in which `before` ends and `rest` begins. -/
def lineAround (before rest : List Char) : String :=
  String.ofList (withoutReturns (lastLine before ++ firstLine rest))

variable {source : Source} {here rest : List Char}

theorem locate_first_line (hline : '\n' ∉ here) (h : source.text.toList = here ++ rest) :
    source.locate (byteSize here) = ⟨1, byteSize here + 1⟩ := by
  obtain ⟨below, hsplit⟩ := exists_splitLines_eq source.text.toList
  have hfirst : firstLine source.text.toList = here ++ firstLine rest := by
    rw [h]
    exact takeWhile_line hline rest
  have hbefore : source.lineStarts.takeWhile (· ≤ byteSize here) = [0] := by
    rw [lineStarts, lines, hsplit, startsFrom, List.takeWhile_cons_of_pos (by simp), hfirst]
    cases below with
    | nil => rfl
    | cons line below =>
      rw [startsFrom, List.takeWhile_cons_of_neg]
      simp only [byteSize_append, decide_eq_true_eq]
      omega
  rw [locate, hbefore]
  simp

theorem lineText_first_line (hline : '\n' ∉ here) (h : source.text.toList = here ++ rest) :
    source.lineText 1 = String.ofList (withoutReturns (here ++ firstLine rest)) := by
  obtain ⟨below, hsplit⟩ := exists_splitLines_eq source.text.toList
  rw [lineText, lines, hsplit, h, firstLine, takeWhile_line hline]
  rfl

theorem locate_append {before rest : List Char} (h : source.text.toList = before ++ rest) :
    source.locate (byteSize before) = positionAfter before ∧
      source.lineText (positionAfter before).line = lineAround before rest := by
  rcases one_line_or before with hline | ⟨above, here, rfl, hline⟩
  · have hcount : before.count '\n' = 0 := List.count_eq_zero.2 hline
    simp only [positionAfter, lineAround, hcount, lastLine_eq_self hline]
    exact ⟨locate_first_line hline h, lineText_first_line hline h⟩
  · -- The lines above move the last one down and change nothing else.
    obtain ⟨last, hlast⟩ : ∃ last : String, last.toList = here ++ rest :=
      ⟨String.ofList (here ++ rest), String.toList_ofList⟩
    have hsource : source = onNextLine source.file (String.ofList above) last := by
      cases source
      simp only [onNextLine, mk.injEq, true_and]
      apply String.toList_inj.1
      rw [h]
      simp [hlast]
    have hcount : (above ++ '\n' :: here).count '\n' = above.count '\n' + 1 := by
      simp [List.count_eq_zero.2 hline]
    have hsize : byteSize (above ++ '\n' :: here) = byteSize here + (byteSize above + 1) := by
      have : '\n'.utf8Size = 1 := by decide
      simp only [byteSize_append, byteSize_cons]
      omega
    have hlocate := locate_onNextLine_right source.file (String.ofList above) last (byteSize here)
    have htext := lineText_onNextLine_right source.file (String.ofList above) last Nat.one_pos
    rw [← hsource, String.toList_ofList, Nat.add_comm 1] at htext
    rw [← hsource, String.toList_ofList, locate_first_line hline hlast] at hlocate
    simp only [positionAfter, lineAround, hcount, lastLine_append hline, hsize, hlocate, htext]
    exact ⟨by simp [Nat.add_comm], lineText_first_line hline hlast⟩

end Source

end ClassCheck
