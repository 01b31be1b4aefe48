import ClassCheck.Proofs.Text.Positions
import Mathlib.Data.List.DropRight
import Mathlib.Data.List.GetD
import Mathlib.Data.List.TakeWhile

/-!
# Offsets and positions

The table of lines holds 0 and the offset after each line feed, so it is strictly increasing. The lines that begin
at an offset or before it are then the first ones of the table, however they are searched for, and the position of
the offset can be turned back into the offset. This holds inside a character and past the end as well.

The table also cuts the text into its lines, each of them at the borders of characters.
-/

namespace ClassCheck

namespace Source

/-! ## Line feeds -/

/-- The offsets of the line feeds, if the first character is at `offset`. -/
def lineFeedsFrom (offset : Nat) : List Char → List Nat
  | [] => []
  | c :: cs =>
    let after := lineFeedsFrom (offset + c.utf8Size) cs
    if c = '\n' then offset :: after else after

def lineFeeds (source : Source) : List Nat := lineFeedsFrom 0 source.text.toList

theorem mem_lineFeedsFrom_iff {offset feed : Nat} {cs : List Char} :
    feed ∈ lineFeedsFrom offset cs ↔
      ∃ before after, cs = before ++ '\n' :: after ∧ offset + byteSize before = feed := by
  induction cs generalizing offset with
  | nil => simp [lineFeedsFrom]
  | cons c cs ih =>
    have hmem : feed ∈ lineFeedsFrom offset (c :: cs) ↔
        c = '\n' ∧ feed = offset ∨ feed ∈ lineFeedsFrom (offset + c.utf8Size) cs := by
      by_cases hc : c = '\n' <;> simp [lineFeedsFrom, hc]
    rw [hmem, ih]
    constructor
    · rintro (⟨rfl, rfl⟩ | ⟨before, after, rfl, rfl⟩)
      · exact ⟨[], cs, rfl, rfl⟩
      · exact ⟨c :: before, after, rfl, by rw [byteSize_cons, Nat.add_assoc]⟩
    · rintro ⟨before, after, hcs, rfl⟩
      cases before with
      | nil => exact .inl ⟨(List.cons.inj hcs).1, rfl⟩
      | cons d before =>
        obtain ⟨rfl, rfl⟩ := List.cons.inj hcs
        exact .inr ⟨before, after, rfl, by rw [byteSize_cons, Nat.add_assoc]⟩

theorem mem_lineFeeds_iff {source : Source} {feed : Nat} :
    feed ∈ source.lineFeeds ↔
      ∃ before after, source.text.toList = before ++ '\n' :: after ∧ byteSize before = feed := by
  simp only [lineFeeds, mem_lineFeedsFrom_iff, Nat.zero_add]

theorem pairwise_lineFeedsFrom (offset : Nat) (cs : List Char) :
    (lineFeedsFrom offset cs).Pairwise (· < ·) := by
  induction cs generalizing offset with
  | nil => exact List.Pairwise.nil
  | cons c cs ih =>
    rw [lineFeedsFrom]
    split
    · refine List.pairwise_cons.2 ⟨fun feed hfeed => ?_, ih _⟩
      obtain ⟨before, after, -, rfl⟩ := mem_lineFeedsFrom_iff.1 hfeed
      have := c.utf8Size_pos
      omega
    · exact ih _

/-! ## The table of lines -/

theorem startsFrom_splitLines (offset : Nat) (cs : List Char) :
    startsFrom offset (splitLines cs) = offset :: (lineFeedsFrom offset cs).map (· + 1) := by
  fun_induction splitLines cs generalizing offset with
  | case1 => rfl
  | case2 cs ih =>
    have hsize : '\n'.utf8Size = 1 := by decide
    simp [startsFrom, lineFeedsFrom, ih, hsize]
  | case3 c cs hc ih =>
    obtain ⟨line, lines, h⟩ := List.exists_cons_of_ne_nil (splitLines_ne_nil cs)
    have hih := ih (offset + c.utf8Size)
    rw [h, startsFrom] at hih
    rw [h, List.modifyHead_cons, startsFrom, byteSize_cons, lineFeedsFrom, if_neg hc, ← Nat.add_assoc]
    exact congrArg _ (List.cons.inj hih).2

theorem lineStarts_eq (source : Source) : source.lineStarts = 0 :: source.lineFeeds.map (· + 1) :=
  startsFrom_splitLines 0 source.text.toList

theorem pairwise_lineStarts (source : Source) : source.lineStarts.Pairwise (· < ·) := by
  rw [lineStarts_eq, List.pairwise_cons]
  constructor
  · intro start hstart
    obtain ⟨feed, -, rfl⟩ := List.mem_map.1 hstart
    exact feed.succ_pos
  · refine List.pairwise_map.2 ((pairwise_lineFeedsFrom 0 _).imp ?_)
    intro a b hlt
    omega

theorem length_lineStarts (source : Source) :
    source.lineStarts.length = source.text.toList.count '\n' + 1 := by
  rw [lineStarts, length_startsFrom]
  exact length_splitLines _

/-! ## The lines that begin at an offset or before it -/

section Increasing

variable {ns : List Nat} (h : ns.Pairwise (· < ·)) (bound : Nat)

include h

theorem takeWhile_le_eq_filter : ns.takeWhile (· ≤ bound) = ns.filter (· ≤ bound) := by
  induction ns with
  | nil => rfl
  | cons n ns ih =>
    obtain ⟨hlt, hns⟩ := List.pairwise_cons.1 h
    by_cases hn : n ≤ bound
    · rw [List.takeWhile_cons_of_pos (by simpa using hn), List.filter_cons_of_pos (by simpa using hn), ih hns]
    · rw [List.takeWhile_cons_of_neg (by simpa using hn), eq_comm, List.filter_eq_nil_iff]
      intro m hm
      rcases List.mem_cons.1 hm with rfl | hm
      · simpa using hn
      · have := hlt m hm
        simp only [decide_eq_true_eq]
        omega

/-- A search that halves the list finds the same place. -/
theorem le_iff_lt_length_takeWhile {i n : Nat} (hn : ns[i]? = some n) :
    n ≤ bound ↔ i < (ns.takeWhile (· ≤ bound)).length := by
  induction ns generalizing i with
  | nil => simp at hn
  | cons m ns ih =>
    obtain ⟨hlt, hns⟩ := List.pairwise_cons.1 h
    by_cases hm : m ≤ bound
    · rw [List.takeWhile_cons_of_pos (by simpa using hm), List.length_cons]
      cases i with
      | zero =>
        obtain rfl := Option.some.inj hn
        simpa using hm
      | succ i => rw [ih hns hn, Nat.succ_lt_succ_iff]
    · rw [List.takeWhile_cons_of_neg (by simpa using hm), List.length_nil]
      have hle : m ≤ n := by
        rcases List.mem_cons.1 (List.mem_of_getElem? hn) with rfl | hmem
        · exact Nat.le_refl n
        · exact (hlt n hmem).le
      omega

end Increasing

/-- The line feeds before an offset. -/
def feedsBefore (source : Source) (offset : Nat) : List Nat := source.lineFeeds.filter (· < offset)

theorem takeWhile_lineStarts (source : Source) (offset : Nat) :
    source.lineStarts.takeWhile (· ≤ offset) = 0 :: (source.feedsBefore offset).map (· + 1) := by
  rw [takeWhile_le_eq_filter source.pairwise_lineStarts, lineStarts_eq, List.filter_cons_of_pos (by simp),
    List.filter_map]
  rfl

/-- The offset after the last line feed that comes before. -/
def startBefore (source : Source) (offset : Nat) : Nat :=
  ((source.feedsBefore offset).getLast?.map (· + 1)).getD 0

theorem getLast?_takeWhile_lineStarts (source : Source) (offset : Nat) :
    (source.lineStarts.takeWhile (· ≤ offset)).getLast? = some (source.startBefore offset) := by
  rw [takeWhile_lineStarts, List.getLast?_cons, List.getLast?_map]
  rfl

theorem locate_eq (source : Source) (offset : Nat) :
    source.locate offset =
      ⟨(source.feedsBefore offset).length + 1, offset - source.startBefore offset + 1⟩ := by
  rw [locate, List.getLastD_eq_getLast?, getLast?_takeWhile_lineStarts, takeWhile_lineStarts]
  simp

theorem startBefore_le (source : Source) (offset : Nat) : source.startBefore offset ≤ offset := by
  have hmem := List.mem_of_getLast? (source.getLast?_takeWhile_lineStarts offset)
  simpa using List.mem_takeWhile_imp hmem

theorem lineStarts_locate (source : Source) (offset : Nat) :
    source.lineStarts[(source.locate offset).line - 1]? = some (source.startBefore offset) := by
  obtain ⟨rest, hrest⟩ := List.takeWhile_prefix (l := source.lineStarts) (· ≤ offset)
  have hlast := source.getLast?_takeWhile_lineStarts offset
  rw [List.getLast?_eq_getElem?] at hlast
  have hlt := (List.getElem?_eq_some_iff.1 hlast).1
  rw [← List.getElem?_append_left hlt, hrest] at hlast
  exact hlast

/-! ## Positions in order -/

/-- Reading order: on an earlier line, or further left on the same one. -/
def Position.Before (p q : Position) : Prop :=
  p.line < q.line ∨ p.line = q.line ∧ p.column < q.column

instance (p q : Position) : Decidable (p.Before q) := inferInstanceAs (Decidable (_ ∨ _))

theorem locate_before {source : Source} {a b : Nat} (h : a < b) :
    (source.locate a).Before (source.locate b) := by
  have hsub : (source.feedsBefore a).Sublist (source.feedsBefore b) := by
    refine List.monotone_filter_right _ fun feed hfeed => ?_
    simp only [decide_eq_true_eq] at hfeed ⊢
    omega
  rw [locate_eq, locate_eq]
  rcases hsub.length_le.lt_or_eq with hlt | heq
  · exact .inl (Nat.succ_lt_succ hlt)
  · -- No line feed comes between the two, so they are on one line.
    have hfeeds := hsub.eq_of_length heq
    have hstart : source.startBefore a = source.startBefore b := by rw [startBefore, hfeeds, startBefore]
    have := source.startBefore_le a
    refine .inr ⟨congrArg (· + 1) heq, ?_⟩
    show a - source.startBefore a + 1 < b - source.startBefore b + 1
    omega

/-- The offset at a position: where the line begins, and the columns before. -/
def offsetOf (source : Source) (position : Position) : Nat :=
  source.lineStarts.getD (position.line - 1) 0 + (position.column - 1)

theorem offsetOf_locate (source : Source) (offset : Nat) : source.offsetOf (source.locate offset) = offset := by
  have hle := source.startBefore_le offset
  rw [offsetOf, List.getD_eq_getElem?_getD, lineStarts_locate, locate_eq]
  simp only [Option.getD_some]
  omega

theorem feedsBefore_of_le {source : Source} {offset : Nat} (h : byteSize source.text.toList ≤ offset) :
    source.feedsBefore offset = source.lineFeeds := by
  refine List.filter_eq_self.2 fun feed hfeed => ?_
  obtain ⟨before, after, htext, rfl⟩ := mem_lineFeeds_iff.1 hfeed
  have hsize := congrArg byteSize htext
  have := '\n'.utf8Size_pos
  simp only [byteSize_append, byteSize_cons] at hsize
  simp only [decide_eq_true_eq]
  omega

theorem length_lineFeeds (source : Source) : source.lineFeeds.length = source.text.toList.count '\n' := by
  have hlength := source.length_lineStarts
  rw [lineStarts_eq, List.length_cons, List.length_map] at hlength
  omega

/-! ## Cutting the text at the table -/

theorem not_mem_of_mem_splitLines {cs line : List Char} (h : line ∈ splitLines cs) : '\n' ∉ line := by
  fun_induction splitLines cs generalizing line with
  | case1 =>
    obtain rfl := List.mem_singleton.1 h
    exact List.not_mem_nil
  | case2 cs ih =>
    rcases List.mem_cons.1 h with rfl | h
    · exact List.not_mem_nil
    · exact ih h
  | case3 c cs hc ih =>
    obtain ⟨first, lines, hlines⟩ := List.exists_cons_of_ne_nil (splitLines_ne_nil cs)
    rw [hlines] at h ih
    rcases List.mem_cons.1 h with rfl | h
    · have := ih List.mem_cons_self
      simp [Ne.symm hc, this]
    · exact ih (List.mem_cons_of_mem _ h)

/-- Lines with a line feed after each of them. -/
def closed (lines : List (List Char)) : List Char := lines.flatMap (· ++ ['\n'])

theorem byteSize_closed (lines : List (List Char)) : byteSize (closed lines) = sizeOfLines lines := by
  have hsize : '\n'.utf8Size = 1 := by decide
  induction lines with
  | nil => rfl
  | cons line lines ih =>
    simp only [closed, sizeOfLines] at ih
    simp [closed, sizeOfLines, ih, hsize, Nat.add_assoc]

theorem intercalate_append (above : List (List Char)) {below : List (List Char)} (h : below ≠ []) :
    ['\n'].intercalate (above ++ below) = closed above ++ ['\n'].intercalate below := by
  induction above with
  | nil => rfl
  | cons line above ih =>
    rw [List.cons_append, List.intercalate_cons_of_ne_nil (by simp [h]), ih]
    simp [closed]

/-- Where a line begins by the table, and where it stops: at the line feed before the next one, or at the end. -/
def lineBounds? (source : Source) : Nat → Option (Nat × Nat)
  | 0 => none
  | n + 1 =>
    source.lineStarts[n]?.map fun start =>
      (start, (source.lineStarts[n + 1]?.map (· - 1)).getD (byteSize source.text.toList))

theorem lineBounds?_eq_none_iff {source : Source} {line : Nat} :
    source.lineBounds? line = none ↔ line = 0 ∨ source.text.toList.count '\n' + 1 < line := by
  cases line with
  | zero => simp [lineBounds?]
  | succ n =>
    simp only [lineBounds?, Option.map_eq_none_iff, List.getElem?_eq_none_iff, length_lineStarts]
    omega

/-- The table cuts out each line: no bound is inside a character or past the end. -/
theorem slice?_of_lines {source : Source} {above below : List (List Char)} {line : List Char}
    (h : source.lines = above ++ line :: below) :
    ∃ start stop, source.lineBounds? (above.length + 1) = some (start, stop) ∧ start ≤ stop ∧
      (Span.mk start (stop - start)).slice? source.text = some (String.ofList line) := by
  obtain ⟨start, hstart⟩ : ∃ start, byteSize (closed above) = start := ⟨_, rfl⟩
  have hstarts : source.lineStarts =
      startsFrom 0 above ++ start :: startsFrom (start + byteSize line + 1) below := by
    rw [lineStarts, h, startsFrom_append, ← byteSize_closed, hstart, Nat.zero_add, startsFrom]
  have hlength : (startsFrom 0 above).length = above.length := length_startsFrom 0 above
  have htext : source.text.toList = closed above ++ ['\n'].intercalate (line :: below) := by
    rw [← intercalate_append _ (List.cons_ne_nil _ _), ← h]
    exact (intercalate_splitLines _).symm
  obtain ⟨rest, hrest, hstop⟩ : ∃ rest, ['\n'].intercalate (line :: below) = line ++ rest ∧
      (source.lineStarts[above.length + 1]?.map (· - 1)).getD (byteSize source.text.toList) =
        start + byteSize line := by
    cases below with
    | nil =>
      refine ⟨[], by simp, ?_⟩
      rw [List.getElem?_eq_none (by simp [hstarts, hlength, startsFrom]), htext]
      simp [hstart]
    | cons next below =>
      refine ⟨_, (List.intercalate_cons_cons ..).trans (List.append_assoc ..), ?_⟩
      rw [hstarts, List.getElem?_append_right (by omega), hlength]
      simp [startsFrom]
  refine ⟨start, start + byteSize line, ?_, by omega, ?_⟩
  · rw [lineBounds?, hstop, hstarts, List.getElem?_append_right (by omega), hlength]
    simp
  · refine Span.slice?_eq_some_iff.2 ⟨closed above, rest, ?_, hstart, ?_⟩
    · rw [htext, hrest, String.toList_ofList]
    · rw [String.toList_ofList]
      exact (Nat.add_sub_cancel_left ..).symm

/-! ## The text of a line -/

theorem lineText_succ (source : Source) (n : Nat) :
    source.lineText (n + 1) = String.ofList (withoutReturns (source.lines.getD n [])) := rfl

theorem lineText_of_lineBounds?_eq_none {source : Source} {line : Nat} (h : source.lineBounds? line = none) :
    source.lineText line = "" := by
  cases line with
  | zero => rfl
  | succ n =>
    have hpast : source.lines.length ≤ n := by
      simpa [lineBounds?, lineStarts, length_startsFrom] using h
    rw [lineText_succ, List.getD_eq_default _ _ hpast]
    rfl

theorem exists_returns (line : List Char) :
    ∃ returns, line = withoutReturns line ++ List.replicate returns '\r' := by
  refine ⟨(line.rtakeWhile (· == '\r')).length, ?_⟩
  have hreturns : line.rtakeWhile (· == '\r') =
      List.replicate (line.rtakeWhile (· == '\r')).length '\r' :=
    List.eq_replicate_of_mem fun c hc => by simpa using List.mem_rtakeWhile_imp hc
  rw [← hreturns]
  exact List.rdropWhile_append_rtakeWhile.symm

theorem getLast?_withoutReturns (line : List Char) : (withoutReturns line).getLast? ≠ some '\r' := by
  intro h
  rw [withoutReturns, List.getLast?_reverse] at h
  have := List.head?_dropWhile_not (· == '\r') line.reverse
  rw [h] at this
  simp at this

theorem withoutReturns_append {front : List Char} (h : front.getLast? ≠ some '\r') (back : List Char) :
    withoutReturns (front ++ back) = front ++ withoutReturns back := by
  have hfront : front.reverse.dropWhile (· == '\r') = front.reverse := by
    rw [← List.head?_reverse] at h
    cases hreverse : front.reverse with
    | nil => rfl
    | cons c cs =>
      rw [hreverse] at h
      exact List.dropWhile_cons_of_neg (by simpa using h)
  rw [withoutReturns, withoutReturns, List.reverse_append, List.dropWhile_append]
  split
  · next hreturns => rw [List.isEmpty_iff.1 hreturns, hfront, List.reverse_nil, List.reverse_reverse, List.append_nil]
  · rw [List.reverse_append, List.reverse_reverse]

theorem byteSize_withoutReturns_le (line : List Char) : byteSize (withoutReturns line) ≤ byteSize line := by
  obtain ⟨returns, hline⟩ := exists_returns line
  have hsize := congrArg byteSize hline
  rw [byteSize_append] at hsize
  omega

theorem not_mem_lineText (source : Source) (line : Nat) : '\n' ∉ (source.lineText line).toList := by
  cases line with
  | zero => exact List.not_mem_nil
  | succ n =>
    rw [lineText_succ, String.toList_ofList]
    obtain ⟨returns, hreturns⟩ := exists_returns (source.lines.getD n [])
    have hline : '\n' ∉ source.lines.getD n [] := by
      by_cases hn : n < source.lines.length
      · rw [List.getD_eq_getElem _ _ hn]
        exact not_mem_of_mem_splitLines (List.getElem_mem hn)
      · rw [List.getD_eq_default _ _ (Nat.le_of_not_lt hn)]
        exact List.not_mem_nil
    intro hmem
    rw [hreturns] at hline
    exact hline (List.mem_append_left _ hmem)

theorem exists_lines_eq (source : Source) :
    ∃ returns : Nat → Nat, source.lines =
      (List.range source.lines.length).map fun i =>
        (source.lineText (i + 1)).toList ++ List.replicate (returns i) '\r' := by
  choose returns hreturns using exists_returns
  refine ⟨fun i => returns (source.lines.getD i []), List.ext_getElem (by simp) fun i hi _ => ?_⟩
  rw [List.getElem_map, List.getElem_range, lineText_succ, String.toList_ofList, ← hreturns,
    List.getD_eq_getElem _ _ hi]

/-! ## Offsets, positions and lines -/

/-- How an offset and its position belong together. -/
structure Located (source : Source) (offset : Nat) (position : Position) : Prop where
  line_eq : position.line = (source.feedsBefore offset).length + 1
  start_le : source.startBefore offset ≤ offset
  column_eq : position.column = offset - source.startBefore offset + 1
  /-- The look-up stays in the table. -/
  start_eq : source.lineStarts[position.line - 1]? = some (source.startBefore offset)
  /-- Every search for the last line that begins in time ends at this one. -/
  search_eq : ∀ i start, source.lineStarts[i]? = some start → (start ≤ offset ↔ i < position.line)
  /-- Between two characters, the text before the offset gives the position. -/
  border_eq : ∀ before rest, source.text.toList = before ++ rest → byteSize before = offset →
    position = positionAfter before
  offset_eq : source.offsetOf position = offset
  past_end : byteSize source.text.toList ≤ offset → position.line = source.text.toList.count '\n' + 1

theorem located_locate (source : Source) (offset : Nat) : source.Located offset (source.locate offset) where
  line_eq := by rw [locate_eq]
  start_le := source.startBefore_le offset
  column_eq := by rw [locate_eq]
  start_eq := source.lineStarts_locate offset
  search_eq _ _ h := le_iff_lt_length_takeWhile source.pairwise_lineStarts offset h
  border_eq := by
    rintro before rest htext rfl
    exact (locate_append htext).1
  offset_eq := source.offsetOf_locate offset
  past_end h := by rw [locate_eq, feedsBefore_of_le h, length_lineFeeds]

/-- How the text that is shown of a line is cut from the source. -/
structure Shown (source : Source) (line : Nat) (shown : String) : Prop where
  not_mem : '\n' ∉ shown.toList
  last_ne : shown.toList.getLast? ≠ some '\r'
  absent : line = 0 ∨ source.text.toList.count '\n' + 1 < line → shown = ""
  /-- The bounds that the table gives mark a part of the text. -/
  cut : 0 < line → line ≤ source.text.toList.count '\n' + 1 →
    ∃ start stop part, source.lineBounds? line = some (start, stop) ∧ start ≤ stop ∧
      (Span.mk start (stop - start)).slice? source.text = some part ∧
      shown = String.ofList (withoutReturns part.toList)

theorem shown_lineText (source : Source) (line : Nat) : source.Shown line (source.lineText line) where
  not_mem := source.not_mem_lineText line
  last_ne := by
    cases line with
    | zero => simp [lineText]
    | succ n =>
      rw [lineText_succ, String.toList_ofList]
      exact getLast?_withoutReturns _
  absent h := lineText_of_lineBounds?_eq_none (lineBounds?_eq_none_iff.2 h)
  cut hpos hle := by
    obtain ⟨n, rfl⟩ := Nat.exists_eq_add_one.2 hpos
    have hn : n < source.lines.length := by
      rw [← length_startsFrom 0 source.lines]
      exact Nat.lt_of_lt_of_eq hle source.length_lineStarts.symm
    have hlines : source.lines = source.lines.take n ++ source.lines[n] :: source.lines.drop (n + 1) := by
      rw [← List.drop_eq_getElem_cons hn, List.take_append_drop]
    obtain ⟨start, stop, hbounds, horder, hslice⟩ := slice?_of_lines hlines
    rw [List.length_take_of_le hn.le] at hbounds
    refine ⟨start, stop, _, hbounds, horder, hslice, ?_⟩
    rw [lineText_succ, List.getD_eq_getElem _ _ hn, String.toList_ofList]

/-- Offsets and positions are inverse, and follow each other. The lines of the table make up the text. Offsets,
lines and columns are natural numbers without a bound. -/
theorem located_and_shown (source : Source) :
    source.lineStarts = 0 :: source.lineFeeds.map (· + 1) ∧
    (∀ offset, source.Located offset (source.locate offset)) ∧
    (∀ a b, a < b → (source.locate a).Before (source.locate b)) ∧
    (∀ line, source.Shown line (source.lineText line)) ∧
    ∃ returns : Nat → Nat, source.text.toList =
      ['\n'].intercalate ((List.range (source.text.toList.count '\n' + 1)).map fun i =>
        (source.lineText (i + 1)).toList ++ List.replicate (returns i) '\r') := by
  refine ⟨source.lineStarts_eq, source.located_locate, fun _ _ => locate_before, source.shown_lineText, ?_⟩
  obtain ⟨returns, hlines⟩ := source.exists_lines_eq
  refine ⟨returns, ?_⟩
  rw [← length_splitLines, ← Source.lines, ← hlines]
  exact (intercalate_splitLines _).symm

end Source

end ClassCheck
