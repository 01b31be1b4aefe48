import ClassCheck.Report

/-!
# Reading the lines of a report

The report is printed as lines. An empty line ends the block of a class, and titles stand between the sections of a
block. A line on a member begins with the class and the member, and its offset comes last. No line on a member is empty
or looks like a title, and no part of it can be taken for another, whatever the names are.
-/

namespace ClassCheck

/-! ## Reading -/

namespace PrintedReport

/-- The first line of the block of a class. -/
def heading (name : String) : String := "-----------Class " ++ name ++ "-----------"

def fieldsTitle : String := "---Variables---"

def methodsTitle : String := "---Methods---"

/-- The blocks in these lines, each without the empty line that ends it. -/
def blocks : List String → List (List String)
  | [] => []
  | line :: lines => if line = "" then [] :: blocks lines else (blocks lines).modifyHead (line :: ·)

/-- The blocks that are headed by this class. -/
def blocksOf (lines : List String) (name : String) : List (List String) :=
  (blocks lines).filter (·.head? == some (heading name))

/-- The lines of a block below the first of these two titles, up to the second one. -/
def between (title next : String) (block : List String) : List String :=
  ((block.dropWhile (· != title)).drop 1).takeWhile (· != next)

def fieldLines (block : List String) : List String := between fieldsTitle methodsTitle block

/-- Nothing comes after the methods. -/
def methodLines (block : List String) : List String := between methodsTitle "" block

/-- Whether the line shows an offset for this member of the class. -/
def isLineOn (owner member line : String) : Bool :=
  let start := (owner ++ "." ++ member ++ " : ").toList
  start.isPrefixOf line.toList && (line.toList.drop start.length).all Char.isDigit

/-- The lines on a method in the methods sections of these classes, each with the class whose block it stands in. -/
def linesOn (lines classes : List String) (method : String) : List (String × String) :=
  classes.flatMap fun name => (blocksOf lines name).flatMap fun block =>
    ((methodLines block).filter (isLineOn name method)).map fun line => (name, line)

end PrintedReport

open PrintedReport

/-! ## Lines -/

theorem toList_toString_isDigit (n : Nat) : ∀ c ∈ (toString n).toList, c.isDigit = true := by
  intro c hc
  have hrepr : (toString n).toList = Nat.toDigits 10 n := by
    rw [show toString n = n.repr from rfl, Nat.repr, String.toList_ofList]
  rw [hrepr] at hc
  exact Nat.isDigit_of_mem_toDigits (by decide) (by decide) hc

namespace OffsetLine

variable (line : OffsetLine)

theorem toList_text : line.text.toList =
    (line.owner ++ "." ++ line.name ++ " : ").toList ++ (toString line.offset).toList := by
  rw [text, String.toList_append]

theorem dot_mem_text : '.' ∈ line.text.toList := by
  simp [text]

theorem text_ne {s : String} (h : '.' ∉ s.toList) : line.text ≠ s := by
  rintro rfl
  exact h line.dot_mem_text

end OffsetLine

/-- Digits after a space are all the digits at the end. -/
theorem append_digits_inj {xs ys ds es : List Char} (hds : ∀ c ∈ ds, c.isDigit = true)
    (hes : ∀ c ∈ es, c.isDigit = true) (h : xs ++ ' ' :: ds = ys ++ ' ' :: es) : xs = ys ∧ ds = es := by
  have hend : ∀ zs fs : List Char, (∀ c ∈ fs, c.isDigit = true) →
      (zs ++ ' ' :: fs).reverse.takeWhile Char.isDigit = fs.reverse := by
    intro zs fs hfs
    rw [List.reverse_append, List.reverse_cons, List.append_assoc,
      List.takeWhile_append_of_pos fun c hc => hfs c (List.mem_reverse.1 hc), List.singleton_append,
      List.takeWhile_cons_of_neg (by decide), List.append_nil]
  have hdigits : ds = es := by
    rw [← List.reverse_inj, ← hend xs ds hds, h, hend ys es hes]
  subst hdigits
  exact ⟨List.append_cancel_right h, rfl⟩

/-- The class at the start and the digits at the end leave one way to read the name between them. -/
theorem OffsetLine.isLineOn_text (line : OffsetLine) (member : String) :
    isLineOn line.owner member line.text = (line.name == member) := by
  have hdigits := toList_toString_isDigit line.offset
  rw [Bool.eq_iff_iff, isLineOn, Bool.and_eq_true, List.isPrefixOf_iff_prefix, List.all_eq_true, beq_iff_eq]
  constructor
  · rintro ⟨⟨rest, hrest⟩, htail⟩
    rw [← hrest, List.drop_left] at htail
    rw [line.toList_text] at hrest
    simp only [String.toList_append, List.append_assoc] at hrest
    have hname := List.append_cancel_left (List.append_cancel_left hrest)
    have hread : (member.toList ++ [' ', ':']) ++ ' ' :: rest =
        (line.name.toList ++ [' ', ':']) ++ ' ' :: (toString line.offset).toList := by
      simpa using hname
    have hsame := (append_digits_inj htail hdigits hread).1
    exact String.toList_inj.1 (List.append_cancel_right hsame).symm
  · rintro rfl
    rw [line.toList_text, List.drop_left]
    exact ⟨List.prefix_append _ _, hdigits⟩

/-! ## Blocks -/

theorem append_between_inj {front back a b : String} : front ++ a ++ back = front ++ b ++ back ↔ a = b := by
  simp only [← String.toList_inj, String.toList_append, List.append_cancel_right_eq, List.append_cancel_left_eq]

theorem heading_inj {a b : String} : heading a = heading b ↔ a = b := append_between_inj

theorem getElem?_toList_append {front : String} {i : Nat} {c : Char} (h : front.toList[i]? = some c)
    (back : String) : (front ++ back).toList[i]? = some c := by
  obtain ⟨hi, -⟩ := List.getElem?_eq_some_iff.1 h
  rw [String.toList_append, List.getElem?_append_left hi, h]

/-- A heading has a dash where a title has a letter. -/
theorem heading_ne {s : String} (name : String) (h : s.toList[3]? ≠ some '-') : heading name ≠ s := by
  rintro rfl
  have hfront : "-----------Class ".toList[3]? = some '-' := by decide
  exact h (getElem?_toList_append (getElem?_toList_append hfront name) _)

theorem blocks_append {front : List String} (h : "" ∉ front) (lines : List String) :
    blocks (front ++ "" :: lines) = front :: blocks lines := by
  induction front with
  | nil => rfl
  | cons line front ih =>
    rw [List.mem_cons, not_or] at h
    rw [List.cons_append, blocks, if_neg (Ne.symm h.1), ih h.2, List.modifyHead_cons]

theorem bne_of_not_mem {title : String} {lines : List String} (h : title ∉ lines) :
    ∀ line ∈ lines, (line != title) = true := by
  intro line hline
  rw [bne_iff_ne]
  rintro rfl
  exact h hline

theorem between_append {title next : String} {front : List String} (h : title ∉ front) (back : List String) :
    between title next (front ++ title :: back) = back.takeWhile (· != next) := by
  rw [between, List.dropWhile_append_of_pos (bne_of_not_mem h), List.dropWhile_cons_of_neg (by simp)]
  rfl

theorem title_not_mem {title : String} (h : '.' ∉ title.toList) (lines : List OffsetLine) :
    title ∉ lines.map OffsetLine.text := by
  intro hmem
  obtain ⟨line, -, htext⟩ := List.mem_map.1 hmem
  exact line.text_ne h htext

namespace ClassReport

variable (r : ClassReport)

/-- The lines of a block without the empty line at its end. -/
def body : List String :=
  [heading r.name, fieldsTitle] ++ r.fields.map OffsetLine.text ++ [methodsTitle] ++ r.methods.map OffsetLine.text

theorem lines_eq : r.lines = r.body ++ [""] := by
  rfl

theorem empty_not_mem_body : "" ∉ r.body := by
  have hheading : heading r.name ≠ "" := heading_ne _ (by decide)
  have htext : ∀ line : OffsetLine, line.text ≠ "" := fun line => line.text_ne (by decide)
  have htitles : fieldsTitle ≠ "" ∧ methodsTitle ≠ "" := by decide
  simp [body, hheading.symm, htext, htitles.1.symm, htitles.2.symm]

theorem blocks_lines (reports : List ClassReport) : blocks (reports.flatMap lines) = reports.map body := by
  induction reports with
  | nil => rfl
  | cons r reports ih =>
    rw [List.flatMap_cons, lines_eq, List.append_assoc, List.singleton_append,
      blocks_append r.empty_not_mem_body, ih, List.map_cons]

theorem fieldLines_body : fieldLines r.body = r.fields.map OffsetLine.text := by
  have hfields : fieldsTitle ∉ [heading r.name] := by
    simpa using Ne.symm (heading_ne (s := fieldsTitle) r.name (by decide))
  have hmethods : methodsTitle ∉ r.fields.map OffsetLine.text := title_not_mem (by decide) _
  have hbody : r.body = [heading r.name] ++ fieldsTitle ::
      (r.fields.map OffsetLine.text ++ methodsTitle :: r.methods.map OffsetLine.text) := by
    simp [body]
  rw [hbody, fieldLines, between_append hfields, List.takeWhile_append_of_pos (bne_of_not_mem hmethods),
    List.takeWhile_cons_of_neg (by simp), List.append_nil]

theorem methodLines_body : methodLines r.body = r.methods.map OffsetLine.text := by
  have hmethods : methodsTitle ∉ [heading r.name, fieldsTitle] ++ r.fields.map OffsetLine.text := by
    have hheading := Ne.symm (heading_ne (s := methodsTitle) r.name (by decide))
    have htitles : methodsTitle ≠ fieldsTitle := by decide
    have hlines : methodsTitle ∉ r.fields.map OffsetLine.text := title_not_mem (by decide) _
    rw [List.mem_append]
    simp only [List.mem_cons, List.not_mem_nil, or_false, hheading, htitles, hlines, not_false_eq_true]
  have hnone : "" ∉ r.methods.map OffsetLine.text := title_not_mem (by decide) _
  rw [body, List.append_assoc, List.singleton_append, methodLines, between_append hmethods]
  have hall : (r.methods.map OffsetLine.text ++ []).takeWhile (· != "") = r.methods.map OffsetLine.text ++ [] :=
    List.takeWhile_append_of_pos (bne_of_not_mem hnone)
  simpa using hall

theorem blocksOf_lines (reports : List ClassReport) (name : String) :
    blocksOf (reports.flatMap lines) name = (reports.filter (·.name == name)).map body := by
  have hhead : ∀ r : ClassReport, (r.body.head? == some (heading name)) = (r.name == name) := by
    intro r
    rw [Bool.eq_iff_iff, beq_iff_eq, beq_iff_eq, body, List.append_assoc, List.append_assoc, List.cons_append,
      List.head?_cons, Option.some.injEq, heading_inj]
  rw [blocksOf, blocks_lines, List.filter_map]
  simp only [Function.comp_def, hhead]

theorem filter_methodLines_body {r : ClassReport} (h : ∀ line ∈ r.methods, line.owner = r.name) (method : String) :
    (methodLines r.body).filter (isLineOn r.name method) =
      (r.methods.filter (·.name == method)).map OffsetLine.text := by
  rw [methodLines_body, List.filter_map]
  congr 1
  apply List.filter_congr
  intro line hline
  rw [Function.comp_apply, ← h line hline, line.isLineOn_text]

end ClassReport

end ClassCheck
