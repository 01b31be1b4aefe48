import ClassCheck.Proofs.Grammar.Locality
import ClassCheck.Proofs.Grammar.Reading

/-!
# Every class is read on its own

The tokens of a file are cut before every `class`. Whether the class in such a segment can be read, and
whether something is left over behind it, can be found out from the segment alone. A segment with a fault
costs one report, and no report is about tokens further away than the one after the segment.
-/

namespace ClassCheck

open ClassCheck.Parser

/-! ## Cutting before classes -/

/-- A `class`, and tokens that are none. -/
def IsSegment (segment : List Token) : Prop :=
  ∃ t body, segment = t :: body ∧ t.kind = .classWord ∧ ClassFree body

/-- The tokens before the first class, and the others cut before every `class`. -/
def cutAtClasses : List Token → List Token × List (List Token)
  | [] => ([], [])
  | t :: ts =>
    let cut := cutAtClasses ts
    if t.kind = .classWord then ([], (t :: cut.1) :: cut.2) else (t :: cut.1, cut.2)

theorem cutAtClasses_spec (ts : List Token) :
    (cutAtClasses ts).1 ++ (cutAtClasses ts).2.flatten = ts ∧ ClassFree (cutAtClasses ts).1 ∧
      ∀ segment ∈ (cutAtClasses ts).2, IsSegment segment := by
  induction ts with
  | nil => exact ⟨rfl, List.forall_mem_nil _, List.forall_mem_nil _⟩
  | cons t ts ih =>
    obtain ⟨hjoin, hfree, hsegments⟩ := ih
    unfold cutAtClasses
    dsimp only
    split
    · next ht =>
      refine ⟨?_, List.forall_mem_nil _, List.forall_mem_cons.2 ⟨⟨t, _, rfl, ht, hfree⟩, hsegments⟩⟩
      rw [List.nil_append, List.flatten_cons, List.cons_append, hjoin]
    · next ht =>
      refine ⟨?_, List.forall_mem_cons.2 ⟨ht, hfree⟩, hsegments⟩
      rw [List.cons_append, hjoin]

theorem border_flatten {segments : List (List Token)} (h : ∀ segment ∈ segments, IsSegment segment) :
    Border segments.flatten := by
  cases segments with
  | nil => exact nofun
  | cons segment segments =>
    obtain ⟨t, body, rfl, ht, -⟩ := h segment List.mem_cons_self
    intro u hu
    obtain rfl : t = u := by simpa using hu
    exact ht

/-! ## What a segment costs -/

/-- Nothing if there is no fault, and otherwise one report, about a token of the part or about the next
one. -/
def Costs (part : List Token × Bool) (next : Token) (es : List SyntaxError) : Prop :=
  if part.2 then ∃ e, es = [e] ∧ e.found ∈ part.1 ++ [next] else es = []

theorem Costs.mono {xs ys : List Token} {fault : Bool} {next : Token} {es : List SyntaxError}
    (h : Costs (xs, fault) next es) (hsub : xs ⊆ ys) : Costs (ys, fault) next es := by
  cases fault with
  | false => exact h
  | true =>
    obtain ⟨e, rfl, hfound⟩ := h
    refine ⟨e, rfl, ?_⟩
    rcases List.mem_append.1 hfound with hmem | hnext
    · exact List.mem_append_left _ (hsub hmem)
    · exact List.mem_append_right _ hnext

/-- One report for each part of a file that has a fault, in the order of the file. The flags tell which
ones have. -/
inductive Reported (stop : Token) : List (List Token × Bool) → List SyntaxError → Prop
  | nil : Reported stop [] []
  | cons {part : List Token × Bool} {later : List (List Token × Bool)} {es es' : List SyntaxError} :
      Costs part ((later.flatMap (·.1)).headD stop) es → Reported stop later es' →
      Reported stop (part :: later) (es ++ es')

theorem Reported.length_eq {stop : Token} {parts : List (List Token × Bool)} {es : List SyntaxError}
    (h : Reported stop parts es) : es.length = parts.countP (·.2) := by
  induction h with
  | nil => rfl
  | @cons part later es es' hcosts _ ih =>
    rw [List.length_append, List.countP_cons, ih]
    unfold Costs at hcosts
    split at hcosts
    · next hfault =>
      obtain ⟨e, rfl, -⟩ := hcosts
      simp [hfault, Nat.add_comm]
    · next hfault => simp [hfault, hcosts]

namespace Reader

variable {α : Type} {r : Reader} {xs ys rest : List Token} {t : Token} {p : Parser α}

/-! ## Finding the way again -/

theorem recover_note {s : Stop} (hlost : r.lost = false) (hs : s.rest = rest ++ ys)
    (hfree : ClassFree rest) (hy : Border ys) :
    (r.note s).recover = { r with rest := ys, errors := r.errors ++ [⟨s.expected, r.found s⟩] } := by
  have hdrop : s.rest.dropWhile (·.kind != .classWord) = ys := by
    rw [hs, List.dropWhile_append_of_pos fun t ht => by simpa using hfree t ht]
    cases ys with
    | nil => rfl
    | cons t ys => simp [hy t rfl]
  unfold note recover
  split
  · simp [hdrop, hlost]
  · simp [hdrop, hlost]

theorem found_mem {s : Stop} (hs : s.rest = rest ++ ys) (hrest : rest <:+ xs)
    (hliteral : ∀ literal, s.expected = .smallNumber literal → literal ∈ xs) :
    r.found s ∈ xs ++ [ys.headD r.stop] := by
  unfold found
  split
  · next literal hexpected => exact List.mem_append_left _ (hliteral literal hexpected)
  · rw [hs]
    cases rest with
    | nil => exact List.mem_append_right _ (List.mem_singleton_self _)
    | cons t rest => exact List.mem_append_left _ (hrest.mem List.mem_cons_self)

/-! ## Alone and in the file -/

/-- Runs a routine on a segment, with the end of the file right after it. -/
def alone (x : Routine α) (stop : Token) (segment : List Token) : Option α × Reader :=
  x (ofTokens (segment ++ [stop]))

/-- A segment, and whether alone it cannot be read or something is left over. -/
def faultIn (x : Routine α) (stop : Token) (segment : List Token) : List Token × Bool :=
  (segment, !((alone x stop segment).1.isSome && (alone x stop segment).2.rest.isEmpty))

theorem readClassesWithin_leftover {bound : Nat} (hrest : r.rest = xs ++ ys) (hfree : ClassFree xs)
    (hy : Border ys) (hlost : r.lost = false) (hb : r.rest.length ≤ bound) :
    ∃ m es, ys.length ≤ m ∧ Costs (xs, !xs.isEmpty) (ys.headD r.stop) es ∧
      readClassesWithin bound r =
        readClassesWithin m { r with rest := ys, errors := r.errors ++ es } := by
  cases xs with
  | nil =>
    rw [List.nil_append] at hrest
    refine ⟨bound, [], by rwa [hrest] at hb, rfl, ?_⟩
    rw [List.append_nil, ← hrest]
  | cons t xs =>
    have hnot : ahead .classWord r.rest = false := by
      rw [hrest]
      simpa [ahead] using hfree t List.mem_cons_self
    obtain ⟨what, hstop⟩ := ClassDecl.readsClass_parse.refuses hnot
    have hread := readClass_of_error hstop
    rw [recover_note hlost hrest hfree hy] at hread
    have hlen : xs.length + ys.length + 1 ≤ bound := by
      rw [hrest] at hb
      simp only [List.length_append, List.length_cons] at hb
      omega
    obtain ⟨m, rfl⟩ : ∃ m, bound = m + 1 := ⟨bound - 1, by omega⟩
    let s : Stop := ⟨.token what, r.rest⟩
    refine ⟨m, [⟨s.expected, r.found s⟩], by omega, ⟨_, rfl, ?_⟩, ?_⟩
    · have hs : s.rest = t :: xs ++ ys := hrest
      exact found_mem hs (List.suffix_refl _) fun _ hliteral => by cases hliteral
    · rw [readClassesWithin, if_neg (by simp [hrest]), hread]
      rfl

/-- In the file, a routine for classes gives what it gives on the segment alone. Reading goes on with the
next segment, at the cost of this one. -/
theorem readClassesWithin_after_attempt {x : Routine α} (hx : Refines x p) (hp : ReadsClass p)
    (hrest : r.rest = t :: xs ++ ys) (ht : t.kind = .classWord) (hfree : ClassFree xs) (hy : Border ys)
    (hlost : r.lost = false) (hend : ∀ u ∈ t :: xs, u.kind ≠ .endOfFile) (hstop : r.stop.kind = .endOfFile) :
    (r.attempt p).1 = (alone x r.stop (t :: xs)).1 ∧
      (r.attempt p).2.rest.length < r.rest.length ∧
      ∀ bound, (r.attempt p).2.rest.length ≤ bound →
        ∃ m es, ys.length ≤ m ∧ Costs (faultIn x r.stop (t :: xs)) (ys.headD r.stop) es ∧
          readClassesWithin bound (r.attempt p).2 =
            readClassesWithin m { r with rest := ys, errors := r.errors ++ es } := by
  have hagree := hp.agree ht hfree hy
  have hlen : r.rest.length = xs.length + ys.length + 1 := by
    rw [hrest]
    simp only [List.length_append, List.length_cons]
    omega
  rw [← hrest] at hagree
  unfold faultIn alone
  rw [hx, ofTokens_append hend hstop, hlen]
  unfold Reader.read
  generalize hx : p r.rest = x at hagree
  generalize p (t :: xs) = y at hagree
  cases hagree with
  | @ok a left hleft =>
    rw [attempt_of_ok hx]
    refine ⟨rfl, ?_, fun bound hb => ?_⟩
    · have := hleft.length_le
      rw [List.length_append]
      omega
    · obtain ⟨m, es, hm, hcosts, hclasses⟩ := readClassesWithin_leftover
        (r := { r with rest := left ++ ys }) rfl (hfree.of_suffix hleft) hy hlost hb
      exact ⟨m, es, hm, hcosts.mono fun u hu => List.mem_cons_of_mem t (hleft.mem hu), hclasses⟩
  | @error s s' left hs hleft hliteral =>
    rw [attempt_of_error hx, recover_note hlost hs (hfree.of_suffix hleft) hy]
    refine ⟨rfl, ?_, fun bound hb => ⟨bound, [⟨s.expected, r.found s⟩], hb, ⟨_, rfl, ?_⟩, rfl⟩⟩
    · change ys.length < xs.length + ys.length + 1
      omega
    · exact List.mem_cons_of_mem t (found_mem hs hleft hliteral)

/-! ## All classes, one after the other -/

/-- The class in a segment, if alone it can be read. -/
def classIn? (stop : Token) (segment : List Token) : Option ClassDecl :=
  (alone Routine.classDecl stop segment).1

theorem headD_flatMap_faultIn (stop : Token) (segments : List (List Token)) :
    ((segments.map (faultIn Routine.classDecl stop)).flatMap (·.1)).headD stop =
      segments.flatten.headD stop := by
  rw [List.flatMap_map, ← List.flatMap_id]
  rfl

theorem readClassesWithin_segments {segments : List (List Token)} {bound : Nat}
    (hsegments : ∀ segment ∈ segments, IsSegment segment) (hrest : r.rest = segments.flatten)
    (hlost : r.lost = false) (hend : ∀ u ∈ r.rest, u.kind ≠ .endOfFile)
    (hstop : r.stop.kind = .endOfFile) (hb : r.rest.length ≤ bound) :
    ∃ es r', readClassesWithin bound r = (segments.filterMap (classIn? r.stop), r') ∧
      r'.errors = r.errors ++ es ∧
      Reported r.stop (segments.map (faultIn Routine.classDecl r.stop)) es := by
  induction segments generalizing r bound with
  | nil =>
    rw [List.flatten_nil] at hrest
    refine ⟨[], r, ?_, (List.append_nil _).symm, .nil⟩
    cases bound with
    | zero => rfl
    | succ bound => rw [readClassesWithin, if_pos (by simp [hrest]), List.filterMap_nil]
  | cons segment segments ih =>
    rw [List.forall_mem_cons] at hsegments
    obtain ⟨⟨t, xs, rfl, ht, hfree⟩, hothers⟩ := hsegments
    rw [List.flatten_cons] at hrest
    rw [hrest, List.forall_mem_append] at hend
    obtain ⟨hclass, hshort, hgo⟩ := readClassesWithin_after_attempt Routine.refines_classDecl
      ClassDecl.readsClass_parse hrest ht
      hfree (border_flatten hothers) hlost hend.1 hstop
    obtain ⟨bound, rfl⟩ : ∃ m, bound = m + 1 := ⟨bound - 1, by omega⟩
    obtain ⟨m, es, hm, hcosts, hclasses⟩ := hgo bound (by omega)
    obtain ⟨es', r', hread, herrors, hreported⟩ := ih
      (r := { r with rest := segments.flatten, errors := r.errors ++ es }) hothers rfl hlost hend.2
      hstop hm
    refine ⟨es ++ es', r', ?_, ?_, .cons ?_ hreported⟩
    · rw [readClassesWithin, if_neg (by simp [hrest]), readClass_eq_attempt]
      change ((r.attempt ClassDecl.parse).1.toList ++
        (readClassesWithin bound (r.attempt ClassDecl.parse).2).1,
        (readClassesWithin bound (r.attempt ClassDecl.parse).2).2) = _
      rw [hclasses, hread, hclass, List.filterMap_cons]
      unfold classIn?
      cases (alone Routine.classDecl r.stop (t :: xs)).1 <;> rfl
    · rw [herrors, List.append_assoc]
    · rw [headD_flatMap_faultIn]
      exact hcosts

/-! ## Whole files -/

/-- The parts of a file, and which of them have a fault: the main class and the other classes. If the file
does not begin with a class, the main class is missing, which is a fault of what stands there. -/
def faultsIn (stop : Token) : List Token → List (List Token) → List (List Token × Bool)
  | [], first :: others =>
    faultIn Routine.mainClass stop first :: others.map (faultIn Routine.classDecl stop)
  | lead, segments => (lead, true) :: segments.map (faultIn Routine.classDecl stop)

/-- The main class and the other classes, as far as each of them can be read alone. -/
def programIn? (stop : Token) : List Token → List (List Token) → Option Program
  | [], first :: others => (alone Routine.mainClass stop first).1.map fun main =>
      { main, classes := others.filterMap (classIn? stop) }
  | _, _ => none

theorem readProgram_of_segments {stop : Token} {first : List Token} {others : List (List Token)}
    (hfirst : IsSegment first) (hothers : ∀ segment ∈ others, IsSegment segment)
    (hend : ∀ u ∈ first ++ others.flatten, u.kind ≠ .endOfFile) (hstop : stop.kind = .endOfFile) :
    ∃ r, readProgram { rest := first ++ others.flatten, stop } =
        (programIn? stop [] (first :: others), r) ∧
      Reported stop (faultsIn stop [] (first :: others)) r.errors := by
  obtain ⟨t, xs, rfl, ht, hfree⟩ := hfirst
  rw [List.forall_mem_append] at hend
  obtain ⟨hmain, -, hgo⟩ := readClassesWithin_after_attempt
    (r := { rest := t :: xs ++ others.flatten, stop }) Routine.refines_mainClass MainClass.readsClass_parse rfl ht hfree
    (border_flatten hothers) rfl hend.1 hstop
  obtain ⟨m, es, hm, hcosts, hclasses⟩ := hgo _ (Nat.le_refl _)
  obtain ⟨es', r', hread, herrors, hreported⟩ := readClassesWithin_segments
    (r := { rest := others.flatten, stop, errors := es }) hothers rfl rfl hend.2 hstop hm
  refine ⟨r', ?_, ?_⟩
  · rw [readProgram_eq, readClasses, hclasses, List.nil_append, hread, hmain]
    rfl
  · rw [herrors]
    refine .cons ?_ hreported
    rw [headD_flatMap_faultIn]
    exact hcosts

theorem readProgram_of_lead {stop : Token} {lead : List Token} {segments : List (List Token)}
    (hlead : ClassFree lead) (hsegments : ∀ segment ∈ segments, IsSegment segment)
    (hnot : ahead .classWord (lead ++ segments.flatten) = false)
    (hend : ∀ u ∈ lead ++ segments.flatten, u.kind ≠ .endOfFile) (hstop : stop.kind = .endOfFile) :
    ∃ r, readProgram { rest := lead ++ segments.flatten, stop } = (none, r) ∧
      Reported stop ((lead, true) :: segments.map (faultIn Routine.classDecl stop)) r.errors := by
  let start : Reader := { rest := lead ++ segments.flatten, stop }
  obtain ⟨what, hmain⟩ := MainClass.readsClass_parse.refuses hnot
  let s : Stop := ⟨.token what, lead ++ segments.flatten⟩
  have hattempt : start.attempt MainClass.parse = (none, (start.note s).recover) :=
    attempt_of_error hmain
  have hs : s.rest = lead ++ segments.flatten := rfl
  rw [recover_note rfl hs hlead (border_flatten hsegments)] at hattempt
  rw [List.forall_mem_append] at hend
  obtain ⟨es, r', hread, herrors, hreported⟩ := readClassesWithin_segments
    (r := { rest := segments.flatten, stop, errors := [⟨s.expected, start.found s⟩] }) hsegments rfl rfl
    hend.2 hstop (Nat.le_refl _)
  refine ⟨r', ?_, ?_⟩
  · change start.readProgram = _
    rw [readProgram_eq, hattempt]
    exact congrArg (fun x : List ClassDecl × Reader => (none, x.2)) hread
  · rw [herrors]
    refine .cons ⟨_, rfl, ?_⟩ hreported
    rw [headD_flatMap_faultIn]
    exact found_mem (r := start) hs (List.suffix_refl lead) nofun

/-- A file is read class by class, each one as if it stood alone. There is a program if the first class is
a main class, and then it holds the other classes that can be read. A class that alone cannot be read to
its end costs one report, and so does the lack of a class at the start. The tokens may have any offsets:
these are natural numbers, and no sum of them is out of range. -/
theorem readProgram_by_segments {tokens : List Token} {stop : Token}
    (hend : ∀ t ∈ tokens, t.kind ≠ .endOfFile) (hstop : stop.kind = .endOfFile) :
    let lead := (cutAtClasses tokens).1
    let segments := (cutAtClasses tokens).2
    (lead ++ segments.flatten = tokens ∧ ClassFree lead ∧ ∀ segment ∈ segments, IsSegment segment) ∧
      ∃ r, (ofTokens (tokens ++ [stop])).readProgram = (programIn? stop lead segments, r) ∧
        Reported stop (faultsIn stop lead segments) r.errors ∧
        r.errors.length = (faultsIn stop lead segments).countP (·.2) := by
  have hcut := cutAtClasses_spec tokens
  refine ⟨hcut, ?_⟩
  rw [ofTokens_append hend hstop]
  obtain ⟨hjoin, hlead, hsegments⟩ := hcut
  rw [← hjoin] at hend
  generalize (cutAtClasses tokens).1 = lead at *
  generalize (cutAtClasses tokens).2 = segments at *
  subst hjoin
  suffices h : ∃ r, readProgram { rest := lead ++ segments.flatten, stop } =
      (programIn? stop lead segments, r) ∧ Reported stop (faultsIn stop lead segments) r.errors by
    obtain ⟨r, hread, hreported⟩ := h
    exact ⟨r, hread, hreported, hreported.length_eq⟩
  cases lead with
  | nil =>
    cases segments with
    | nil => exact readProgram_of_lead hlead hsegments rfl hend hstop
    | cons first others =>
      rw [List.forall_mem_cons] at hsegments
      exact readProgram_of_segments hsegments.1 hsegments.2 hend hstop
  | cons t lead =>
    refine readProgram_of_lead hlead hsegments ?_ hend hstop
    simpa [ahead] using hlead t List.mem_cons_self

/-- A main class and four others. The second of those has no name, and after the third one there is a
semicolon. -/
def mixedTokens : List Token :=
  let main : List TokenKind :=
    [.classWord, .identifier, .leftBrace, .publicWord, .staticWord, .void, .mainWord, .leftParen, .string,
      .leftBracket, .rightBracket, .identifier, .rightParen, .leftBrace, .rightBrace, .rightBrace]
  let good : List TokenKind := [.classWord, .identifier, .leftBrace, .rightBrace]
  let nameless : List TokenKind := [.classWord, .leftBrace, .int, .identifier]
  let kinds := main ++ good ++ nameless ++ good ++ [TokenKind.semicolon] ++ good
  kinds.map fun kind => ⟨kind, "x", 0, 1⟩

theorem readProgram_by_segments_mixedTokens :
    ∃ r program, (ofTokens (mixedTokens ++ [Token.endOfFile 0])).readProgram = (some program, r) ∧
      program.classes.length = 3 ∧ r.errors.length = 2 := by
  have hend : ∀ t ∈ mixedTokens, t.kind ≠ .endOfFile := by decide +kernel
  obtain ⟨-, r, hread, -, hlength⟩ := readProgram_by_segments hend (rfl : (Token.endOfFile 0).kind = _)
  have hprogram : ((programIn? (Token.endOfFile 0) (cutAtClasses mixedTokens).1
      (cutAtClasses mixedTokens).2).any fun program => program.classes.length == 3) = true := by
    decide +kernel
  have hcount : (faultsIn (Token.endOfFile 0) (cutAtClasses mixedTokens).1
      (cutAtClasses mixedTokens).2).countP (·.2) = 2 := by decide +kernel
  obtain ⟨program, hsome, hclasses⟩ := (Option.any_eq_true _ _).1 hprogram
  refine ⟨r, program, ?_, beq_iff_eq.1 hclasses, hlength.trans hcount⟩
  rw [hread]
  exact congrArg (·, r) hsome

end Reader

end ClassCheck
