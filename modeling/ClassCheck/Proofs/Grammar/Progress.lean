import ClassCheck.Proofs.Grammar.Bounds
import ClassCheck.Proofs.Grammar.RoundTrip
import ClassCheck.Proofs.Grammar.Segments

/-!
# A reader moves forward, up to the first end of file

A reader may be asked for a program, a statement or an expression, any number of times and on any tokens.
Each request takes tokens off the front of what is left, whether it is answered or not, so its position only
grows. The position is never past the first end of file, and a request for a program takes it there.
-/

namespace ClassCheck

open ClassCheck.Parser

namespace Parser

variable {α : Type} {p : Parser α} {xs ys : List Token}

/-! ## Where a parser gets to -/

/-- The tokens that are left where the parser ends, well or not. -/
def reached (p : Parser α) (ts : List Token) : List Token :=
  match p ts with
  | .ok (_, rest) => rest
  | .error s => s.rest

theorem Agrees.reached_suffix {ts : List Token} {y : Except Stop (α × List Token)}
    (h : Agrees xs ys (p ts) y) : reached p ts <:+ xs ++ ys := by
  unfold reached
  generalize p ts = x at h
  cases h with
  | ok hrest => exact (List.suffix_append_inj_of_length_eq rfl).2 ⟨hrest, rfl⟩
  | error hs hrest _ =>
    simp only [hs]
    exact (List.suffix_append_inj_of_length_eq rfl).2 ⟨hrest, rfl⟩

theorem exists_border (ts : List Token) : ∃ xs ys, ts = xs ++ ys ∧ ClassFree xs ∧ Border ys := by
  obtain ⟨hjoin, hfree, hsegments⟩ := cutAtClasses_spec ts
  exact ⟨_, _, hjoin.symm, hfree, border_flatten hsegments⟩

/-- The parser takes nothing back, and goes no further than the tokens that it is given. -/
def Forward (p : Parser α) : Prop := ∀ ts, reached p ts <:+ ts

theorem Local.forward (h : Local p) : Forward p := by
  intro ts
  obtain ⟨xs, ys, rfl, hfree, hy⟩ := exists_border ts
  exact (h _ (Nat.lt_succ_self _) hfree hy).reached_suffix

theorem ReadsClass.reached_suffix_tail (h : ReadsClass p) {t : Token} (ht : t.kind = .classWord)
    (ts : List Token) : reached p (t :: ts) <:+ ts := by
  obtain ⟨xs, ys, rfl, hfree, hy⟩ := exists_border ts
  exact (h.agree ht hfree hy).reached_suffix

theorem ReadsClass.forward (h : ReadsClass p) : Forward p := by
  intro ts
  cases hts : ahead .classWord ts with
  | true =>
    obtain ⟨t, us, rfl, ht⟩ := exists_of_ahead hts
    exact (h.reached_suffix_tail ht us).trans (List.suffix_cons t us)
  | false =>
    obtain ⟨what, hp⟩ := h.refuses hts
    simp [reached, hp]

end Parser

theorem Stmt.forward_parse : Forward Stmt.parse :=
  Local.forward fun n => (Stmt.twins_parse n).agree

namespace Reader

variable {α : Type} {p : Parser α}

/-! ## One request -/

/-- The second reader has taken tokens of the first one, or none. -/
structure Advances (r r' : Reader) : Prop where
  rest : r'.rest <:+ r.rest
  stop : r'.stop = r.stop

theorem Advances.refl (r : Reader) : r.Advances r := ⟨List.suffix_refl _, rfl⟩

theorem Advances.trans {r r' r'' : Reader} (h : r.Advances r') (h' : r'.Advances r'') :
    r.Advances r'' :=
  ⟨h'.rest.trans h.rest, h'.stop.trans h.stop⟩

theorem rest_read (r : Reader) (p : Parser α) : (r.read p).2.rest = reached p r.rest := by
  cases hp : p r.rest with
  | ok x => simp [read, reached, hp]
  | error s => simp [read, reached, hp, rest_note]

theorem stop_read (r : Reader) (p : Parser α) : (r.read p).2.stop = r.stop := by
  cases hp : p r.rest with
  | ok x => simp [read, hp]
  | error s => simp [read, hp, stop_note]

theorem advances_read (h : Forward p) (r : Reader) : r.Advances (r.read p).2 :=
  ⟨rest_read r p ▸ h r.rest, stop_read r p⟩

theorem advances_recover (r : Reader) : r.Advances r.recover :=
  ⟨List.dropWhile_suffix _, rfl⟩

theorem length_read_lt {r : Reader} {R : List Token → α → Prop} (hr : Reads p R)
    (hne : ∀ a, ¬ R [] a) (h : (r.read p).1.isSome = true) :
    (r.read p).2.rest.length < r.rest.length := by
  cases hp : p r.rest with
  | error s => simp [read, hp] at h
  | ok x =>
    obtain ⟨used, hused, hR⟩ := hr hp
    have hpos : 0 < used.length := by
      rw [List.length_pos_iff]
      rintro rfl
      exact hne x.1 hR
    rw [rest_read, hused, List.length_append]
    simp only [reached, hp, ← hused]
    omega

end Reader

/-! ## Routines -/

/-- The routine takes nothing back, and goes no further than the end of the file, whether it refuses or not. -/
def Routine.Forward {α : Type} (x : Routine α) : Prop := ∀ r : Reader, r.Advances (x r).2

theorem Refines.forward {α : Type} {x : Routine α} {p : Parser α} (h : Refines x p) (hp : Parser.Forward p) :
    x.Forward := by
  intro r
  rw [h]
  exact Reader.advances_read hp r

open Routine in
/-- All routines of the grammar go forward. -/
structure GoesForward : Prop where
  typeRef : typeRef.Forward
  varDecl : ∀ what, (varDecl what).Forward
  varDecls : varDecls.Forward
  params : params.Forward
  expression : expression.Forward
  statement : statement.Forward
  methodDecl : methodDecl.Forward
  classDecl : classDecl.Forward
  mainClass : mainClass.Forward

open Routine in
theorem goesForward : GoesForward where
  typeRef := refines_typeRef.forward TypeRef.local_parse.forward
  varDecl := fun what => (refines_varDecl what).forward (Local.forward fun n => VarDecl.local_parse n what)
  varDecls := refines_varDecls.forward VarDecl.local_parseAll.forward
  params := refines_params.forward VarDecl.local_parseParams.forward
  expression := refines_expression.forward Expr.local_parse.forward
  statement := refines_statement.forward Stmt.forward_parse
  methodDecl := refines_methodDecl.forward MethodDecl.local_parse.forward
  classDecl := refines_classDecl.forward ClassDecl.readsClass_parse.forward
  mainClass := refines_mainClass.forward MainClass.readsClass_parse.forward

namespace Reader

variable {α : Type} {p : Parser α}

/-! ## Classes -/

theorem advances_attempt (h : ReadsClass p) (r : Reader) : r.Advances (r.attempt p).2 := by
  have hread := advances_read h.forward r
  unfold attempt
  dsimp only
  split
  · exact hread
  · exact hread.trans (advances_recover _)

/-- An attempt to read a class takes at least one token: it skips what is no class. -/
theorem length_attempt_lt (h : ReadsClass p) {r : Reader} (hne : r.rest ≠ []) :
    (r.attempt p).2.rest.length < r.rest.length := by
  obtain ⟨t, ts, hts⟩ := List.exists_cons_of_ne_nil hne
  suffices hsuffix : (r.attempt p).2.rest <:+ ts by
    rw [hts]
    exact Nat.lt_succ_of_le hsuffix.length_le
  by_cases ht : t.kind = .classWord
  · have hreached : (r.read p).2.rest <:+ ts := by
      rw [rest_read, hts]
      exact h.reached_suffix_tail ht ts
    unfold attempt
    dsimp only
    split
    · exact hreached
    · exact (advances_recover _).rest.trans hreached
  · have hnot : ahead .classWord r.rest = false := by simpa [hts, ahead] using ht
    obtain ⟨what, hp⟩ := h.refuses hnot
    rw [attempt_of_error hp]
    simp only [recover, rest_note, hts]
    rw [List.dropWhile_cons_of_pos (by simpa using ht)]
    exact List.dropWhile_suffix _

theorem rest_readClassesWithin {bound : Nat} {r : Reader} (hb : r.rest.length ≤ bound) :
    (readClassesWithin bound r).2.rest = [] ∧ (readClassesWithin bound r).2.stop = r.stop := by
  induction bound generalizing r with
  | zero => exact ⟨List.eq_nil_of_length_eq_zero (Nat.le_zero.1 hb), rfl⟩
  | succ bound ih =>
    rw [readClassesWithin]
    split
    · next hnil => exact ⟨List.isEmpty_iff.1 hnil, rfl⟩
    · next hne =>
      have hlt := length_attempt_lt ClassDecl.readsClass_parse (r := r) (by simpa using hne)
      obtain ⟨hrest, hstop⟩ := ih (r := r.readClass.2) (by rw [readClass_eq_attempt]; omega)
      refine ⟨hrest, hstop.trans ?_⟩
      rw [readClass_eq_attempt]
      exact (advances_attempt ClassDecl.readsClass_parse r).stop

/-- Like `readClassesWithin`, but after the last attempt `cut` takes over. -/
def readClassesOver (cut : Reader → List ClassDecl × Reader) : Nat → Reader → List ClassDecl × Reader
  | 0, r => cut r
  | bound + 1, r =>
    if r.rest.isEmpty then ([], r)
    else
      let (class?, r) := r.readClass
      let (classes, r) := readClassesOver cut bound r
      (class?.toList ++ classes, r)

theorem readClassesOver_eq_within (cut : Reader → List ClassDecl × Reader) {bound m : Nat} {r : Reader}
    (hb : r.rest.length < bound) (hm : r.rest.length ≤ m) :
    readClassesOver cut bound r = readClassesWithin m r := by
  induction bound generalizing m r with
  | zero => exact absurd hb (Nat.not_lt_zero _)
  | succ bound ih =>
    cases m with
    | zero =>
      have hnil : r.rest = [] := List.eq_nil_of_length_eq_zero (Nat.le_zero.1 hm)
      simp [readClassesOver, readClassesWithin, hnil]
    | succ m =>
      rw [readClassesOver, readClassesWithin]
      split
      · rfl
      · next hne =>
        have hlt := length_attempt_lt ClassDecl.readsClass_parse (r := r) (by simpa using hne)
        rw [← readClass_eq_attempt] at hlt
        have hrest := ih (m := m) (r := r.readClass.2) (by omega) (by omega)
        simp only [hrest]

/-! ## Programs -/

theorem readProgram_reader (r : Reader) :
    r.readProgram.2 = (r.attempt MainClass.parse).2.readClasses.2 := by
  rw [readProgram_eq]

theorem advances_readProgram (r : Reader) :
    r.Advances r.readProgram.2 ∧ r.readProgram.2.rest = [] := by
  obtain ⟨hrest, hstop⟩ := rest_readClassesWithin (Nat.le_refl (r.attempt MainClass.parse).2.rest.length)
  rw [readProgram_reader, readClasses]
  refine ⟨⟨?_, hstop.trans (advances_attempt MainClass.readsClass_parse r).stop⟩, hrest⟩
  rw [hrest]
  exact List.nil_suffix

theorem rest_ne_nil_of_program {r : Reader} (h : r.readProgram.1.isSome = true) : r.rest ≠ [] := by
  intro hnil
  have hnot : ahead .classWord r.rest = false := by simp [hnil, ahead]
  obtain ⟨what, hp⟩ := MainClass.readsClass_parse.refuses hnot
  rw [readProgram_of_error hp] at h
  cases h

/-! ## Requests -/

inductive Request where
  | program
  | statement
  | expression
  deriving DecidableEq

/-- Whether the request is answered, and the reader after it. -/
def ask (r : Reader) : Request → Bool × Reader
  | .program => (r.readProgram.1.isSome, r.readProgram.2)
  | .statement => (r.readStatement.1.isSome, r.readStatement.2)
  | .expression => (r.readExpression.1.isSome, r.readExpression.2)

theorem ask_statement (r : Reader) : r.ask .statement = ((r.read Stmt.parse).1.isSome, (r.read Stmt.parse).2) := by
  rw [ask, readStatement_eq]

theorem ask_expression (r : Reader) : r.ask .expression = ((r.read Expr.parse).1.isSome, (r.read Expr.parse).2) := by
  rw [ask, readExpression_eq]

/-- The reader after these requests. -/
def after (r : Reader) (requests : List Request) : Reader :=
  requests.foldl (fun r request => (r.ask request).2) r

theorem advances_ask (r : Reader) (request : Request) : r.Advances (r.ask request).2 := by
  cases request with
  | program => exact r.advances_readProgram.1
  | statement => exact goesForward.statement r
  | expression => exact goesForward.expression r

theorem length_ask_lt {r : Reader} {request : Request} (h : (r.ask request).1 = true) :
    (r.ask request).2.rest.length < r.rest.length := by
  cases request with
  | program =>
    have hne := rest_ne_nil_of_program h
    have hrest : (r.ask .program).2.rest = [] := r.advances_readProgram.2
    rw [hrest]
    exact List.length_pos_iff.2 hne
  | statement =>
    rw [ask_statement] at h ⊢
    apply length_read_lt Stmt.reads_parse _ h
    rintro s ⟨hsay, -⟩
    exact s.words_ne_nil (List.eq_nil_of_length_eq_zero hsay.length_eq.symm)
  | expression =>
    rw [ask_expression] at h ⊢
    apply length_read_lt Expr.reads_parse _ h
    rintro e ⟨hsay, hg⟩
    obtain ⟨w, ws, hw, -⟩ := Expr.words_eq_cons hg
    simpa [hw] using hsay.length_eq

theorem advances_after (r : Reader) (requests : List Request) : r.Advances (r.after requests) := by
  induction requests generalizing r with
  | nil => exact Advances.refl r
  | cons request requests ih => exact (r.advances_ask request).trans (ih _)

/-! ## Positions -/

/-- The tokens with an end of file after them, if the last one is none. -/
def closed (tokens : List Token) : List Token :=
  if tokens.getLast?.any (·.kind == .endOfFile) then tokens
  else tokens ++ [Token.endOfFile ((tokens.getLast?.map (·.span.stop)).getD 0)]

/-- Where the first end of file stands, in the tokens or right after them. -/
def endIndex (tokens : List Token) : Nat := tokens.findIdx (·.kind == .endOfFile)

/-- The reader is at the token with this index. From there on stand the tokens that it has not taken, the
first end of file and tokens that it never looks at. -/
structure At (tokens : List Token) (i : Nat) (r : Reader) : Prop where
  ahead : (closed tokens).drop i = r.rest ++ r.stop :: (closed tokens).drop (endIndex tokens + 1)
  rest : ∀ t ∈ r.rest, t.kind ≠ .endOfFile
  stop : r.stop.kind = .endOfFile

theorem rest_ofTokens (tokens : List Token) :
    (ofTokens tokens).rest = tokens.take (endIndex tokens) := by
  have hnot : (fun t : Token => !(t.kind != .endOfFile)) = (·.kind == .endOfFile) := by
    funext t
    exact Bool.not_not _
  rw [endIndex, ← hnot, ← List.takeWhile_eq_take_findIdx_not, ofTokens]

theorem length_rest_ofTokens (tokens : List Token) :
    (ofTokens tokens).rest.length = endIndex tokens := by
  rw [rest_ofTokens, List.length_take]
  exact Nat.min_eq_left List.findIdx_le_length

theorem kind_ne_of_mem_ofTokens {tokens : List Token} {t : Token} (h : t ∈ (ofTokens tokens).rest) :
    t.kind ≠ .endOfFile := by
  simpa using List.all_eq_true.1 List.all_takeWhile t h

theorem kind_stop_ofTokens (tokens : List Token) : (ofTokens tokens).stop.kind = .endOfFile := by
  unfold ofTokens
  split
  · next t hfind => simpa using List.find?_some hfind
  · rfl

theorem exists_closed_eq (tokens : List Token) :
    ∃ beyond, closed tokens = (ofTokens tokens).rest ++ (ofTokens tokens).stop :: beyond := by
  cases hfind : tokens.find? (·.kind == .endOfFile) with
  | some t =>
    obtain ⟨ht, before, beyond, rfl, hbefore⟩ := List.find?_eq_some_iff_append.1 hfind
    rw [ofTokens_append_cons (by simpa using hbefore) (by simpa using ht), closed]
    split
    · exact ⟨beyond, rfl⟩
    · exact ⟨_, List.append_assoc _ _ _⟩
  | none =>
    have hnone : ∀ t ∈ tokens, t.kind ≠ .endOfFile := by simpa using hfind
    have hend : endIndex tokens = tokens.length := List.findIdx_eq_length.2 (by simpa using hnone)
    have hlast : ¬ tokens.getLast?.any (·.kind == .endOfFile) := by
      cases hlast : tokens.getLast? with
      | none => simp
      | some t => simpa using hnone t (List.mem_of_getLast? hlast)
    refine ⟨[], ?_⟩
    rw [closed, if_neg hlast, rest_ofTokens, hend, List.take_length]
    simp only [ofTokens, hfind]

theorem closed_eq (tokens : List Token) :
    closed tokens = (ofTokens tokens).rest ++
      (ofTokens tokens).stop :: (closed tokens).drop (endIndex tokens + 1) := by
  obtain ⟨beyond, h⟩ := exists_closed_eq tokens
  have hlen := length_rest_ofTokens tokens
  rw [h, ← hlen]
  simp

theorem Advances.isAt {tokens : List Token} {r : Reader} (h : (ofTokens tokens).Advances r) :
    r.At tokens (endIndex tokens - r.rest.length) where
  ahead := by
    obtain ⟨taken, htaken⟩ := h.rest
    have hlen := congrArg List.length htaken
    rw [List.length_append, length_rest_ofTokens] at hlen
    have hi : endIndex tokens - r.rest.length = taken.length := by omega
    calc (closed tokens).drop (endIndex tokens - r.rest.length)
      _ = (taken ++ (r.rest ++ r.stop :: (closed tokens).drop (endIndex tokens + 1))).drop taken.length := by
        rw [hi, ← List.append_assoc, htaken, h.stop, ← closed_eq]
      _ = r.rest ++ r.stop :: (closed tokens).drop (endIndex tokens + 1) := List.drop_left
  rest := fun t ht => kind_ne_of_mem_ofTokens (h.rest.mem ht)
  stop := h.stop ▸ kind_stop_ofTokens tokens

theorem ofTokens_take_closed (tokens beyond : List Token) :
    ofTokens ((closed tokens).take (endIndex tokens + 1) ++ beyond) = ofTokens tokens := by
  have htake : (closed tokens).take (endIndex tokens + 1) =
      (ofTokens tokens).rest ++ [(ofTokens tokens).stop] := by
    rw [closed_eq, ← length_rest_ofTokens, List.take_length_add_append]
    rfl
  rw [htake, List.append_assoc]
  exact ofTokens_append_cons (fun _ => kind_ne_of_mem_ofTokens) (kind_stop_ofTokens tokens) beyond

theorem endIndex_lt_length (tokens : List Token) : endIndex tokens < (closed tokens).length := by
  have hlen := congrArg List.length (closed_eq tokens)
  rw [List.length_append, List.length_cons, length_rest_ofTokens] at hlen
  omega

/-- For all tokens and all requests: nothing is done because of a bound, and no routine takes anything back.
The reader is at a token, not past the first end of file. No request takes it back, each one that is answered
takes it forward, and one for a program takes it to the first end of file. Tokens beyond that make no
difference. Tokens may have any offsets and lengths: these are natural numbers, and no sum of them is out of range. -/
theorem position_advances (tokens : List Token) (requests : List Request) (request : Request) :
    let r := (ofTokens tokens).after requests
    let r' := (r.ask request).2
    NoBoundMet ∧
      (∀ cut bound (s : Reader), s.rest.length < bound → readClassesOver cut bound s = s.readClasses) ∧
      GoesForward ∧
      (∀ beyond, ofTokens ((closed tokens).take (endIndex tokens + 1) ++ beyond) = ofTokens tokens) ∧
      endIndex tokens < (closed tokens).length ∧
      ∃ i j, r.At tokens i ∧ r'.At tokens j ∧ i ≤ j ∧ j ≤ endIndex tokens ∧
        ((r.ask request).1 = true → i < j) ∧ (request = .program → j = endIndex tokens) := by
  intro r r'
  have hr : (ofTokens tokens).Advances r := advances_after _ requests
  have hask : r.Advances r' := advances_ask r request
  have hle := hask.rest.length_le
  have hend := hr.rest.length_le
  rw [length_rest_ofTokens] at hend
  refine ⟨noBoundMet, fun cut _ _ hb => readClassesOver_eq_within cut hb (Nat.le_refl _), goesForward,
    ofTokens_take_closed tokens, endIndex_lt_length tokens, _, _, hr.isAt, (hr.trans hask).isAt, ?_⟩
  refine ⟨by omega, by omega, ?_, ?_⟩
  · intro h
    have hlt : r'.rest.length < r.rest.length := length_ask_lt h
    omega
  · rintro rfl
    have hnil : r'.rest = [] := r.advances_readProgram.2
    simp [hnil]

end Reader

end ClassCheck
