import ClassCheck.Proofs.Grammar.Progress
import ClassCheck.Proofs.Pointing
import ClassCheck.Proofs.Text.Offsets

/-!
# Errors are reported in the order of the source

Pieces of text that are left out follow each other, so the errors of a scan do. A reader may stop at a token
that it has not taken, such as the `class` from which it goes on, or at a number behind it. But the next attempt
takes this `class` first, so its report is about a token further on: the reports are about tokens of the file in
their order, each of them at most once. Main statement: if a source cannot be scanned and read, then the
positions in its diagnostics are strictly increasing.
-/

namespace ClassCheck

open ClassCheck.Parser

/-! ## Scanning -/

theorem Piece.offset_of_error? {piece : Piece} {offset : Nat} {e : LexicalError}
    (h : piece.error? offset = some e) : e.span.offset = offset := by
  cases piece with
  | stray | badNumber | openComment =>
    obtain rfl := Option.some.inj h
    rfl
  | blank | lineComment | blockComment | token => cases h

theorem Piece.text_ne_nil_of_mem_split [Alphabet] {cs : List Char} {piece : Piece} (h : piece ∈ split cs) :
    piece.text ≠ [] := by
  fun_induction split cs with
  | case1 => cases h
  | case2 c cs first ih =>
    rcases List.mem_cons.1 h with rfl | h
    · obtain ⟨body, -, htext, -⟩ := text_first c cs
      exact htext ▸ List.cons_ne_nil c body
    · exact ih h

/-- Every piece is where those before it end, and none of them is empty. -/
theorem Piece.pairwise_errorsFrom (offset : Nat) {pieces : List Piece} (h : ∀ piece ∈ pieces, piece.text ≠ []) :
    (errorsFrom offset pieces).Pairwise fun a b => a.span.offset < b.span.offset := by
  induction pieces generalizing offset with
  | nil => exact List.Pairwise.nil
  | cons piece pieces ih =>
    obtain ⟨hpiece, hpieces⟩ := List.forall_mem_cons.1 h
    rw [errorsFrom_cons, List.pairwise_append]
    refine ⟨?_, ih _ hpieces, fun a ha b hb => ?_⟩
    · cases piece.error? offset <;> simp
    · have hoffset := offset_of_error? (Option.mem_toList.1 ha)
      obtain ⟨front, _, _, -, hfound⟩ := exists_of_mem_errorsFrom hb
      have hoffset' := offset_of_error? hfound
      have := byteSize_pos hpiece
      omega

theorem pairwise_errors_scan [Alphabet] (text : String) :
    (scan text).errors.Pairwise fun a b => a.span.offset < b.span.offset :=
  Piece.pairwise_errorsFrom 0 fun _ => Piece.text_ne_nil_of_mem_split

theorem pairwise_tokensOf [Alphabet] (text : String) :
    (tokensOf text ++ [Token.endOfFile (byteSize text.toList)]).Pairwise fun a b => a.offset < b.offset := by
  refine List.pairwise_append.2 ⟨?_, List.pairwise_singleton _ _, fun a ha b hb => ?_⟩
  · refine (inOrder_tokensOf text).imp_of_mem fun {a b} ha _ hab => ?_
    have := length_pos_of_mem_tokensOf ha
    simp only [Token.span, Span.stop] at hab
    omega
  · obtain rfl := List.mem_singleton.1 hb
    have hpos := length_pos_of_mem_tokensOf ha
    obtain ⟨before, after, htext, hoffset, hlength⟩ := Span.slice?_eq_some_iff.1 (slice?_of_mem_tokensOf ha)
    have hsize := congrArg byteSize htext
    simp only [Token.span] at hoffset hlength
    simp only [byteSize_append] at hsize
    simp only [Token.endOfFile]
    omega

/-! ## Reading -/

/-- The tokens from the one that the stop is about. A number that does not fit has been taken already. -/
def Stop.fromFound (s : Stop) : List Token :=
  match s.expected with
  | .smallNumber literal => literal :: s.rest
  | _ => s.rest

/-- The tokens that a report can still be about, with these left to read: not a `class` that stands first, and
none if nothing is left. -/
def pendingIn (stop : Token) : List Token → List Token
  | [] => []
  | t :: ts => if t.kind = .classWord then ts ++ [stop] else t :: ts ++ [stop]

theorem pendingIn_sublist (stop : Token) (ts : List Token) : (pendingIn stop ts).Sublist (ts ++ [stop]) := by
  cases ts with
  | nil => exact List.nil_sublist _
  | cons t ts =>
    rw [pendingIn]
    split
    · exact List.sublist_cons_self t _
    · exact List.Sublist.refl _

theorem headD_cons_pendingIn (stop : Token) (ts : List Token) :
    (ts.headD stop :: pendingIn stop (ts.dropWhile (·.kind != .classWord))).Sublist (ts ++ [stop]) := by
  cases ts with
  | nil => exact List.Sublist.refl _
  | cons t ts =>
    refine List.Sublist.cons_cons t ?_
    by_cases ht : t.kind = .classWord
    · rw [List.dropWhile_cons_of_neg (by simpa using ht), pendingIn, if_pos ht]
      exact List.Sublist.refl _
    · rw [List.dropWhile_cons_of_pos (by simpa using ht)]
      exact (pendingIn_sublist stop _).trans ((List.dropWhile_suffix _).sublist.append_right _)

namespace Reader

variable {α : Type} {p : Parser α} {r : Reader}

def pending (r : Reader) : List Token := pendingIn r.stop r.rest

theorem found_cons_pending (r : Reader) (s : Stop) :
    (r.found s :: (r.note s).recover.pending).Sublist (s.fromFound ++ [r.stop]) := by
  have hpending : (r.note s).recover.pending = pendingIn r.stop (s.rest.dropWhile (·.kind != .classWord)) := by
    rw [pending, recover, rest_note, stop_note]
  have hnext := headD_cons_pendingIn r.stop s.rest
  rw [hpending]
  obtain ⟨expected, rest⟩ := s
  cases expected with
  | smallNumber literal => exact List.Sublist.cons_cons literal ((List.sublist_cons_self _ _).trans hnext)
  | token | expression | statement | type | identifier => exact hnext

theorem errors_note_cases (r : Reader) (s : Stop) :
    (r.note s).errors = r.errors ∨ (r.note s).errors = r.errors ++ [⟨s.expected, r.found s⟩] := by
  unfold note
  split
  · exact .inr rfl
  · split
    · exact .inl rfl
    · exact .inr rfl

/-- The tokens that a parser for classes has not passed when it stops: it has taken a `class`, or nothing. -/
theorem fromFound_sublist {P : α → Prop} (hclass : ReadsClass p) (hkeeps : Keeps r.rest P p) {s : Stop}
    (hne : r.rest ≠ []) (h : p r.rest = .error s) : (s.fromFound ++ [r.stop]).Sublist r.pending := by
  obtain ⟨t, ts, hts⟩ := List.exists_cons_of_ne_nil hne
  by_cases ht : t.kind = .classWord
  · have hstands : s.expected.StandsIn r.rest s.rest := by
      have hkept := hkeeps (List.suffix_refl _)
      rwa [h] at hkept
    have hrest : s.rest <:+ ts := by
      have hreached := hclass.reached_suffix_tail ht ts
      rwa [reached, ← hts, h] at hreached
    have hfound : s.fromFound <:+ ts := by
      obtain ⟨expected, rest⟩ := s
      cases expected with
      | smallNumber literal =>
        -- The number is no `class`, so it is not the token that was taken first.
        obtain ⟨hsuffix, hkind, -⟩ := hstands
        rw [hts] at hsuffix
        rcases List.suffix_cons_iff.1 hsuffix with heq | hsuffix
        · obtain ⟨rfl, -⟩ := List.cons.inj heq
          rw [hkind] at ht
          cases ht
        · exact hsuffix
      | token | expression | statement | type | identifier => exact hrest
    rw [pending, hts, pendingIn, if_pos ht]
    exact hfound.sublist.append_right _
  · have hnot : ahead .classWord r.rest = false := by simpa [hts, ahead] using ht
    obtain ⟨what, hp⟩ := hclass.refuses hnot
    obtain rfl := Except.error.inj (hp.symm.trans h)
    rw [pending, hts, pendingIn, if_neg ht]
    exact List.Sublist.refl _

/-! ## One attempt and all of them -/

/-- The reports that the second reader has more, and then its pending tokens, are pending tokens of the first one
in their order. -/
def ReportsAhead (r r' : Reader) : Prop :=
  ∃ es, r'.errors = r.errors ++ es ∧ (es.map SyntaxError.found ++ r'.pending).Sublist r.pending

theorem ReportsAhead.refl (r : Reader) : r.ReportsAhead r :=
  ⟨[], (List.append_nil _).symm, List.Sublist.refl _⟩

theorem ReportsAhead.trans {r r' r'' : Reader} (h : r.ReportsAhead r') (h' : r'.ReportsAhead r'') :
    r.ReportsAhead r'' := by
  obtain ⟨es, herrors, hsub⟩ := h
  obtain ⟨es', herrors', hsub'⟩ := h'
  refine ⟨es ++ es', by rw [herrors', herrors, List.append_assoc], ?_⟩
  rw [List.map_append, List.append_assoc]
  exact (hsub'.append_left _).trans hsub

theorem reportsAhead_attempt {P : α → Prop} (hclass : ReadsClass p) (hkeeps : Keeps r.rest P p)
    (hne : r.rest ≠ []) : r.ReportsAhead (r.attempt p).2 := by
  cases hp : p r.rest with
  | ok x =>
    obtain ⟨t, ts, hts⟩ := List.exists_cons_of_ne_nil hne
    have ht : t.kind = .classWord := by
      by_contra ht
      have hnot : ahead .classWord r.rest = false := by simpa [hts, ahead] using ht
      obtain ⟨what, hrefuse⟩ := hclass.refuses hnot
      cases hp.symm.trans hrefuse
    have hrest : x.2 <:+ ts := by
      have hreached := hclass.reached_suffix_tail ht ts
      rwa [reached, ← hts, hp] at hreached
    rw [attempt_of_ok hp]
    refine ⟨[], (List.append_nil _).symm, ?_⟩
    rw [pending, pending, hts, pendingIn, if_pos ht]
    exact (pendingIn_sublist _ _).trans (hrest.sublist.append_right _)
  | error s =>
    rw [attempt_of_error hp]
    have hsub := (r.found_cons_pending s).trans (fromFound_sublist hclass hkeeps hne hp)
    rcases r.errors_note_cases s with herrors | herrors
    · exact ⟨[], herrors.trans (List.append_nil _).symm, (List.sublist_cons_self _ _).trans hsub⟩
    · exact ⟨_, herrors, hsub⟩

theorem reportsAhead_readClassesWithin (bound : Nat) (r : Reader) :
    r.ReportsAhead (readClassesWithin bound r).2 := by
  induction bound generalizing r with
  | zero => exact ReportsAhead.refl r
  | succ bound ih =>
    rw [readClassesWithin]
    split
    · exact ReportsAhead.refl r
    · next hne =>
      have hattempt := reportsAhead_attempt (r := r) ClassDecl.readsClass_parse ClassDecl.keeps_parse
        (by simpa using hne)
      rw [← readClass_eq_attempt] at hattempt
      exact hattempt.trans (ih _)

theorem found_readProgram_sublist {r : Reader} (hnew : r.errors = []) :
    (r.readProgram.2.errors.map SyntaxError.found).Sublist (r.rest ++ [r.stop]) := by
  rw [readProgram_reader]
  cases hrest : r.rest with
  | nil =>
    -- Only the lack of a main class is reported.
    obtain ⟨rest, stop, lost, errors⟩ := r
    subst hrest hnew
    obtain ⟨what, hp⟩ := MainClass.readsClass_parse.refuses (rfl : ahead .classWord [] = false)
    rw [attempt_of_error hp, readClasses, recover, rest_note, List.dropWhile_nil, List.length_nil,
      readClassesWithin]
    cases lost with
    | true => exact List.nil_sublist _
    | false => exact List.Sublist.refl _
  | cons t ts =>
    have hattempt := reportsAhead_attempt (r := r) MainClass.readsClass_parse MainClass.keeps_parse (by simp [hrest])
    obtain ⟨es, herrors, hsub⟩ := hattempt.trans (reportsAhead_readClassesWithin _ _)
    rw [readClasses, herrors, hnew, List.nil_append, ← hrest]
    exact (List.sublist_append_left _ _).trans (hsub.trans (pendingIn_sublist _ _))

end Reader

/-! ## Diagnostics -/

def Diagnostic.position? (d : Diagnostic) : Option Source.Position :=
  d.location.map fun location => ⟨location.line, location.column⟩

namespace Source

variable {source : Source} {listings : Listings} {e : CompileError}

theorem error_of_parse [Alphabet] (h : (source.parse listings).outcome = .error e) :
    e = .lexical (scan source.text).errors ∨ e = .grammar source.reading.2.errors := by
  rw [outcome_parse] at h
  split at h
  · exact .inl (Except.error.inj h).symm
  · exact .inr (Reader.eq_of_verdict_error h)

theorem offsets_of_parse [Alphabet] (h : (source.parse listings).outcome = .error e) :
    ∃ offsets : List Nat, (e.diagnostics source).map Diagnostic.position? =
        offsets.map (fun offset => some (source.locate offset)) ∧ offsets.Pairwise (· < ·) := by
  rcases error_of_parse h with rfl | rfl
  · refine ⟨(scan source.text).errors.map (·.span.offset), ?_, List.pairwise_map.2 (pairwise_errors_scan _)⟩
    simp only [CompileError.diagnostics, List.map_map]
    rfl
  · refine ⟨source.reading.2.errors.map (·.found.offset), ?_, ?_⟩
    · simp only [CompileError.diagnostics, List.map_map]
      rfl
    · rw [reading, Reader.ofTokens_scan]
      have hsub := Reader.found_readProgram_sublist
        (r := { rest := tokensOf source.text, stop := Token.endOfFile (byteSize source.text.toList) }) rfl
      have hfound := (pairwise_tokensOf source.text).sublist hsub
      rw [List.pairwise_map] at hfound ⊢
      exact hfound

/-- If a source cannot be scanned and read, then every diagnostic has a position, and each position comes after
those before it. -/
theorem positions_increase [Alphabet] (h : (source.parse listings).outcome = .error e) :
    ∃ positions : List Position, (e.diagnostics source).map Diagnostic.position? = positions.map some ∧
      positions.Pairwise Position.Before := by
  obtain ⟨offsets, hpositions, hoffsets⟩ := offsets_of_parse h
  refine ⟨offsets.map source.locate, ?_, List.pairwise_map.2 (hoffsets.imp locate_before)⟩
  rw [hpositions, List.map_map]
  rfl

/-- The main class has no name, so that the next `class` is reported, from which reading goes on. There a number
does not fit. The last class is not even begun. -/
def threeFaults : Source where
  file := "A.java"
  text := "class\nclass A \x7bpublic int f() \x7breturn 3000000000;\x7d\x7d\n;class"

theorem positions_increase_threeFaults :
    ∃ e, (threeFaults.parse .none).outcome = .error e ∧
      (e.diagnostics threeFaults).map Diagnostic.position? = [some ⟨2, 1⟩, some ⟨2, 33⟩, some ⟨3, 7⟩] ∧
      ∃ positions : List Position, (e.diagnostics threeFaults).map Diagnostic.position? = positions.map some ∧
        positions.Pairwise Position.Before := by
  have hrun : ((Outcome.error? (threeFaults.parse .none).outcome).any fun e =>
      decide ((e.diagnostics threeFaults).map Diagnostic.position? =
        [some ⟨2, 1⟩, some ⟨2, 33⟩, some ⟨3, 7⟩])) = true := by
    decide +kernel
  obtain ⟨e, he, hfound⟩ := (Option.any_eq_true _ _).1 hrun
  have hparse := Outcome.error?_eq_some.1 he
  exact ⟨e, hparse, of_decide_eq_true hfound, positions_increase hparse⟩

end Source

end ClassCheck
