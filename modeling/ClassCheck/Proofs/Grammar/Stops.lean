import ClassCheck.Proofs.Grammar.Segments
import ClassCheck.Proofs.Grammar.Spelling
import ClassCheck.Proofs.Typing.Sites

/-!
# Where parsers stop, and the types they read

A parser that begins somewhere in a file stays in it. It stops at the next token, or at a number that it has
just taken and that does not fit. Each type in what it gives is spelled by tokens in a row. So each report
of a reader is the one that a new reader makes of a class that it refuses.
-/

namespace ClassCheck

open ClassCheck.Parser

/-- It is expected in the file, where these tokens are left. A number that does not fit is the last one that was
taken. -/
def Expected.StandsIn (file rest : List Token) : Expected → Prop
  | .smallNumber literal =>
    literal :: rest <:+ file ∧ literal.kind = .number ∧ Literal.read? literal.lexeme = none
  | _ => rest <:+ file

namespace Parser

variable {α β : Type} {file : List Token} {P : α → Prop} {Q : β → Prop}

/-! ## Staying in a file -/

/-- What comes out of a parser: a result with this property, or a stop. Both are in the file. -/
def Kept (file : List Token) (P : α → Prop) : Except Stop (α × List Token) → Prop
  | .ok (a, rest) => P a ∧ rest <:+ file
  | .error s => s.expected.StandsIn file s.rest

/-- Wherever in the file the parser begins, it stays there, and what it gives has this property. -/
def Keeps (file : List Token) (P : α → Prop) (p : Parser α) : Prop :=
  ∀ ⦃ts⦄, ts <:+ file → Kept file P (p ts)

abbrev Stays (file : List Token) (p : Parser α) : Prop := Keeps file (fun _ => True) p

theorem Kept.mono {P' : α → Prop} {x : Except Stop (α × List Token)} (h : Kept file P x)
    (hP : ∀ a rest, x = .ok (a, rest) → P a → P' a) : Kept file P' x := by
  cases x with
  | ok x => exact ⟨hP _ _ rfl h.1, h.2⟩
  | error s => exact h

theorem Keeps.mono {P' : α → Prop} {p : Parser α} (h : Keeps file P p) (hP : ∀ a, P a → P' a) :
    Keeps file P' p :=
  fun _ hts => (h hts).mono fun a _ _ => hP a

theorem Keeps.stays {p : Parser α} (h : Keeps file P p) : Stays file p :=
  h.mono fun _ _ => trivial

theorem Keeps.bind {p : Parser α} {f : α → Parser β} (hp : Keeps file P p)
    (hf : ∀ a, P a → Keeps file Q (f a)) : Keeps file Q (p >>= f) := by
  intro ts hts
  have hkept := hp hts
  cases hp : p ts with
  | error s =>
    rw [hp] at hkept
    rw [bind_of_error hp]
    exact hkept
  | ok x =>
    rw [hp] at hkept
    rw [bind_of_ok hp]
    exact hf x.1 hkept.1 hkept.2

theorem keeps_pure {a : α} (h : P a) : Keeps file P (pure a) := fun _ hts => ⟨h, hts⟩

theorem stays_takeIf (f : Token → Option α) : Stays file (takeIf? f) := by
  intro ts hts
  cases ts with
  | nil => exact ⟨trivial, hts⟩
  | cons t ts =>
    rw [takeIf?]
    split
    · exact ⟨trivial, (List.suffix_cons t ts).trans hts⟩
    · exact ⟨trivial, hts⟩

theorem keeps_accept_bind {kind : TokenKind} {f : Option Token → Parser β} (hnone : Keeps file Q (f none))
    (hsome : ∀ t, Keeps file Q (f (some t))) : Keeps file Q (accept kind >>= f) := by
  apply (stays_takeIf _).bind
  rintro (_ | t) -
  · exact hnone
  · exact hsome t

theorem keeps_expect_bind {kind : TokenKind} {what : String} {f : Token → Parser β}
    (hf : ∀ t, Keeps file Q (f t)) : Keeps file Q (expect kind what >>= f) := by
  have hexpect : Stays file (expect kind what) :=
    keeps_accept_bind (fun _ hts => hts) fun _ => keeps_pure trivial
  exact hexpect.bind fun t _ => hf t

theorem keeps_expectIdent_bind {what : String} {f : Ident → Parser β} (hf : ∀ i, Keeps file Q (f i)) :
    Keeps file Q (expectIdent what >>= f) := by
  have hexpect : Stays file (expectIdent what) :=
    keeps_accept_bind (fun _ hts => hts) fun _ => keeps_pure trivial
  exact hexpect.bind fun i _ => hf i

/-! ## Items in a row -/

theorem Keeps.manyWithin {item : Parser (Option α)} (h : Keeps file (fun a? => ∀ a ∈ a?, P a) item)
    (bound : Nat) : Keeps file (fun as => ∀ a ∈ as, P a) (manyWithin item bound) := by
  induction bound with
  | zero => exact keeps_pure (by simp)
  | succ bound ih =>
    apply h.bind
    rintro (_ | a) ha
    · exact keeps_pure (by simp)
    · apply ih.bind
      intro as has
      exact keeps_pure (List.forall_mem_cons.2 ⟨ha a rfl, has⟩)

theorem Keeps.many {item : Parser (Option α)} (h : Keeps file (fun a? => ∀ a ∈ a?, P a) item) :
    Keeps file (fun as => ∀ a ∈ as, P a) (many item) :=
  fun ts hts => h.manyWithin ts.length hts

theorem Stays.many {item : Parser (Option α)} (h : Stays file item) : Stays file (many item) :=
  (Keeps.many (P := fun _ => True) (h.mono fun _ _ _ _ => trivial)).stays

theorem Keeps.manyWhile {item : Parser α} (h : Keeps file P item) (more : List Token → Bool) :
    Keeps file (fun as => ∀ a ∈ as, P a) (manyWhile more item) := by
  apply Keeps.many
  intro ts hts
  dsimp only
  split
  · rw [map_eq_pure_bind]
    exact h.bind (fun a ha => keeps_pure (by simpa using ha)) hts
  · exact ⟨by simp, hts⟩

theorem Keeps.commaSeparated {item : Parser α} (h : Keeps file P item) :
    Keeps file (fun as => ∀ a ∈ as, P a) (commaSeparated item) := by
  apply h.bind
  intro first hfirst
  apply Keeps.bind (Keeps.many (P := P) ?_)
  · intro others hothers
    exact keeps_pure (List.forall_mem_cons.2 ⟨hfirst, hothers⟩)
  · apply keeps_accept_bind
    · exact keeps_pure (by simp)
    · intro _
      apply h.bind
      intro a ha
      exact keeps_pure (by simpa using ha)

end Parser

/-! ## Expressions -/

namespace Expr

variable {file : List Token} {nested : Parser Expr}

theorem stays_allocation (hn : Stays file nested) (start : Span) : Stays file (allocation nested start) := by
  apply keeps_accept_bind
  · refine keeps_expectIdent_bind fun className => ?_
    refine keeps_expect_bind fun _ => ?_
    exact keeps_expect_bind fun _ => keeps_pure trivial
  · intro _
    refine keeps_expect_bind fun _ => ?_
    apply hn.bind
    intro size _
    exact keeps_expect_bind fun _ => keeps_pure trivial

theorem stays_parenthesized (hn : Stays file nested) (start : Span) :
    Stays file (parenthesized nested start) := by
  apply hn.bind
  intro inner _
  exact keeps_expect_bind fun _ => keeps_pure trivial

theorem stays_primary (hn : Stays file nested) : Stays file (primary nested) := by
  intro ts hts
  cases ts with
  | nil => exact hts
  | cons t ts =>
    have hrest : ts <:+ file := (List.suffix_cons t ts).trans hts
    rw [primary]
    split
    · next ht =>
      split
      · exact ⟨trivial, hrest⟩
      · -- The stop is behind the number, which has been taken already.
        next hread => exact ⟨hts, ht, hread⟩
    · exact ⟨trivial, hrest⟩
    · exact ⟨trivial, hrest⟩
    · exact ⟨trivial, hrest⟩
    · exact ⟨trivial, hrest⟩
    · exact stays_allocation hn t.span hrest
    · exact stays_parenthesized hn t.span hrest
    · exact hts

theorem stays_arguments (hn : Stays file nested) : Stays file (arguments nested) := by
  intro ts hts
  unfold arguments
  split
  · exact ⟨trivial, hts⟩
  · exact hn.commaSeparated.stays hts

theorem stays_suffix (hn : Stays file nested) : Stays file (suffix? nested) := by
  apply keeps_accept_bind
  · apply keeps_accept_bind
    · exact keeps_pure trivial
    · intro _
      apply keeps_accept_bind
      · refine keeps_expectIdent_bind fun method => ?_
        refine keeps_expect_bind fun _ => ?_
        apply (stays_arguments hn).bind
        intro args _
        exact keeps_expect_bind fun _ => keeps_pure trivial
      · exact fun _ => keeps_pure trivial
  · intro _
    apply hn.bind
    intro position _
    exact keeps_expect_bind fun _ => keeps_pure trivial

theorem stays_access (hn : Stays file nested) : Stays file (access nested) := by
  apply (stays_primary hn).bind
  intro operand _
  apply (Stays.many (stays_suffix hn)).bind
  exact fun suffixes _ => keeps_pure trivial

theorem stays_negation (hn : Stays file nested) : Stays file (negation nested) := by
  intro ts hts
  induction ts with
  | nil => exact stays_access hn hts
  | cons t ts ih =>
    have hrest : ts <:+ file := (List.suffix_cons t ts).trans hts
    by_cases ht : t.kind = .bang
    · have hkept := ih hrest
      unfold negation
      rw [if_pos ht]
      cases ho : negation nested ts with
      | error s =>
        rw [ho] at hkept
        exact hkept
      | ok x =>
        rw [ho] at hkept
        exact ⟨trivial, hkept.2⟩
    · unfold negation
      rw [if_neg ht]
      exact stays_access hn hts

theorem stays_chain {operand : Parser Expr} (h : Stays file operand)
    (op? : TokenKind → Option BinaryOp) : Stays file (chain op? operand) := by
  apply h.bind
  intro first _
  apply Keeps.bind (Stays.many ?_)
  · exact fun others _ => keeps_pure trivial
  · apply (stays_takeIf _).bind
    rintro (_ | op) -
    · exact keeps_pure trivial
    · apply h.bind
      exact fun right _ => keeps_pure trivial

theorem stays_parseWithin (depth : Nat) : Stays file (parseWithin depth) := by
  induction depth with
  | zero => exact fun _ hts => hts
  | succ depth ih =>
    apply stays_chain
    apply stays_chain
    apply stays_chain
    apply stays_chain
    exact stays_negation ih

theorem stays_parse : Stays file parse := fun ts hts => stays_parseWithin (ts.length + 1) hts

end Expr

/-! ## Statements -/

namespace Stmt

variable {file : List Token} {nested : Parser Stmt}

theorem stays_sequence (hn : Stays file nested) (ends : List Token → Bool) :
    Stays file (sequence nested ends) :=
  (hn.manyWhile _).stays

theorem stays_blockBody (hn : Stays file nested) : Stays file (blockBody nested) := by
  apply (stays_sequence hn _).bind
  intro body _
  exact keeps_expect_bind fun _ => keeps_pure trivial

theorem stays_assignment (target : Ident) : Stays file (assignment target) := by
  apply keeps_accept_bind
  · refine keeps_expect_bind fun _ => ?_
    apply Expr.stays_parse.bind
    intro value _
    exact keeps_expect_bind fun _ => keeps_pure trivial
  · intro _
    apply Expr.stays_parse.bind
    intro position _
    refine keeps_expect_bind fun _ => ?_
    refine keeps_expect_bind fun _ => ?_
    apply Expr.stays_parse.bind
    intro value _
    exact keeps_expect_bind fun _ => keeps_pure trivial

theorem stays_conditional (hn : Stays file nested) : Stays file (conditional nested) := by
  refine keeps_expect_bind fun _ => ?_
  apply Expr.stays_parse.bind
  intro condition _
  refine keeps_expect_bind fun _ => ?_
  apply hn.bind
  intro thenBranch _
  refine keeps_expect_bind fun _ => ?_
  apply hn.bind
  exact fun elseBranch _ => keeps_pure trivial

theorem stays_whileLoop (hn : Stays file nested) : Stays file (whileLoop nested) := by
  refine keeps_expect_bind fun _ => ?_
  apply Expr.stays_parse.bind
  intro condition _
  refine keeps_expect_bind fun _ => ?_
  apply hn.bind
  exact fun body _ => keeps_pure trivial

theorem stays_printStmt : Stays file printStmt := by
  refine keeps_expect_bind fun _ => ?_
  apply Expr.stays_parse.bind
  intro value _
  refine keeps_expect_bind fun _ => ?_
  exact keeps_expect_bind fun _ => keeps_pure trivial

theorem stays_ofFirst (hn : Stays file nested) : Stays file (ofFirst nested) := by
  intro ts hts
  cases ts with
  | nil => exact hts
  | cons t ts =>
    have hrest : ts <:+ file := (List.suffix_cons t ts).trans hts
    rw [ofFirst]
    split
    · exact stays_blockBody hn hrest
    · exact stays_conditional hn hrest
    · exact stays_whileLoop hn hrest
    · exact stays_printStmt hrest
    · exact stays_assignment _ hrest
    · exact hts

theorem stays_parse : Stays file parse := by
  have hwithin : ∀ depth, Stays file (parseWithin depth) := by
    intro depth
    induction depth with
    | zero => exact fun _ hts => hts
    | succ depth ih => exact stays_ofFirst ih
  exact fun ts hts => hwithin (ts.length + 1) hts

end Stmt

/-! ## Types -/

theorem Span.merge_self (s : Span) : s.merge s = s := by
  simp [merge, stop]

namespace TypeRef

/-- The tokens say the type, and it stands where they stand. -/
structure Spells (us : List Token) (r : TypeRef) : Prop where
  said : Said us r
  span : ∃ first ∈ us.head?, ∃ last ∈ us.getLast?, r.span = first.span.merge last.span

def SpelledIn (ts : List Token) (r : TypeRef) : Prop := ∃ us, us <:+: ts ∧ Spells us r

theorem Spells.covers {us : List Token} {r : TypeRef} (h : Spells us r) (hus : InOrder us) :
    r.span.Covers us := by
  obtain ⟨first, hfirst, last, hlast, hspan⟩ := h.span
  have hhead : [first] <+: us := by
    obtain ⟨rest, rfl⟩ := List.head?_eq_some_iff.1 hfirst
    exact List.prefix_append [first] rest
  have hend : [last] <:+ us := by
    obtain ⟨front, rfl⟩ := List.getLast?_eq_some_iff.1 hlast
    exact List.suffix_append front [last]
  rw [hspan]
  exact (Span.Covers.singleton first).merge (Span.Covers.singleton last) hhead hend hus

theorem spells_parse : Reads parse Spells := by
  have hspan : Reads parse fun us r =>
      ∃ first ∈ us.head?, ∃ last ∈ us.getLast?, r.span = first.span.merge last.span := by
    intro ts r rest h
    cases ts with
    | nil => exact (fail_ne_ok h).elim
    | cons t ts =>
      have halone : ∃ first ∈ [t].head?, ∃ last ∈ [t].getLast?, t.span = first.span.merge last.span :=
        ⟨t, rfl, t, rfl, (Span.merge_self t.span).symm⟩
      rw [parse] at h
      split at h
      · obtain ⟨o?, mid, ho, hafter⟩ := bind_ok.1 h
        cases o? with
        | none =>
          obtain ⟨rfl, -⟩ := accept_none.1 ho
          obtain ⟨rfl, rfl⟩ := pure_ok.1 hafter
          exact ⟨[t], rfl, halone⟩
        | some o =>
          obtain ⟨rfl, -⟩ := accept_some.1 ho
          obtain ⟨c, mid, hc, hend⟩ := bind_ok.1 hafter
          obtain ⟨rfl, -⟩ := expect_ok.1 hc
          obtain ⟨rfl, rfl⟩ := pure_ok.1 hend
          exact ⟨[t, o, c], rfl, t, rfl, c, rfl, rfl⟩
      · cases h
        exact ⟨[t], rfl, halone⟩
      · cases h
        exact ⟨[t], rfl, halone⟩
      · exact (fail_ne_ok h).elim
  exact (reads_parse.and hspan).mono fun us r h => ⟨h.1, h.2⟩

variable {file : List Token}

theorem stays_parse : Stays file parse := by
  intro ts hts
  cases ts with
  | nil => exact hts
  | cons t ts =>
    have hrest : ts <:+ file := (List.suffix_cons t ts).trans hts
    rw [parse]
    split
    · refine keeps_accept_bind ?_ ?_ hrest
      · exact keeps_pure trivial
      · exact fun _ => keeps_expect_bind fun _ => keeps_pure trivial
    · exact ⟨trivial, hrest⟩
    · exact ⟨trivial, hrest⟩
    · exact hts

theorem keeps_parse : Keeps file (SpelledIn file) parse := by
  intro ts hts
  apply (stays_parse hts).mono
  intro r rest h _
  obtain ⟨us, rfl, hspells⟩ := spells_parse h
  exact ⟨us, (List.prefix_append us rest).isInfix.trans hts.isInfix, hspells⟩

end TypeRef

/-! ## Declarations -/

/-- Each of the types is spelled by tokens of the file. -/
def TypesIn (file : List Token) (types : List TypeRef) : Prop := ∀ r ∈ types, TypeRef.SpelledIn file r

variable {file : List Token}

namespace VarDecl

theorem keeps_parse (what : String) :
    Keeps file (fun d => TypeRef.SpelledIn file d.type) (parse what) := by
  apply TypeRef.keeps_parse.bind
  intro type htype
  exact keeps_expectIdent_bind fun name => keeps_pure htype

theorem keeps_parseAll : Keeps file (fun ds => TypesIn file (ds.map VarDecl.type)) parseAll := by
  have hended : Keeps file (fun d => TypeRef.SpelledIn file d.type) parseEnded := by
    apply (keeps_parse _).bind
    intro d hd
    exact keeps_expect_bind fun _ => keeps_pure hd
  exact (hended.manyWhile startsAt).mono fun _ => List.forall_mem_map.2

theorem keeps_parseParams : Keeps file (fun ds => TypesIn file (ds.map VarDecl.type)) parseParams := by
  intro ts hts
  rw [parseParams]
  split
  · exact ⟨List.forall_mem_nil _, hts⟩
  · exact ((keeps_parse _).commaSeparated.mono fun _ => List.forall_mem_map.2) hts

end VarDecl

theorem MethodDecl.keeps_parse : Keeps file (fun d => TypesIn file d.typeRefs) parse := by
  refine keeps_expect_bind fun _ => ?_
  apply TypeRef.keeps_parse.bind
  intro returnType htype
  refine keeps_expectIdent_bind fun name => ?_
  refine keeps_expect_bind fun _ => ?_
  apply VarDecl.keeps_parseParams.bind
  intro params hparams
  refine keeps_expect_bind fun _ => ?_
  refine keeps_expect_bind fun _ => ?_
  apply VarDecl.keeps_parseAll.bind
  intro locals hlocals
  apply (Stmt.stays_sequence Stmt.stays_parse _).bind
  intro body _
  refine keeps_expect_bind fun _ => ?_
  apply Expr.stays_parse.bind
  intro returned _
  refine keeps_expect_bind fun _ => ?_
  refine keeps_expect_bind fun _ => ?_
  apply keeps_pure
  exact List.forall_mem_cons.2 ⟨htype, List.forall_mem_append.2 ⟨hparams, hlocals⟩⟩

theorem ClassDecl.stays_superclass : Stays file superclass? := by
  apply keeps_accept_bind
  · exact keeps_pure trivial
  · exact fun _ => keeps_expectIdent_bind fun _ => keeps_pure trivial

theorem ClassDecl.keeps_parse : Keeps file (fun d => TypesIn file d.typeRefs) parse := by
  refine keeps_expect_bind fun _ => ?_
  refine keeps_expectIdent_bind fun name => ?_
  apply stays_superclass.bind
  intro superclass _
  refine keeps_expect_bind fun _ => ?_
  apply VarDecl.keeps_parseAll.bind
  intro fields hfields
  apply (MethodDecl.keeps_parse.manyWhile _).bind
  intro methods hmethods
  refine keeps_expect_bind fun _ => ?_
  apply keeps_pure
  exact List.forall_mem_append.2 ⟨hfields, List.forall_mem_flatMap.2 hmethods⟩

theorem MainClass.keeps_parse : Keeps file (fun d => TypesIn file d.typeRefs) parse := by
  refine keeps_expect_bind fun _ => ?_
  refine keeps_expectIdent_bind fun name => ?_
  refine keeps_expect_bind fun _ => ?_
  -- The words of `public static void main(String[]`.
  refine keeps_expect_bind fun _ => ?_
  refine keeps_expect_bind fun _ => ?_
  refine keeps_expect_bind fun _ => ?_
  refine keeps_expect_bind fun _ => ?_
  refine keeps_expect_bind fun _ => ?_
  refine keeps_expect_bind fun _ => ?_
  refine keeps_expect_bind fun _ => ?_
  refine keeps_expect_bind fun _ => ?_
  refine keeps_expectIdent_bind fun args => ?_
  refine keeps_expect_bind fun _ => ?_
  refine keeps_expect_bind fun _ => ?_
  apply VarDecl.keeps_parseAll.bind
  intro locals hlocals
  apply (Stmt.stays_sequence Stmt.stays_parse _).bind
  intro body _
  refine keeps_expect_bind fun _ => ?_
  exact keeps_expect_bind fun _ => keeps_pure hlocals

/-! ## Readers -/

/-- The next of the tokens that are left, or the number that was rejected. -/
def Expected.tokenAt (endOfFile : Token) (rest : List Token) : Expected → Token
  | .smallNumber literal => literal
  | _ => rest.headD endOfFile

theorem Expected.StandsIn.tokenAt_mem {expected : Expected} {rest : List Token} (h : expected.StandsIn file rest)
    (endOfFile : Token) : expected.tokenAt endOfFile rest ∈ file ++ [endOfFile] := by
  unfold StandsIn at h
  unfold tokenAt
  split at h
  · exact List.mem_append_left _ (h.1.mem List.mem_cons_self)
  · cases rest with
    | nil => exact List.mem_append_right _ List.mem_cons_self
    | cons t rest => exact List.mem_append_left _ (h.mem List.mem_cons_self)

theorem Expected.StandsIn.suffix {expected : Expected} {rest : List Token} (h : expected.StandsIn file rest) :
    rest <:+ file := by
  unfold StandsIn at h
  split at h
  · exact (List.suffix_cons _ _).trans h.1
  · exact h

/-- The report is the only one that a new reader makes when it refuses the main class, which is read first, or a
class further on. It is about the token where this reader is then, or about a number that it rejected. -/
def SyntaxError.Reports (file : List Token) (endOfFile : Token) (e : SyntaxError) : Prop :=
  ∃ r : Reader,
    (Routine.mainClass { rest := file, stop := endOfFile } = (none, r) ∨
      ∃ ts, ts <:+ file ∧ Routine.classDecl { rest := ts, stop := endOfFile } = (none, r)) ∧
    r.errors = [e] ∧ e.expected.StandsIn file r.rest ∧ e.found = e.expected.tokenAt endOfFile r.rest

theorem SyntaxError.Reports.found_mem {endOfFile : Token} {e : SyntaxError} (h : e.Reports file endOfFile) :
    e.found ∈ file ++ [endOfFile] := by
  obtain ⟨r, -, -, hstands, hfound⟩ := h
  rw [hfound]
  exact hstands.tokenAt_mem endOfFile

theorem Refines.exists_refusal {α : Type} {x : Routine α} {p : Parser α} {ts : List Token} {s : Stop}
    (hx : Refines x p) (endOfFile : Token) (h : p ts = .error s) :
    ∃ r : Reader, x { rest := ts, stop := endOfFile } = (none, r) ∧
      r.errors = [⟨s.expected, s.expected.tokenAt endOfFile s.rest⟩] ∧ r.rest = s.rest := by
  refine ⟨_, (hx _).trans (Reader.read_of_error h), ?_, Reader.rest_note _ s⟩
  obtain ⟨expected, rest⟩ := s
  cases expected <;> rfl

namespace Reader

/-- The reader is in the file, and each of its reports is made by a new reader too. -/
structure ReadsFrom (file : List Token) (endOfFile : Token) (r : Reader) : Prop where
  rest : r.rest <:+ file
  stop : r.stop = endOfFile
  errors : ∀ e ∈ r.errors, e.Reports file endOfFile

variable {endOfFile : Token} {r : Reader}

namespace ReadsFrom

theorem recover (h : r.ReadsFrom file endOfFile) : r.recover.ReadsFrom file endOfFile :=
  ⟨(List.dropWhile_suffix _).trans h.rest, h.stop, h.errors⟩

theorem note {s : Stop} (h : r.ReadsFrom file endOfFile) (hrest : s.rest <:+ file)
    (hs : SyntaxError.Reports file endOfFile ⟨s.expected, s.expected.tokenAt endOfFile s.rest⟩) :
    (r.note s).ReadsFrom file endOfFile := by
  have hfound : r.found s = s.expected.tokenAt endOfFile s.rest := by rw [← h.stop]; rfl
  have hnew : ∀ e ∈ r.errors ++ [⟨s.expected, r.found s⟩], e.Reports file endOfFile := by
    rw [hfound]
    exact List.forall_mem_append.2 ⟨h.errors, List.forall_mem_singleton.2 hs⟩
  unfold Reader.note
  split
  · exact ⟨hrest, h.stop, hnew⟩
  · split
    · exact ⟨hrest, h.stop, h.errors⟩
    · exact ⟨hrest, h.stop, hnew⟩

theorem attempt {α : Type} {P : α → Prop} {p : Parser α} (h : r.ReadsFrom file endOfFile)
    (hp : Keeps file P p)
    (hstop : ∀ s, p r.rest = .error s → s.expected.StandsIn file s.rest →
      SyntaxError.Reports file endOfFile ⟨s.expected, s.expected.tokenAt endOfFile s.rest⟩) :
    (∀ a ∈ (r.attempt p).1, P a) ∧ (r.attempt p).2.ReadsFrom file endOfFile := by
  have hkept := hp h.rest
  cases hparse : p r.rest with
  | ok x =>
    rw [hparse] at hkept
    rw [attempt_of_ok hparse]
    exact ⟨by simpa using hkept.1, hkept.2, h.stop, h.errors⟩
  | error s =>
    rw [hparse] at hkept
    rw [attempt_of_error hparse]
    exact ⟨by simp, (h.note hkept.suffix (hstop s hparse hkept)).recover⟩

theorem readClassesWithin (bound : Nat) (h : r.ReadsFrom file endOfFile) :
    (∀ d ∈ (readClassesWithin bound r).1, TypesIn file d.typeRefs) ∧
      (readClassesWithin bound r).2.ReadsFrom file endOfFile := by
  induction bound generalizing r with
  | zero => exact ⟨List.forall_mem_nil _, h⟩
  | succ bound ih =>
    rw [Reader.readClassesWithin]
    split
    · exact ⟨List.forall_mem_nil _, h⟩
    · have hattempt := h.attempt ClassDecl.keeps_parse fun s hs hstands => by
        obtain ⟨r', hrefuses, herrors, hrest⟩ := Routine.refines_classDecl.exists_refusal endOfFile hs
        rw [← hrest] at hstands herrors ⊢
        exact ⟨r', .inr ⟨r.rest, h.rest, hrefuses⟩, herrors, hstands, rfl⟩
      rw [← readClass_eq_attempt] at hattempt
      obtain ⟨hclasses, hend⟩ := ih hattempt.2
      refine ⟨List.forall_mem_append.2 ⟨?_, hclasses⟩, hend⟩
      simpa using hattempt.1

end ReadsFrom

theorem readsFrom_readProgram (hnew : r.errors = []) :
    (∀ p ∈ r.readProgram.1, TypesIn r.rest p.typeRefs) ∧ r.readProgram.2.ReadsFrom r.rest r.stop := by
  have hstart : r.ReadsFrom r.rest r.stop := ⟨List.suffix_refl _, rfl, by simp [hnew]⟩
  obtain ⟨hmain, hread⟩ := hstart.attempt MainClass.keeps_parse fun s hs hstands => by
    obtain ⟨r', hrefuses, herrors, hrest⟩ := Routine.refines_mainClass.exists_refusal r.stop hs
    rw [← hrest] at hstands herrors ⊢
    exact ⟨r', .inl hrefuses, herrors, hstands, rfl⟩
  obtain ⟨hclasses, hend⟩ := hread.readClassesWithin (r.attempt MainClass.parse).2.rest.length
  rw [readProgram_eq]
  refine ⟨fun p hp => ?_, hend⟩
  obtain ⟨main, hsome, rfl⟩ := Option.map_eq_some_iff.1 hp
  exact List.forall_mem_append.2 ⟨hmain main hsome, List.forall_mem_flatMap.2 hclasses⟩

end Reader

end ClassCheck
