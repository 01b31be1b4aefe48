import ClassCheck.Proofs.Parser.Refines
import ClassCheck.Proofs.Grammar.Completeness
import ClassCheck.Proofs.Grammar.Locality

/-!
# Reading does not depend on where the tokens stand

Places can be forgotten before reading or after it. Parsers look at the kinds and lexemes of tokens, and what
they take from a token's place only goes into the tree, or into the error.
-/

namespace ClassCheck

open ClassCheck.Parser

/-! ## Forgetting places -/

def Token.bare (t : Token) : Token := ⟨t.kind, t.lexeme, 0, 0⟩

@[simp] theorem Token.kind_bare (t : Token) : t.bare.kind = t.kind := rfl

@[simp] theorem Token.lexeme_bare (t : Token) : t.bare.lexeme = t.lexeme := rfl

@[simp] theorem Token.span_bare (t : Token) : t.bare.span = .nowhere := rfl

def Expected.bare : Expected → Expected
  | .smallNumber literal => .smallNumber literal.bare
  | expected => expected

def Stop.bare (s : Stop) : Stop := ⟨s.expected.bare, s.rest.map Token.bare⟩

namespace Parser

variable {α β γ δ : Type} {f : α → β} {g : γ → δ}

@[simp] theorem ahead_bare (kind : TokenKind) (ts : List Token) :
    ahead kind (ts.map Token.bare) = ahead kind ts := by
  cases ts <;> rfl

/-- What a parser comes out with, its places forgotten. `f` forgets those of what was read. -/
def bareOutcome (f : α → β) : Except Stop (α × List Token) → Except Stop (β × List Token)
  | .ok (a, rest) => .ok (f a, rest.map Token.bare)
  | .error s => .error s.bare

/-- The second parser does with bare tokens what the first one does with tokens. -/
def Bares (f : α → β) (p : Parser α) (q : Parser β) : Prop :=
  ∀ ts, q (ts.map Token.bare) = bareOutcome f (p ts)

/-! ## The parts of a parser -/

theorem bares_pure {a : α} {b : β} (h : b = f a) : Bares f (pure a) (pure b) := by
  intro ts
  rw [h]
  rfl

theorem bares_fail {expected expected' : Expected} (h : expected' = expected.bare) :
    Bares f (fail expected) (fail expected') := by
  intro ts
  rw [h]
  rfl

theorem Bares.bind {p : Parser α} {q : Parser β} {k : α → Parser γ} {l : β → Parser δ}
    (h : Bares f p q) (hk : ∀ a, Bares g (k a) (l (f a))) : Bares g (p >>= k) (q >>= l) := by
  intro ts
  have hts := h ts
  cases hp : p ts with
  | error s =>
    rw [hp] at hts
    rw [bind_of_error hp, bind_of_error hts]
    rfl
  | ok x =>
    rw [hp] at hts
    rw [bind_of_ok hp, bind_of_ok hts, hk]

theorem Bares.some {p : Parser α} {q : Parser β} (h : Bares f p q) :
    Bares (Option.map f) (some <$> p) (some <$> q) := by
  rw [map_eq_pure_bind, map_eq_pure_bind]
  exact h.bind fun a => bares_pure rfl

theorem bares_takeIf? {find : Token → Option α} {find' : Token → Option β}
    (h : ∀ t, find' t.bare = (find t).map f) : Bares (Option.map f) (takeIf? find) (takeIf? find') := by
  intro ts
  cases ts with
  | nil => rfl
  | cons t ts =>
    rw [List.map_cons, takeIf?, takeIf?, h]
    cases find t <;> rfl

theorem bares_accept (kind : TokenKind) : Bares (Option.map Token.bare) (accept kind) (accept kind) := by
  refine bares_takeIf? fun t => ?_
  rw [Token.kind_bare]
  split <;> rfl

theorem bares_expect (kind : TokenKind) (what : String) :
    Bares Token.bare (expect kind what) (expect kind what) := by
  refine (bares_accept kind).bind ?_
  rintro (_ | t)
  · exact bares_fail rfl
  · exact bares_pure rfl

theorem bares_expectIdent (what : String) : Bares Ident.bare (expectIdent what) (expectIdent what) := by
  refine (bares_accept .identifier).bind ?_
  rintro (_ | t)
  · exact bares_fail rfl
  · exact bares_pure rfl

theorem Bares.manyWithin {item : Parser (Option α)} {item' : Parser (Option β)}
    (h : Bares (Option.map f) item item') (bound : Nat) :
    Bares (List.map f) (manyWithin item bound) (manyWithin item' bound) := by
  induction bound with
  | zero => exact bares_pure rfl
  | succ bound ih =>
    refine h.bind ?_
    rintro (_ | a)
    · exact bares_pure rfl
    · exact ih.bind fun as => bares_pure rfl

/-- There are as many bare tokens as tokens, so the loops have the same bound. -/
theorem Bares.many {item : Parser (Option α)} {item' : Parser (Option β)}
    (h : Bares (Option.map f) item item') : Bares (List.map f) (many item) (many item') := by
  intro ts
  rw [Parser.many, Parser.many, List.length_map]
  exact h.manyWithin ts.length ts

theorem Bares.manyWhile {more : List Token → Bool} {item : Parser α} {item' : Parser β}
    (hmore : ∀ ts, more (ts.map Token.bare) = more ts) (h : Bares f item item') :
    Bares (List.map f) (manyWhile more item) (manyWhile more item') := by
  refine Bares.many fun ts => ?_
  rw [hmore]
  split
  · exact h.some ts
  · rfl

theorem Bares.commaSeparated {item : Parser α} {item' : Parser β} (h : Bares f item item') :
    Bares (List.map f) (commaSeparated item) (commaSeparated item') := by
  refine h.bind fun first => ?_
  refine Bares.bind (Bares.many ?_) fun others => bares_pure rfl
  refine (bares_accept .comma).bind ?_
  rintro (_ | t)
  · exact bares_pure rfl
  · exact h.bind fun a => bares_pure rfl

theorem Bares.unlessClosed {item : Parser α} {item' : Parser β} (h : Bares f item item') :
    Bares (List.map f)
      (fun ts => if ahead .rightParen ts then .ok ([], ts) else Parser.commaSeparated item ts)
      (fun ts => if ahead .rightParen ts then .ok ([], ts) else Parser.commaSeparated item' ts) := by
  intro ts
  dsimp only
  rw [ahead_bare]
  split
  · rfl
  · exact h.commaSeparated ts

end Parser

/-! ## Expressions -/

namespace Expr

variable {nested : Parser Expr}

theorem bares_allocation (h : Bares bare nested nested) (start : Span) :
    Bares bare (allocation nested start) (allocation nested .nowhere) := by
  refine (bares_accept .int).bind ?_
  rintro (_ | t)
  · refine (bares_expectIdent _).bind fun className => ?_
    refine (bares_expect _ _).bind fun _ => ?_
    exact (bares_expect _ _).bind fun close => bares_pure rfl
  · refine (bares_expect _ _).bind fun _ => ?_
    refine h.bind fun size => ?_
    exact (bares_expect _ _).bind fun close => bares_pure rfl

theorem bares_parenthesized (h : Bares bare nested nested) (start : Span) :
    Bares bare (parenthesized nested start) (parenthesized nested .nowhere) := by
  refine h.bind fun inner => ?_
  exact (bares_expect _ _).bind fun close => bares_pure rfl

theorem bares_primary (h : Bares bare nested nested) : Bares bare (primary nested) (primary nested) := by
  intro ts
  cases ts with
  | nil => rfl
  | cons t ts =>
    rw [List.map_cons, primary, primary, Token.kind_bare, Token.lexeme_bare]
    generalize t.kind = kind
    cases kind with
    | number =>
      dsimp only
      cases Literal.read? t.lexeme <;> rfl
    | newWord => exact bares_allocation h t.span ts
    | leftParen => exact bares_parenthesized h t.span ts
    | _ => rfl

theorem attach_bare (e : Expr) (s : Suffix) : attach e.bare s.bare = (attach e s).bare := by
  cases s <;> simp [attach, Suffix.bare, bare]

theorem foldl_attach_bare (ss : List Suffix) (e : Expr) :
    (ss.map Suffix.bare).foldl attach e.bare = (ss.foldl attach e).bare := by
  induction ss generalizing e with
  | nil => rfl
  | cons s ss ih => rw [List.map_cons, List.foldl_cons, List.foldl_cons, attach_bare, ih]

theorem bares_suffix? (h : Bares bare nested nested) :
    Bares (Option.map Suffix.bare) (suffix? nested) (suffix? nested) := by
  refine (bares_accept .leftBracket).bind ?_
  rintro (_ | t)
  · refine (bares_accept .dot).bind ?_
    rintro (_ | t)
    · exact bares_pure rfl
    · refine (bares_accept .lengthWord).bind ?_
      rintro (_ | word)
      · refine (bares_expectIdent _).bind fun method => ?_
        refine (bares_expect _ _).bind fun _ => ?_
        refine h.unlessClosed.bind fun args => ?_
        exact (bares_expect _ _).bind fun close => bares_pure rfl
      · exact bares_pure rfl
  · refine h.bind fun position => ?_
    exact (bares_expect _ _).bind fun close => bares_pure rfl

theorem bares_access (h : Bares bare nested nested) : Bares bare (access nested) (access nested) := by
  refine (bares_primary h).bind fun operand => ?_
  refine (bares_suffix? h).many.bind fun suffixes => ?_
  exact bares_pure (foldl_attach_bare suffixes operand)

theorem bares_negation (h : Bares bare nested nested) :
    Bares bare (negation nested) (negation nested) := by
  intro ts
  -- `negation` calls itself on the rest of the tokens, so the induction is over them.
  induction ts with
  | nil => exact bares_access h []
  | cons t ts ih =>
    rw [List.map_cons, negation, negation, Token.kind_bare]
    split
    · rw [ih]
      cases negation nested ts with
      | error s => rfl
      | ok x => exact congrArg Except.ok (by simp [bare])
    · exact bares_access h (t :: ts)

theorem foldl_join_bare (others : List (BinaryOp × Expr)) (first : Expr) :
    (others.map fun x => (x.1, x.2.bare)).foldl (fun left x => join left x.1 x.2) first.bare =
      (others.foldl (fun left x => join left x.1 x.2) first).bare := by
  induction others generalizing first with
  | nil => rfl
  | cons x others ih =>
    have hjoin : join first.bare x.1 x.2.bare = (join first x.1 x.2).bare := by
      simp [join, bare]
    rw [List.map_cons, List.foldl_cons, List.foldl_cons, hjoin, ih]

theorem bares_chain (op? : TokenKind → Option BinaryOp) {operand : Parser Expr}
    (h : Bares bare operand operand) : Bares bare (chain op? operand) (chain op? operand) := by
  refine h.bind fun first => ?_
  refine Bares.bind (f := List.map fun x => (x.1, x.2.bare)) (Bares.many ?_) fun others => ?_
  · refine (bares_takeIf? (f := id) fun t => by simp).bind ?_
    rintro (_ | op)
    · exact bares_pure rfl
    · exact h.bind fun right => bares_pure rfl
  · exact bares_pure (foldl_join_bare others first)

theorem bares_conjunction (h : Bares bare nested nested) :
    Bares bare (conjunction nested) (conjunction nested) :=
  bares_chain _ (bares_chain _ (bares_chain _ (bares_chain _ (bares_negation h))))

theorem bares_parseWithin (depth : Nat) : Bares bare (parseWithin depth) (parseWithin depth) := by
  induction depth with
  | zero => exact bares_fail rfl
  | succ depth ih => exact bares_conjunction ih

theorem bares_parse : Bares bare parse parse := by
  intro ts
  rw [parse, parse, List.length_map]
  exact bares_parseWithin _ ts

end Expr

/-! ## Statements -/

namespace Stmt

variable {nested : Parser Stmt}

theorem bares_sequence (h : Bares bare nested nested) {ends : List Token → Bool}
    (hends : ∀ ts, ends (ts.map Token.bare) = ends ts) :
    Bares (List.map bare) (sequence nested ends) (sequence nested ends) := by
  refine h.manyWhile fun ts => ?_
  rw [hends, List.isEmpty_map]

theorem bares_blockBody (h : Bares bare nested nested) :
    Bares bare (blockBody nested) (blockBody nested) := by
  refine (bares_sequence h (ahead_bare _)).bind fun body => ?_
  refine (bares_expect _ _).bind fun _ => bares_pure ?_
  rw [bare, bareAll_eq]

theorem bares_assignment (target : Ident) : Bares bare (assignment target) (assignment target.bare) := by
  refine (bares_accept .leftBracket).bind ?_
  rintro (_ | t)
  · refine (bares_expect _ _).bind fun _ => ?_
    refine Expr.bares_parse.bind fun value => ?_
    exact (bares_expect _ _).bind fun _ => bares_pure rfl
  · refine Expr.bares_parse.bind fun position => ?_
    refine (bares_expect _ _).bind fun _ => ?_
    refine (bares_expect _ _).bind fun _ => ?_
    refine Expr.bares_parse.bind fun value => ?_
    exact (bares_expect _ _).bind fun _ => bares_pure rfl

theorem bares_conditional (h : Bares bare nested nested) :
    Bares bare (conditional nested) (conditional nested) := by
  refine (bares_expect _ _).bind fun _ => ?_
  refine Expr.bares_parse.bind fun condition => ?_
  refine (bares_expect _ _).bind fun _ => ?_
  refine h.bind fun thenBranch => ?_
  refine (bares_expect _ _).bind fun _ => ?_
  exact h.bind fun elseBranch => bares_pure rfl

theorem bares_whileLoop (h : Bares bare nested nested) :
    Bares bare (whileLoop nested) (whileLoop nested) := by
  refine (bares_expect _ _).bind fun _ => ?_
  refine Expr.bares_parse.bind fun condition => ?_
  refine (bares_expect _ _).bind fun _ => ?_
  exact h.bind fun body => bares_pure rfl

theorem bares_printStmt : Bares bare printStmt printStmt := by
  refine (bares_expect _ _).bind fun _ => ?_
  refine Expr.bares_parse.bind fun value => ?_
  refine (bares_expect _ _).bind fun _ => ?_
  exact (bares_expect _ _).bind fun _ => bares_pure rfl

theorem bares_ofFirst (h : Bares bare nested nested) : Bares bare (ofFirst nested) (ofFirst nested) := by
  intro ts
  cases ts with
  | nil => rfl
  | cons t ts =>
    rw [List.map_cons, ofFirst, ofFirst, Token.kind_bare]
    generalize t.kind = kind
    cases kind with
    | leftBrace => exact bares_blockBody h ts
    | ifWord => exact bares_conditional h ts
    | whileWord => exact bares_whileLoop h ts
    | print => exact bares_printStmt ts
    | identifier => exact bares_assignment ⟨t.lexeme, t.span⟩ ts
    | _ => rfl

theorem bares_parseWithin (depth : Nat) : Bares bare (parseWithin depth) (parseWithin depth) := by
  induction depth with
  | zero => exact bares_fail rfl
  | succ depth ih => exact bares_ofFirst ih

theorem bares_parse : Bares bare parse parse := by
  intro ts
  rw [parse, parse, List.length_map]
  exact bares_parseWithin _ ts

end Stmt

/-! ## Declarations -/

theorem TypeRef.bares_parse : Bares bare parse parse := by
  intro ts
  cases ts with
  | nil => rfl
  | cons t ts =>
    rw [List.map_cons, parse, parse, Token.kind_bare]
    generalize t.kind = kind
    cases kind with
    | int =>
      refine Bares.bind (bares_accept .leftBracket) ?_ ts
      rintro (_ | t')
      · exact bares_pure rfl
      · exact (bares_expect _ _).bind fun close => bares_pure rfl
    | _ => rfl

namespace VarDecl

theorem startsAt_bare (ts : List Token) : startsAt (ts.map Token.bare) = startsAt ts := by
  cases ts with
  | nil => rfl
  | cons t ts => rw [List.map_cons, startsAt, startsAt, ahead_bare, Token.kind_bare]

theorem bares_parse (what : String) : Bares bare (parse what) (parse what) := by
  refine TypeRef.bares_parse.bind fun type => ?_
  exact (bares_expectIdent _).bind fun name => bares_pure rfl

theorem bares_parseAll : Bares (List.map bare) parseAll parseAll := by
  refine Bares.manyWhile startsAt_bare ?_
  refine (bares_parse _).bind fun decl => ?_
  exact (bares_expect _ _).bind fun _ => bares_pure rfl

end VarDecl

theorem MethodDecl.bares_parse : Bares bare parse parse := by
  refine (bares_expect _ _).bind fun _ => ?_
  refine TypeRef.bares_parse.bind fun returnType => ?_
  refine (bares_expectIdent _).bind fun name => ?_
  refine (bares_expect _ _).bind fun _ => ?_
  refine (VarDecl.bares_parse _).unlessClosed.bind fun params => ?_
  refine (bares_expect _ _).bind fun _ => ?_
  refine (bares_expect _ _).bind fun _ => ?_
  refine VarDecl.bares_parseAll.bind fun locals => ?_
  refine (Stmt.bares_sequence Stmt.bares_parse (by simp)).bind fun body => ?_
  refine (bares_expect _ _).bind fun _ => ?_
  refine Expr.bares_parse.bind fun returned => ?_
  refine (bares_expect _ _).bind fun _ => ?_
  exact (bares_expect _ _).bind fun _ => bares_pure rfl

theorem ClassDecl.bares_superclass? :
    Bares (Option.map Ident.bare) superclass? superclass? := by
  refine (bares_accept _).bind ?_
  rintro (_ | t)
  · exact bares_pure rfl
  · exact (bares_expectIdent _).bind fun parent => bares_pure rfl

theorem ClassDecl.bares_parse : Bares bare parse parse := by
  refine (bares_expect _ _).bind fun _ => ?_
  refine (bares_expectIdent _).bind fun name => ?_
  refine bares_superclass?.bind fun parent => ?_
  refine (bares_expect _ _).bind fun _ => ?_
  refine VarDecl.bares_parseAll.bind fun fields => ?_
  refine (MethodDecl.bares_parse.manyWhile (ahead_bare _)).bind fun methods => ?_
  exact (bares_expect _ _).bind fun _ => bares_pure rfl

theorem MainClass.bares_parse : Bares bare parse parse := by
  refine (bares_expect _ _).bind fun _ => ?_
  refine (bares_expectIdent _).bind fun name => ?_
  refine (bares_expect _ _).bind fun _ => ?_
  refine (bares_expect _ _).bind fun _ => ?_
  refine (bares_expect _ _).bind fun _ => ?_
  refine (bares_expect _ _).bind fun _ => ?_
  refine (bares_expect _ _).bind fun _ => ?_
  refine (bares_expect _ _).bind fun _ => ?_
  refine (bares_expect _ _).bind fun _ => ?_
  refine (bares_expect _ _).bind fun _ => ?_
  refine (bares_expect _ _).bind fun _ => ?_
  refine (bares_expectIdent _).bind fun args => ?_
  refine (bares_expect _ _).bind fun _ => ?_
  refine (bares_expect _ _).bind fun _ => ?_
  refine VarDecl.bares_parseAll.bind fun locals => ?_
  refine (Stmt.bares_sequence Stmt.bares_parse (ahead_bare _)).bind fun body => ?_
  refine (bares_expect _ _).bind fun _ => ?_
  exact (bares_expect _ _).bind fun _ => bares_pure rfl

/-! ## Whole programs -/

def SyntaxError.bare (e : SyntaxError) : SyntaxError := ⟨e.expected.bare, e.found.bare⟩

namespace Reader

def bare (r : Reader) : Reader where
  rest := r.rest.map Token.bare
  stop := r.stop.bare
  lost := r.lost
  errors := r.errors.map SyntaxError.bare

theorem ofTokens_bare (ts : List Token) : ofTokens (ts.map Token.bare) = (ofTokens ts).bare := by
  have hstop : (ofTokens (ts.map Token.bare)).stop = (ofTokens ts).stop.bare := by
    simp only [ofTokens, List.find?_map, List.getLast?_map, Option.map_map, Function.comp_def,
      Token.kind_bare]
    cases ts.find? (·.kind == .endOfFile) with
    | some t => rfl
    | none => cases ts.getLast? <;> rfl
  have hrest : (ofTokens (ts.map Token.bare)).rest = (ofTokens ts).rest.map Token.bare := by
    simp only [ofTokens, List.takeWhile_map, Function.comp_def, Token.kind_bare]
  simp only [bare, ← hstop, ← hrest]
  rfl

theorem found_bare (r : Reader) (s : Stop) : r.bare.found s.bare = (r.found s).bare := by
  rcases s with ⟨expected, rest⟩
  cases expected <;> cases rest <;> rfl

theorem note_bare (r : Reader) (s : Stop) : r.bare.note s.bare = (r.note s).bare := by
  have hfound := found_bare r s
  rcases s with ⟨expected, rest⟩
  rcases r with ⟨ts, stop, _ | _, errors⟩
  · cases expected <;> simp_all [note, bare, Stop.bare, Expected.bare, SyntaxError.bare]
  · -- A reader that is lost only takes note of numbers that do not fit.
    cases expected with
    | smallNumber literal => simp_all [note, bare, Stop.bare, Expected.bare, SyntaxError.bare]
    | _ => rfl

theorem read_bare {α β : Type} {f : α → β} {p : Parser α} {q : Parser β} (h : Bares f p q)
    (r : Reader) : r.bare.read q = ((r.read p).1.map f, (r.read p).2.bare) := by
  have hrest : q r.bare.rest = bareOutcome f (p r.rest) := h r.rest
  rw [read, read, hrest]
  cases p r.rest with
  | error s => exact congrArg (Prod.mk none) (note_bare r s)
  | ok x => rfl

theorem recover_bare (r : Reader) : r.bare.recover = r.recover.bare := by
  simp only [recover, bare, List.dropWhile_map, Function.comp_def, Token.kind_bare]

theorem readClass_bare (r : Reader) :
    r.bare.readClass = (r.readClass.1.map ClassDecl.bare, r.readClass.2.bare) := by
  rw [readClass_eq_attempt, readClass_eq_attempt, attempt, attempt, read_bare ClassDecl.bares_parse]
  rcases r.read ClassDecl.parse with ⟨_ | c, r'⟩
  · exact congrArg (Prod.mk none) (recover_bare r')
  · rfl

theorem readClassesWithin_bare (bound : Nat) (r : Reader) :
    readClassesWithin bound r.bare =
      ((readClassesWithin bound r).1.map ClassDecl.bare, (readClassesWithin bound r).2.bare) := by
  induction bound generalizing r with
  | zero => rfl
  | succ bound ih =>
    have hempty : r.bare.rest.isEmpty = r.rest.isEmpty := List.isEmpty_map
    rw [readClassesWithin, readClassesWithin, hempty]
    split
    · rfl
    · rw [readClass_bare]
      rcases r.readClass with ⟨_ | c, r'⟩
      · simp only [ih, Option.map_none, Option.toList_none, List.nil_append]
      · simp only [ih, Option.map_some, Option.toList_some, List.map_append, List.map_cons, List.map_nil]

theorem readProgram_bare (r : Reader) :
    r.bare.readProgram = (r.readProgram.1.map Program.bare, r.readProgram.2.bare) := by
  have hclasses (r' : Reader) :
      r'.bare.readClasses = (r'.readClasses.1.map ClassDecl.bare, r'.readClasses.2.bare) := by
    have hlength : r'.bare.rest.length = r'.rest.length := List.length_map ..
    rw [readClasses, readClasses, hlength, readClassesWithin_bare]
  rw [readProgram_eq, readProgram_eq, attempt, attempt, read_bare MainClass.bares_parse]
  rcases r.read MainClass.parse with ⟨_ | main, r'⟩
  · simp [recover_bare, hclasses]
  · simp [hclasses, Program.bare]

end Reader

end ClassCheck
