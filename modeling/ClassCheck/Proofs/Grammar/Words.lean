import ClassCheck.Grammar.Literal
import ClassCheck.Proofs.Program.Trees
import ClassCheck.Token.Basic

/-!
# The words of a program

A word is what a token says, wherever it stands: a number, a name, or one of the fixed words and
signs. Every tree has its words in the order in which they are written.
-/

namespace ClassCheck

inductive Word where
  | number (value : Int)
  | name (text : String)
  | fixed (kind : TokenKind)
  deriving DecidableEq

/-- What a token says. A number that does not fit says nothing. -/
def Token.word? (t : Token) : Option Word :=
  match t.kind with
  | .number => (Literal.read? t.lexeme).map .number
  | .identifier => some (.name t.lexeme)
  | kind => some (.fixed kind)

theorem Token.word?_eq_number (t : Token) (value : Int) :
    t.word? = some (.number value) ↔ t.kind = .number ∧ Literal.read? t.lexeme = some value := by
  unfold word?
  split
  · next h => simp [h]
  · next h => simp [h]
  · next hn _ => exact ⟨nofun, fun h => (hn h.1).elim⟩

theorem Token.word?_eq_name (t : Token) (text : String) :
    t.word? = some (.name text) ↔ t.kind = .identifier ∧ t.lexeme = text := by
  unfold word?
  split
  · next h => simp [h]
  · next h => simp [h]
  · next _ hi => exact ⟨nofun, fun h => (hi h.1).elim⟩

theorem Token.word?_eq_fixed (t : Token) (kind : TokenKind) :
    t.word? = some (.fixed kind) ↔ t.kind = kind ∧ kind ≠ .number ∧ kind ≠ .identifier := by
  unfold word?
  split
  · next h => cases kind <;> simp [h]
  · next h => cases kind <;> simp [h]
  · next hn hi =>
    simp only [Option.some.injEq, Word.fixed.injEq]
    constructor
    · rintro rfl
      exact ⟨rfl, hn, hi⟩
    · exact And.left

/-! ## Rows of tokens -/

/-- The tokens say these words, one by one. -/
def Says (ts : List Token) (ws : List Word) : Prop := ts.map Token.word? = ws.map some

namespace Says

variable {t : Token} {ts us : List Token} {w : Word} {ws vs : List Word}

theorem nil_iff : Says ts [] ↔ ts = [] := by simp [Says]

theorem cons_cons : Says (t :: ts) (w :: ws) ↔ t.word? = some w ∧ Says ts ws := by simp [Says]

theorem cons_iff : Says ts (w :: ws) ↔ ∃ t us, ts = t :: us ∧ t.word? = some w ∧ Says us ws := by
  simp [Says, List.map_eq_cons_iff]

theorem append_iff :
    Says ts (ws ++ vs) ↔ ∃ us ds, ts = us ++ ds ∧ Says us ws ∧ Says ds vs := by
  simp [Says, List.map_eq_append_iff]

theorem append (hs : Says ts ws) (hv : Says us vs) : Says (ts ++ us) (ws ++ vs) := by
  simp only [Says, List.map_append] at *
  rw [hs, hv]

theorem append_right (hs : Says ts ws) : Says (ts ++ us) (ws ++ vs) ↔ Says us vs := by
  simp only [Says, List.map_append] at *
  rw [hs, List.append_cancel_left_eq]

theorem length_eq (h : Says ts ws) : ts.length = ws.length := by
  simpa using congrArg List.length h

end Says

/-! ## The words of expressions -/

/-- Rows of words with commas between them. -/
def commas (rows : List (List Word)) : List Word := List.intercalate [.fixed .comma] rows

theorem commas_cons (row : List Word) (rows : List (List Word)) :
    commas (row :: rows) = row ++ rows.flatMap (.fixed .comma :: ·) := by
  induction rows generalizing row with
  | nil => simp [commas, List.intercalate]
  | cons next rows ih =>
    rw [List.flatMap_cons, List.cons_append, ← ih]
    simp [commas, List.intercalate, List.intersperse]

theorem length_le_flatMap {α β : Type} {a : α} {as : List α} (h : a ∈ as) (f : α → List β) :
    (f a).length ≤ (as.flatMap f).length := by
  rw [List.flatMap_def]
  exact (List.sublist_flatten_of_mem (List.mem_map_of_mem h)).length_le

theorem length_le_commas {row : List Word} {rows : List (List Word)} (h : row ∈ rows) :
    row.length ≤ (commas rows).length := by
  cases rows with
  | nil => simp at h
  | cons first rows =>
    rw [commas_cons, List.length_append]
    rcases List.mem_cons.1 h with rfl | h
    · omega
    · have := length_le_flatMap h (Word.fixed .comma :: ·)
      rw [List.length_cons] at this
      omega

def BinaryOp.kind : BinaryOp → TokenKind
  | .and => .andAnd
  | .less => .less
  | .add => .plus
  | .sub => .minus
  | .mul => .star

namespace Expr

mutual
def words : Expr → List Word
  | .int _ value => [.number value]
  | .bool _ value => [.fixed (if value then .trueWord else .falseWord)]
  | .ident _ name => [.name name]
  | .this _ => [.fixed .thisWord]
  | .binary _ op left right => left.words ++ .fixed op.kind :: right.words
  | .not _ operand => .fixed .bang :: operand.words
  | .index _ array position =>
    array.words ++ .fixed .leftBracket :: (position.words ++ [.fixed .rightBracket])
  | .length _ array => array.words ++ [.fixed .dot, .fixed .lengthWord]
  | .call _ receiver method args =>
    receiver.words ++ .fixed .dot :: .name method.name :: .fixed .leftParen ::
      (commas (wordsOfAll args) ++ [.fixed .rightParen])
  | .newArray _ size =>
    .fixed .newWord :: .fixed .int :: .fixed .leftBracket :: (size.words ++ [.fixed .rightBracket])
  | .newObject _ className =>
    [.fixed .newWord, .name className.name, .fixed .leftParen, .fixed .rightParen]
  | .paren _ inner => .fixed .leftParen :: (inner.words ++ [.fixed .rightParen])

def wordsOfAll : List Expr → List (List Word)
  | [] => []
  | e :: es => e.words :: wordsOfAll es
end

@[simp] theorem wordsOfAll_eq (es : List Expr) : wordsOfAll es = es.map words := by
  induction es with
  | nil => rfl
  | cons e es ih => rw [wordsOfAll, ih, List.map_cons]

end Expr

/-! ## The words of statements and declarations -/

namespace Stmt

mutual
def words : Stmt → List Word
  | .block body => .fixed .leftBrace :: (wordsOfAll body ++ [.fixed .rightBrace])
  | .assign target value =>
    .name target.name :: .fixed .equal :: (value.words ++ [.fixed .semicolon])
  | .arrayAssign target index value =>
    .name target.name :: .fixed .leftBracket :: (index.words ++ .fixed .rightBracket ::
      .fixed .equal :: (value.words ++ [.fixed .semicolon]))
  | .ifElse condition thenBranch elseBranch =>
    .fixed .ifWord :: .fixed .leftParen :: (condition.words ++ .fixed .rightParen ::
      (thenBranch.words ++ .fixed .elseWord :: elseBranch.words))
  | .loop condition body =>
    .fixed .whileWord :: .fixed .leftParen :: (condition.words ++ .fixed .rightParen :: body.words)
  | .print value =>
    .fixed .print :: .fixed .leftParen :: (value.words ++ [.fixed .rightParen, .fixed .semicolon])

def wordsOfAll : List Stmt → List Word
  | [] => []
  | s :: ss => s.words ++ wordsOfAll ss
end

@[simp] theorem wordsOfAll_eq (ss : List Stmt) : wordsOfAll ss = ss.flatMap words := by
  induction ss with
  | nil => rfl
  | cons s ss ih => rw [wordsOfAll, ih, List.flatMap_cons]

theorem words_ne_nil (s : Stmt) : s.words ≠ [] := by
  cases s <;> simp [words]

end Stmt

def TypeName.words : TypeName → List Word
  | .int => [.fixed .int]
  | .boolean => [.fixed .boolean]
  | .intArray => [.fixed .int, .fixed .leftBracket, .fixed .rightBracket]
  | .named name => [.name name]

def VarDecl.words (d : VarDecl) : List Word := d.type.name.words ++ [.name d.name.name]

/-- A declaration and the semicolon after it. -/
def VarDecl.endedWords (d : VarDecl) : List Word := d.words ++ [.fixed .semicolon]

def MethodDecl.words (d : MethodDecl) : List Word :=
  .fixed .publicWord :: (d.returnType.name.words ++ .name d.name.name :: .fixed .leftParen ::
    (commas (d.params.map VarDecl.words) ++ .fixed .rightParen :: .fixed .leftBrace ::
      (d.locals.flatMap VarDecl.endedWords ++ (d.body.flatMap Stmt.words ++
        .fixed .returnWord :: (d.returned.words ++ [.fixed .semicolon, .fixed .rightBrace])))))

def ClassDecl.superclassWords : Option Ident → List Word
  | none => []
  | some parent => [.fixed .extendsWord, .name parent.name]

def ClassDecl.words (d : ClassDecl) : List Word :=
  .fixed .classWord :: .name d.name.name :: (superclassWords d.superclass ++ .fixed .leftBrace ::
    (d.fields.flatMap VarDecl.endedWords ++
      (d.methods.flatMap MethodDecl.words ++ [.fixed .rightBrace])))

def MainClass.words (d : MainClass) : List Word :=
  [.fixed .classWord, .name d.name.name, .fixed .leftBrace, .fixed .publicWord, .fixed .staticWord,
    .fixed .void, .fixed .mainWord, .fixed .leftParen, .fixed .string, .fixed .leftBracket,
    .fixed .rightBracket, .name d.args.name, .fixed .rightParen, .fixed .leftBrace] ++
  (d.locals.flatMap VarDecl.endedWords ++
    (d.body.flatMap Stmt.words ++ [.fixed .rightBrace, .fixed .rightBrace]))

def Program.words (p : Program) : List Word := p.main.words ++ p.classes.flatMap ClassDecl.words

end ClassCheck
