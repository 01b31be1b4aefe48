import ClassCheck.Proofs.Parser.Expr
import ClassCheck.Proofs.Grammar.Words

/-!
# How tightly expressions hold together

An operand may stand without parentheses if it holds together at least as tightly as its operator
asks. Binary operators group to the left, so they ask more of the right operand.
-/

namespace ClassCheck

def BinaryOp.level : BinaryOp → Nat
  | .and => 1
  | .less => 2
  | .add | .sub => 3
  | .mul => 4

theorem BinaryOp.level_bounds (op : BinaryOp) : 1 ≤ op.level ∧ op.level ≤ 4 := by
  cases op <;> decide

namespace Expr

/-- From loose to tight: the four levels of binary operators, then `!`, then indexing, `.length` and
calls, then what needs no operator. -/
def level : Expr → Nat
  | .binary _ op _ _ => op.level
  | .not _ _ => 5
  | .index _ _ _ | .length _ _ | .call _ _ _ _ => 6
  | _ => 7

theorem level_pos (e : Expr) : 1 ≤ e.level := by
  cases e with
  | binary span op left right => exact op.level_bounds.1
  | _ => simp [level]

/-- The operands of the outermost operator hold together tightly enough. -/
def TopGrouped : Expr → Prop
  | .binary _ op left right => op.level ≤ left.level ∧ op.level < right.level
  | .not _ operand => 5 ≤ operand.level
  | .index _ array _ => 6 ≤ array.level
  | .length _ array => 6 ≤ array.level
  | .call _ receiver _ _ => 6 ≤ receiver.level
  | _ => True

instance : (e : Expr) → Decidable e.TopGrouped
  | .binary _ _ _ _ => inferInstanceAs (Decidable (_ ∧ _))
  | .not _ _ => inferInstanceAs (Decidable (5 ≤ _))
  | .index _ _ _ | .length _ _ | .call _ _ _ _ => inferInstanceAs (Decidable (6 ≤ _))
  | .int _ _ | .bool _ _ | .ident _ _ | .this _ | .newArray _ _ | .newObject _ _ | .paren _ _ =>
    isTrue trivial

/-- So do the operands of every operator inside. -/
def Grouped (e : Expr) : Prop := ∀ n ∈ e.nodes, n.TopGrouped

theorem grouped_of_nodes {e : Expr} {inner : List Expr} (h : e.nodes = e :: inner) :
    e.Grouped ↔ e.TopGrouped ∧ ∀ n ∈ inner, n.TopGrouped := by
  rw [Grouped, h, List.forall_mem_cons]

theorem grouped_of_leaf {e : Expr} (h : e.nodes = [e]) (htop : e.TopGrouped) : e.Grouped :=
  (grouped_of_nodes h).2 ⟨htop, List.forall_mem_nil _⟩

section

variable (span : Span) (op : BinaryOp) (e left right : Expr) (name : Ident) (args : List Expr)

theorem grouped_binary : (Expr.binary span op left right).Grouped ↔
    (op.level ≤ left.level ∧ op.level < right.level) ∧ left.Grouped ∧ right.Grouped :=
  (grouped_of_nodes rfl).trans (and_congr_right' List.forall_mem_append)

theorem grouped_not : (Expr.not span e).Grouped ↔ 5 ≤ e.level ∧ e.Grouped := grouped_of_nodes rfl

theorem grouped_index : (Expr.index span left right).Grouped ↔
    6 ≤ left.level ∧ left.Grouped ∧ right.Grouped :=
  (grouped_of_nodes rfl).trans (and_congr_right' List.forall_mem_append)

theorem grouped_length : (Expr.length span e).Grouped ↔ 6 ≤ e.level ∧ e.Grouped := grouped_of_nodes rfl

theorem grouped_call : (Expr.call span e name args).Grouped ↔
    6 ≤ e.level ∧ e.Grouped ∧ ∀ arg ∈ args, arg.Grouped := by
  refine (grouped_of_nodes rfl).trans (and_congr_right' ?_)
  rw [List.forall_mem_append, nodesOfAll_eq, List.forall_mem_flatMap]
  rfl

theorem grouped_newArray : (Expr.newArray span e).Grouped ↔ e.Grouped :=
  (grouped_of_nodes rfl).trans (Iff.of_eq (true_and _))

theorem grouped_paren : (Expr.paren span e).Grouped ↔ e.Grouped :=
  (grouped_of_nodes rfl).trans (Iff.of_eq (true_and _))

end

/-! ## Suffixes -/

namespace Suffix

def words : Suffix → List Word
  | .index position _ => .fixed .leftBracket :: (position.words ++ [.fixed .rightBracket])
  | .length _ => [.fixed .dot, .fixed .lengthWord]
  | .call method args _ =>
    .fixed .dot :: .name method.name :: .fixed .leftParen ::
      (commas (args.map Expr.words) ++ [.fixed .rightParen])

def Grouped : Suffix → Prop
  | .index position _ => position.Grouped
  | .length _ => True
  | .call _ args _ => ∀ arg ∈ args, arg.Grouped

end Suffix

theorem words_attach (e : Expr) (s : Suffix) : (attach e s).words = e.words ++ s.words := by
  cases s <;> simp [attach, words, Suffix.words]

theorem grouped_attach (e : Expr) (s : Suffix) :
    (attach e s).Grouped ↔ 6 ≤ e.level ∧ e.Grouped ∧ s.Grouped := by
  cases s with
  | index position close => exact grouped_index _ _ _
  | length close => simp [attach, grouped_length, Suffix.Grouped]
  | call method args close => exact grouped_call _ _ _ _

theorem level_attach (e : Expr) (s : Suffix) : (attach e s).level = 6 := by
  cases s <;> rfl

/-! ## Operators and the tokens for them -/

/-- `op?` knows the tokens of the operators of one level. -/
def KnowsOps (op? : TokenKind → Option BinaryOp) (level : Nat) : Prop :=
  ∀ kind op, op? kind = some op ↔ op.level = level ∧ op.kind = kind

theorem knowsOps_product : KnowsOps productOp? 4 := by
  intro kind op
  cases op <;> cases kind <;> simp [productOp?, BinaryOp.level, BinaryOp.kind]

theorem knowsOps_sum : KnowsOps sumOp? 3 := by
  intro kind op
  cases op <;> cases kind <;> simp [sumOp?, BinaryOp.level, BinaryOp.kind]

theorem knowsOps_comparison : KnowsOps comparisonOp? 2 := by
  intro kind op
  cases op <;> cases kind <;> simp [comparisonOp?, BinaryOp.level, BinaryOp.kind]

theorem knowsOps_conjunction : KnowsOps conjunctionOp? 1 := by
  intro kind op
  cases op <;> cases kind <;> simp [conjunctionOp?, BinaryOp.level, BinaryOp.kind]

end Expr

/-! ## Where an expression ends -/

/-- The level at which a token can carry an expression on, or 0. -/
def TokenKind.grip : TokenKind → Nat
  | .andAnd => 1
  | .less => 2
  | .plus | .minus => 3
  | .star => 4
  | .leftBracket | .dot => 6
  | _ => 0

theorem BinaryOp.grip_kind (op : BinaryOp) : op.kind.grip = op.level := by
  cases op <;> rfl

theorem TokenKind.grip_lt (kind : TokenKind) : kind.grip < 7 := by
  cases kind <;> decide

/-- The next token does not carry on an expression of this level. -/
def Settled (level : Nat) (ts : List Token) : Prop := ∀ t ∈ ts.head?, t.kind.grip < level

theorem settled_cons {level : Nat} {t : Token} {ts : List Token} :
    Settled level (t :: ts) ↔ t.kind.grip < level := by
  simp [Settled]

theorem settled_of_kind {kind : TokenKind} (hk : kind.grip = 0) (t : Token) (ts : List Token)
    (ht : t.kind = kind) : Settled 1 (t :: ts) := by
  rw [settled_cons, ht, hk]
  exact Nat.one_pos

theorem Settled.mono {m n : Nat} {ts : List Token} (h : Settled m ts) (hmn : m ≤ n) :
    Settled n ts :=
  fun t ht => Nat.lt_of_lt_of_le (h t ht) hmn

theorem Settled.not_ahead {level : Nat} {kind : TokenKind} {ts : List Token} (h : Settled level ts)
    (hk : level ≤ kind.grip) : ahead kind ts = false := by
  cases ts with
  | nil => rfl
  | cons t ts =>
    have := settled_cons.1 h
    simp only [ahead, List.head?_cons, Option.any_some, beq_eq_false_iff_ne]
    rintro rfl
    omega

end ClassCheck
