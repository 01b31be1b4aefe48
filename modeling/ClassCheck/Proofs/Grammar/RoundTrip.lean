import ClassCheck.Proofs.Grammar.Decimal
import ClassCheck.Proofs.Grammar.WholeFile
import ClassCheck.Proofs.Token.Lexemes
import ClassCheck.Text.Unicode

/-!
# Programs and their tokens

Writing a program down and reading it gives the program back (`readProgram_written`). A program that
was read without a report is written in just the tokens that were there (`written_readProgram`).
-/

namespace ClassCheck

/-! ## The words inside a program -/

/-- The kinds that no word of a statement, an expression or a declaration in a class is of. -/
def TokenKind.outer : List TokenKind := [.number, .identifier, .endOfFile, .classWord]

/-- A word that can stand inside a class with these expressions: a number is a literal among
them. -/
def Word.InnerOf (es : List Expr) : Word → Prop
  | .number value => ∃ span, Expr.int span value ∈ es
  | .name _ => True
  | .fixed kind => kind ∉ TokenKind.outer

def InnerRow (es : List Expr) (ws : List Word) : Prop := ∀ w ∈ ws, w.InnerOf es

namespace InnerRow

variable {es : List Expr} {ws vs : List Word}

theorem nil : InnerRow es [] := by simp [InnerRow]

theorem fixed {kind : TokenKind} (hk : kind ∉ TokenKind.outer) (h : InnerRow es ws) :
    InnerRow es (.fixed kind :: ws) :=
  List.forall_mem_cons.2 ⟨hk, h⟩

theorem name {text : String} (h : InnerRow es ws) : InnerRow es (.name text :: ws) :=
  List.forall_mem_cons.2 ⟨trivial, h⟩

theorem append (hws : InnerRow es ws) (hvs : InnerRow es vs) : InnerRow es (ws ++ vs) :=
  List.forall_mem_append.2 ⟨hws, hvs⟩

theorem flatMap {α : Type} {f : α → List Word} {as : List α} (h : ∀ a ∈ as, InnerRow es (f a)) :
    InnerRow es (as.flatMap f) :=
  List.forall_mem_flatMap.2 h

theorem commas {rows : List (List Word)} (h : ∀ row ∈ rows, InnerRow es row) :
    InnerRow es (commas rows) := by
  cases rows with
  | nil => exact nil
  | cons row rows =>
    rw [List.forall_mem_cons] at h
    rw [commas_cons]
    exact h.1.append (flatMap fun row hrow => fixed (by decide) (h.2 row hrow))

theorem mono {ds : List Expr} (h : InnerRow ds ws) (hsub : ds ⊆ es) : InnerRow es ws := by
  intro w hw
  have hin := h w hw
  cases w with
  | number value =>
    obtain ⟨span, hmem⟩ := hin
    exact ⟨span, hsub hmem⟩
  | name => trivial
  | fixed => exact hin

theorem flatMap_exprs {α : Type} {f : α → List Word} {g : α → List Expr} {as : List α}
    (h : ∀ a ∈ as, InnerRow (g a) (f a)) : InnerRow (as.flatMap g) (as.flatMap f) :=
  flatMap fun a ha => (h a ha).mono fun _ he => List.mem_flatMap.2 ⟨a, ha, he⟩

end InnerRow

theorem Expr.innerRow_words (e : Expr) : InnerRow e.nodes e.words := by
  induction e with
  | int span value => simp [InnerRow, Word.InnerOf, words, nodes]
  | bool span value => cases value <;> exact .fixed (by decide) .nil
  | ident span name => exact .name .nil
  | this span => exact .fixed (by decide) .nil
  | binary span op left right ihl ihr =>
    have hop : op.kind ∉ TokenKind.outer := by cases op <;> decide
    exact (ihl.mono (by simp [nodes])).append (.fixed hop (ihr.mono (by simp [nodes])))
  | not span operand ih => exact .fixed (by decide) (ih.mono (by simp [nodes]))
  | index span array position iha ihp =>
    exact (iha.mono (by simp [nodes])).append
      (.fixed (by decide) ((ihp.mono (by simp [nodes])).append (.fixed (by decide) .nil)))
  | length span array iha =>
    exact (iha.mono (by simp [nodes])).append (.fixed (by decide) (.fixed (by decide) .nil))
  | call span receiver method args ihr ihs =>
    have hargs : InnerRow (call span receiver method args).nodes (commas (args.map words)) := by
      apply InnerRow.commas
      rw [List.forall_mem_map]
      intro arg harg
      refine (ihs arg harg).mono fun e he => ?_
      simp only [nodes, nodesOfAll_eq, List.mem_cons, List.mem_append, List.mem_flatMap]
      exact .inr (.inr ⟨arg, harg, he⟩)
    rw [words, wordsOfAll_eq]
    exact (ihr.mono (by simp [nodes])).append
      (.fixed (by decide) (.name (.fixed (by decide) (hargs.append (.fixed (by decide) .nil)))))
  | newArray span size ih =>
    exact .fixed (by decide) (.fixed (by decide) (.fixed (by decide)
      ((ih.mono (by simp [nodes])).append (.fixed (by decide) .nil))))
  | newObject span className =>
    exact .fixed (by decide) (.name (.fixed (by decide) (.fixed (by decide) .nil)))
  | paren span inner ih =>
    exact .fixed (by decide) ((ih.mono (by simp [nodes])).append (.fixed (by decide) .nil))

theorem Stmt.innerRow_words (s : Stmt) : InnerRow s.exprs s.words := by
  induction s with
  | block body ih =>
    rw [words, wordsOfAll_eq, exprs, exprsOfAll_eq]
    exact .fixed (by decide) ((InnerRow.flatMap_exprs ih).append (.fixed (by decide) .nil))
  | assign target value =>
    exact .name (.fixed (by decide) (value.innerRow_words.append (.fixed (by decide) .nil)))
  | arrayAssign target index value =>
    have hi := index.innerRow_words.mono (List.subset_append_left _ value.nodes)
    have hv := value.innerRow_words.mono (List.subset_append_right index.nodes _)
    exact .name (.fixed (by decide) (hi.append (.fixed (by decide) (.fixed (by decide)
      (hv.append (.fixed (by decide) .nil))))))
  | ifElse condition thenBranch elseBranch iht ihe =>
    exact .fixed (by decide) (.fixed (by decide)
      ((condition.innerRow_words.mono (by simp [exprs])).append (.fixed (by decide)
        ((iht.mono (by simp [exprs])).append (.fixed (by decide) (ihe.mono (by simp [exprs])))))))
  | loop condition body ih =>
    exact .fixed (by decide) (.fixed (by decide)
      ((condition.innerRow_words.mono (by simp [exprs])).append (.fixed (by decide)
        (ih.mono (by simp [exprs])))))
  | print value =>
    exact .fixed (by decide) (.fixed (by decide)
      (value.innerRow_words.append (.fixed (by decide) (.fixed (by decide) .nil))))

section

variable {es : List Expr}

theorem TypeName.innerRow_words (n : TypeName) : InnerRow es n.words := by
  cases n with
  | int | boolean => exact .fixed (by decide) .nil
  | intArray => exact .fixed (by decide) (.fixed (by decide) (.fixed (by decide) .nil))
  | named name => exact .name .nil

theorem VarDecl.innerRow_words (d : VarDecl) : InnerRow es d.words :=
  d.type.name.innerRow_words.append (.name .nil)

theorem VarDecl.innerRow_endedWords (ds : List VarDecl) :
    InnerRow es (ds.flatMap VarDecl.endedWords) :=
  .flatMap fun d _ => d.innerRow_words.append (.fixed (by decide) .nil)

end

theorem MethodDecl.innerRow_words (d : MethodDecl) : InnerRow d.exprs d.words := by
  have hparams : InnerRow d.exprs (commas (d.params.map VarDecl.words)) :=
    .commas (List.forall_mem_map.2 fun d _ => d.innerRow_words)
  have hbody : InnerRow d.exprs (d.body.flatMap Stmt.words) :=
    (InnerRow.flatMap_exprs fun s _ => s.innerRow_words).mono (List.subset_append_left _ _)
  have hreturned : InnerRow d.exprs d.returned.words :=
    d.returned.innerRow_words.mono (List.subset_append_right _ _)
  exact .fixed (by decide) (d.returnType.name.innerRow_words.append (.name (.fixed (by decide)
    (hparams.append (.fixed (by decide) (.fixed (by decide)
      ((VarDecl.innerRow_endedWords _).append (hbody.append (.fixed (by decide)
        (hreturned.append (.fixed (by decide) (.fixed (by decide) .nil))))))))))))

theorem ClassDecl.words_eq_cons (d : ClassDecl) :
    ∃ ws, d.words = .fixed .classWord :: ws ∧ InnerRow d.exprs ws := by
  have hsuperclass : InnerRow d.exprs (superclassWords d.superclass) := by
    cases d.superclass with
    | none => exact .nil
    | some parent => exact .fixed (by decide) (.name .nil)
  have hmethods : InnerRow d.exprs (d.methods.flatMap MethodDecl.words) :=
    .flatMap_exprs fun m _ => m.innerRow_words
  exact ⟨_, rfl, .name (hsuperclass.append (.fixed (by decide)
    ((VarDecl.innerRow_endedWords _).append (hmethods.append (.fixed (by decide) .nil)))))⟩

theorem MainClass.words_eq_cons (d : MainClass) :
    ∃ ws, d.words = .fixed .classWord :: ws ∧ InnerRow d.exprs ws := by
  have hbody : InnerRow d.exprs (d.body.flatMap Stmt.words) :=
    .flatMap_exprs fun s _ => s.innerRow_words
  refine ⟨_, rfl, InnerRow.append ?_ ((VarDecl.innerRow_endedWords _).append
    (hbody.append (.fixed (by decide) (.fixed (by decide) .nil))))⟩
  simp [InnerRow, Word.InnerOf, TokenKind.outer]

/-! ## Counting classes -/

theorem InnerRow.count_classWord {es : List Expr} {ws : List Word} (h : InnerRow es ws) :
    ws.count (.fixed .classWord) = 0 :=
  List.count_eq_zero.2 fun hmem => h _ hmem (by decide)

theorem Says.countP_kind {kind : TokenKind} (hn : kind ≠ .number) (hi : kind ≠ .identifier)
    {ts : List Token} {ws : List Word} (h : Says ts ws) :
    ts.countP (·.kind = kind) = ws.count (.fixed kind) := by
  induction ws generalizing ts with
  | nil => rw [Says.nil_iff.1 h, List.countP_nil, List.count_nil]
  | cons w ws ih =>
    obtain ⟨t, ts, rfl, ht, hts⟩ := Says.cons_iff.1 h
    have hw : t.kind = kind ↔ w = .fixed kind := by
      rw [← Option.some_inj (a := w), ← ht, Token.word?_eq_fixed]
      simp [hn, hi]
    rw [List.countP_cons, List.count_cons, ih hts]
    simp [hw]

theorem Program.count_classWord (p : Program) :
    p.words.count (.fixed .classWord) = p.classes.length + 1 := by
  obtain ⟨ws, hws, hmain⟩ := p.main.words_eq_cons
  have hclasses : ∀ cs : List ClassDecl,
      (cs.flatMap ClassDecl.words).count (.fixed .classWord) = cs.length := by
    intro cs
    induction cs with
    | nil => rfl
    | cons c cs ih =>
      obtain ⟨vs, hvs, hc⟩ := c.words_eq_cons
      rw [List.flatMap_cons, List.count_append, ih, hvs, List.count_cons_self, hc.count_classWord,
        List.length_cons]
      omega
  rw [words, List.count_append, hclasses, hws, List.count_cons_self, hmain.count_classWord]
  omega

/-! ## Words as they are written -/

/-- The kind and the text of a token that says this word. Numbers are written in decimal. -/
def Word.written : Word → TokenKind × String
  | .number value => (.number, toString value)
  | .name text => (.identifier, text)
  | .fixed kind => (kind, String.ofList (kind.spelling?.getD []))

/-- The kind and the text of a token. Zeros in front of a number do not count. -/
def Token.written (t : Token) : TokenKind × String :=
  (t.kind, if t.kind = .number then String.ofList (Literal.dropZeros t.lexeme.toList) else t.lexeme)

/-- A literal is a number from 0 to 2³¹ - 1. -/
def Expr.LiteralFits : Expr → Prop
  | .int _ value => 0 ≤ value ∧ value ≤ 2147483647
  | _ => True

instance : (e : Expr) → Decidable e.LiteralFits
  | .int _ _ => inferInstanceAs (Decidable (_ ∧ _))
  | .bool _ _ | .ident _ _ | .this _ | .binary _ _ _ _ | .not _ _ | .index _ _ _ | .length _ _
  | .call _ _ _ _ | .newArray _ _ | .newObject _ _ | .paren _ _ => isTrue trivial

/-- A word that a token can say: a number fits, and a fixed word has one way to be written. -/
def Word.Sayable : Word → Prop
  | .number value => 0 ≤ value ∧ value ≤ 2147483647
  | .name _ => True
  | .fixed kind => kind ∉ TokenKind.loose

theorem InnerRow.sayable {es : List Expr} {ws : List Word} (h : InnerRow es ws)
    (hes : ∀ e ∈ es, e.LiteralFits) : ∀ w ∈ ws, w.Sayable := by
  intro w hw
  have hin := h w hw
  cases w with
  | number value =>
    obtain ⟨span, hmem⟩ := hin
    exact hes _ hmem
  | name => trivial
  | fixed kind =>
    have hsub : TokenKind.loose ⊆ TokenKind.outer := by simp [TokenKind.loose, TokenKind.outer]
    exact fun hk => hin (hsub hk)

theorem Program.sayable_words {p : Program} (h : ∀ e ∈ p.exprs, e.LiteralFits) :
    ∀ w ∈ p.words, w.Sayable := by
  have hclass : (Word.fixed .classWord).Sayable := by simp [Word.Sayable, TokenKind.loose]
  obtain ⟨hmain, hclasses⟩ := List.forall_mem_append.1 h
  obtain ⟨ws, hws, hinner⟩ := p.main.words_eq_cons
  rw [words, List.forall_mem_append, hws, List.forall_mem_cons, List.forall_mem_flatMap]
  refine ⟨⟨hclass, hinner.sayable hmain⟩, fun c hc => ?_⟩
  obtain ⟨vs, hvs, hinner⟩ := c.words_eq_cons
  rw [hvs, List.forall_mem_cons]
  exact ⟨hclass, hinner.sayable (List.forall_mem_flatMap.1 hclasses c hc)⟩

theorem Token.word?_of_written {t : Token} {w : Word} (hw : w.Sayable)
    (h : (t.kind, t.lexeme) = w.written) : t.word? = some w := by
  cases w with
  | number value =>
    obtain ⟨hk, hl⟩ := Prod.mk.inj h
    exact (Token.word?_eq_number t value).2 ⟨hk, by rw [hl, Literal.read?_toString hw.1 hw.2]⟩
  | name text => exact (Token.word?_eq_name t text).2 (Prod.mk.inj h)
  | fixed kind =>
    obtain ⟨hk, -⟩ := Prod.mk.inj h
    refine (Token.word?_eq_fixed t kind).2 ⟨hk, ?_, ?_⟩
    · rintro rfl
      exact hw (by decide)
    · rintro rfl
      exact hw (by decide)

theorem says_of_written {ts : List Token} {ws : List Word} (hws : ∀ w ∈ ws, w.Sayable)
    (h : ts.map (fun t => (t.kind, t.lexeme)) = ws.map Word.written) : Says ts ws := by
  induction ws generalizing ts with
  | nil => exact Says.nil_iff.2 (List.map_eq_nil_iff.1 h)
  | cons w ws ih =>
    rw [List.forall_mem_cons] at hws
    obtain ⟨t, ts, rfl, ht, hts⟩ := List.map_eq_cons_iff.1 h
    exact Says.cons_cons.2 ⟨Token.word?_of_written hws.1 ht, ih hws.2 hts⟩

theorem Says.kind_ne_endOfFile {ts : List Token} {ws : List Word} (hws : ∀ w ∈ ws, w.Sayable)
    (h : Says ts ws) : ∀ t ∈ ts, t.kind ≠ .endOfFile := by
  intro t ht hk
  have hfixed : t.word? = some (.fixed .endOfFile) := by simp [Token.word?_eq_fixed, hk]
  have hmem : some (.fixed .endOfFile) ∈ ws.map some := by
    rw [← hfixed, ← h]
    exact List.mem_map_of_mem ht
  rw [List.mem_map] at hmem
  obtain ⟨w, hw, hwe⟩ := hmem
  obtain rfl := Option.some.inj hwe
  exact hws _ hw (by decide)

theorem Token.written_of_word? [Alphabet] {t : Token} {w : Word} (ht : t.kind.Writes t.lexeme.toList)
    (h : t.word? = some w) : t.written = w.written := by
  cases w with
  | number value =>
    obtain ⟨hk, hv⟩ := (Token.word?_eq_number t value).1 h
    rw [hk] at ht
    rw [written, Word.written, if_pos hk, hk, Literal.toString_of_read? ht.1 ht.2 hv]
  | name text =>
    obtain ⟨hk, rfl⟩ := (Token.word?_eq_name t text).1 h
    rw [written, Word.written, hk, if_neg (by decide)]
  | fixed kind =>
    obtain ⟨rfl, hn, hi⟩ := (Token.word?_eq_fixed t kind).1 h
    have hloose : t.kind ∉ TokenKind.loose := by
      simp [TokenKind.loose, hn, hi, TokenKind.ne_endOfFile_of_writes ht]
    rw [TokenKind.writes_of_not_loose hloose] at ht
    rw [written, Word.written, if_neg hn, ht, Option.getD_some, String.ofList_toList]

theorem Says.map_written [Alphabet] {ts : List Token} {ws : List Word} (h : Says ts ws)
    (hts : ∀ t ∈ ts, t.kind.Writes t.lexeme.toList) :
    ts.map Token.written = ws.map Word.written := by
  induction ws generalizing ts with
  | nil => rw [Says.nil_iff.1 h, List.map_nil, List.map_nil]
  | cons w ws ih =>
    obtain ⟨t, ts, rfl, ht, hrest⟩ := Says.cons_iff.1 h
    rw [List.forall_mem_cons] at hts
    rw [List.map_cons, List.map_cons, Token.written_of_word? hts.1 ht, ih hrest hts.2]

/-! ## There and back -/

namespace Reader

/-- A program that is grouped as the grammar asks, and whose literals fit, is read back from the
tokens it is written in. They may stand anywhere: offsets are natural numbers, and no sum of them is
out of range. All of them are read, and nothing is reported. -/
theorem readProgram_written {p : Program} (hg : ∀ e ∈ p.exprs, e.TopGrouped)
    (hfits : ∀ e ∈ p.exprs, e.LiteralFits) {ts : List Token}
    (hts : ts.map (fun t => (t.kind, t.lexeme)) = p.words.map Word.written) {stop : Token}
    (hstop : stop.kind = .endOfFile) :
    ∃ p' : Program, (ofTokens (ts ++ [stop])).readProgram = (some p', { rest := [], stop }) ∧
      p'.bare = p.bare := by
  have hws := Program.sayable_words hfits
  have hsay := says_of_written hws hts
  rw [ofTokens_append (hsay.kind_ne_endOfFile hws) hstop]
  exact readProgram_of_says hg hsay

/-- `B b; b = new B(); System.out.println(b.take(3 - 1 - 1, !true).length);` in `main`, and a class
`B` that holds an array. -/
def sample : Program :=
  let here := Span.nowhere
  let name (text : String) : Ident := ⟨text, here⟩
  let difference := Expr.binary here .sub (.binary here .sub (.int here 3) (.int here 1)) (.int here 1)
  let call := Expr.call here (.ident here "b") (name "take") [difference, .not here (.bool here true)]
  let take : MethodDecl :=
    { returnType := ⟨.intArray, here⟩
      name := name "take"
      params := [⟨⟨.int, here⟩, name "n"⟩, ⟨⟨.boolean, here⟩, name "all"⟩]
      locals := []
      body := [.arrayAssign (name "held") (.int here 0) (.ident here "n")]
      returned := .ident here "held" }
  { main :=
      { name := name "Main"
        args := name "a"
        locals := [⟨⟨.named "B", here⟩, name "b"⟩]
        body := [.assign (name "b") (.newObject here (name "B")), .print (.length here call)] }
    classes :=
      [{ name := name "B"
         superclass := some (name "Main")
         fields := [⟨⟨.intArray, here⟩, name "held"⟩]
         methods := [take] }] }

theorem readProgram_written_sample :
    (∀ e ∈ sample.exprs, e.TopGrouped) ∧ (∀ e ∈ sample.exprs, e.LiteralFits) ∧
      ∃ p' : Program,
        (ofTokens (sample.words.map (fun w => ⟨w.written.1, w.written.2, 5, 2⟩) ++
          [Token.endOfFile 9])).readProgram = (some p', { rest := [], stop := .endOfFile 9 }) ∧
        p'.bare = sample.bare := by
  have hg : ∀ e ∈ sample.exprs, e.TopGrouped := by decide
  have hfits : ∀ e ∈ sample.exprs, e.LiteralFits := by decide
  exact ⟨hg, hfits, readProgram_written hg hfits (by rw [List.map_map]; rfl) rfl⟩

/-- A program that is read from a text without a report is written in just the tokens of the text.
Its expressions are grouped as the grammar asks, and there is a class for each `class`. -/
theorem written_readProgram [Alphabet] {text : String} {p : Program} {r : Reader}
    (h : (ofTokens (scan text).tokens).readProgram = (some p, r)) (he : r.errors = []) :
    (scan text).tokens.dropLast.map Token.written = p.words.map Word.written ∧
      (∀ e ∈ p.exprs, e.TopGrouped) ∧
      (scan text).tokens.countP (·.kind = .classWord) = p.classes.length + 1 := by
  obtain ⟨ts, hts, hwrites⟩ := tokens_scan text
  have hne : ∀ t ∈ ts, t.kind ≠ .endOfFile := fun t ht =>
    TokenKind.ne_endOfFile_of_writes (hwrites t ht)
  rw [hts, ofTokens_append hne rfl] at h
  obtain ⟨hsay, hg, -⟩ := says_readProgram rfl h he
  refine ⟨?_, hg, ?_⟩
  · rw [hts, List.dropLast_concat]
    exact hsay.map_written hwrites
  · rw [hts, List.countP_append, hsay.countP_kind (by decide) (by decide), p.count_classWord]
    rfl

def sampleText : String :=
  "class A { public static void main(String[] a) { x = 10 - 007 - 0; } } class B { }"

theorem written_readProgram_sampleText :
    ∃ p r, (ofTokens (scan sampleText).tokens).readProgram = (some p, r) ∧ r.errors = [] ∧
      (scan sampleText).tokens.dropLast.map Token.written = p.words.map Word.written ∧
      (∀ e ∈ p.exprs, e.TopGrouped) ∧
      (scan sampleText).tokens.countP (·.kind = .classWord) = p.classes.length + 1 := by
  have hread : (ofTokens (scan sampleText).tokens).readProgram.1.isSome = true ∧
      (ofTokens (scan sampleText).tokens).readProgram.2.errors = [] := by decide +kernel
  generalize h : (ofTokens (scan sampleText).tokens).readProgram = reading at hread
  obtain ⟨found, r⟩ := reading
  obtain ⟨hp, he⟩ := hread
  obtain ⟨p, rfl⟩ := Option.isSome_iff_exists.1 hp
  exact ⟨p, r, rfl, he, written_readProgram h he⟩

end Reader

end ClassCheck
