import ClassCheck.Proofs.Grammar.Completeness
import ClassCheck.Proofs.Grammar.Reading

/-!
# Reading declarations and whole programs back

Two lookaheads are at work here. A type `int` ends where no bracket follows, and a row of variable
declarations ends where no second identifier follows the first: a statement that begins with a name
goes on with `=` or `[`.
-/

namespace ClassCheck

open ClassCheck.Parser

variable {ends : List Token → Prop}

/-! ## Variables -/

theorem TypeRef.readsBack_parse (r : TypeRef) :
    ReadsBack TypeRef.parse r.name.words (fun r' => r'.bare = r.bare)
      fun rest => ahead .leftBracket rest = false := by
  obtain ⟨name, span⟩ := r
  cases name with
  | int =>
    intro us rest hsay hrest
    obtain ⟨t, us, rfl, ht, hus⟩ := Says.cons_iff.1 hsay
    obtain rfl := Says.nil_iff.1 hus
    obtain ⟨hk, -⟩ := (Token.word?_eq_fixed t _).1 ht
    refine ⟨⟨.int, t.span⟩, ?_, rfl⟩
    rw [List.cons_append, TypeRef.parse, hk]
    exact bind_of_ok (accept_of_not_ahead hrest) _
  | boolean =>
    apply readsBack_first
    intro t ht
    obtain ⟨hk, -⟩ := (Token.word?_eq_fixed t _).1 ht
    exact ⟨pure ⟨.boolean, t.span⟩, fun ts => by rw [TypeRef.parse, hk]; rfl, readsBack_pure rfl⟩
  | intArray =>
    apply readsBack_first
    intro t ht
    obtain ⟨hk, -⟩ := (Token.word?_eq_fixed t _).1 ht
    refine ⟨_, fun ts => by rw [TypeRef.parse, hk], readsBack_accept_bind fun o ho => ?_⟩
    apply readsBack_expect_bind
    intro c hc
    exact readsBack_pure rfl
  | named name =>
    apply readsBack_first
    intro t ht
    obtain ⟨hk, rfl⟩ := (Token.word?_eq_name t _).1 ht
    exact ⟨pure ⟨.named t.lexeme, t.span⟩, fun ts => by rw [TypeRef.parse, hk]; rfl,
      readsBack_pure rfl⟩

theorem TypeRef.readsBack_parse_bind {β : Type} {f : TypeRef → Parser β} {S : β → Prop}
    {name : String} {ws : List Word} (r : TypeRef)
    (hf : ∀ r' : TypeRef, r'.bare = r.bare → ReadsBack (f r') (.name name :: ws) S ends) :
    ReadsBack (TypeRef.parse >>= f) (r.name.words ++ .name name :: ws) S ends := by
  apply (TypeRef.readsBack_parse r).bind_cons _ hf
  intro t ts ht
  simp [ahead, ((Token.word?_eq_name t name).1 ht).1]

namespace VarDecl

theorem readsBack_parse (what : String) (d : VarDecl) :
    ReadsBack (parse what) d.words (fun d' => d'.bare = d.bare) fun _ => True := by
  apply TypeRef.readsBack_parse_bind
  intro type htype
  apply readsBack_expectIdent_bind
  intro i hi
  apply readsBack_pure
  simp only [bare, Ident.bare, htype, hi]

theorem readsBack_parseEnded (d : VarDecl) :
    ReadsBack parseEnded d.endedWords (fun d' => d'.bare = d.bare) fun _ => True := by
  apply (readsBack_parse _ d).bind_fixed (fun _ _ _ => trivial)
  intro d' hd
  apply readsBack_expect_bind
  intro c hc
  exact readsBack_pure hd

theorem startsAt_of_says {d : VarDecl} {us : List Token} (h : Says us d.endedWords)
    (rest : List Token) : startsAt (us ++ rest) = true := by
  obtain ⟨⟨name, span⟩, i⟩ := d
  cases name with
  | int | boolean | intArray =>
    obtain ⟨t, us, rfl, ht, -⟩ := Says.cons_iff.1 h
    simp [startsAt, ((Token.word?_eq_fixed t _).1 ht).1]
  | named name =>
    obtain ⟨t, us, rfl, ht, hus⟩ := Says.cons_iff.1 h
    obtain ⟨u, us, rfl, hu, -⟩ := Says.cons_iff.1 hus
    simp [startsAt, ahead, ((Token.word?_eq_name t _).1 ht).1, ((Token.word?_eq_name u _).1 hu).1]

theorem readsBack_parseAll (ds : List VarDecl) :
    ReadsBack parseAll (ds.flatMap endedWords) (fun ds' => ds'.map bare = ds.map bare)
      fun rest => startsAt rest = false :=
  readsBack_manyWhile (readsItems_words rfl (by simp [endedWords]) reads_parseEnded) ds
    (fun d _ => readsBack_parseEnded d) fun _ _ _ rest h => startsAt_of_says h rest

theorem readsBack_parseParams (ds : List VarDecl) :
    ReadsBack parseParams (commas (ds.map words)) (fun ds' => ds'.map bare = ds.map bare)
      fun rest => ahead .rightParen rest = true := by
  have hitem : ∀ d ∈ ds, ReadsBack (parse "parameter name") d.words (fun d' => d'.bare = d.bare)
      fun _ => True := fun d _ => readsBack_parse _ d
  apply readsBack_upToParen (fun _ _ _ => trivial) (fun _ _ _ => trivial) (reads_parse _) ds hitem
  rintro ⟨⟨name, span⟩, i⟩ _
  cases name with
  | int | boolean | intArray =>
    apply neverAhead_cons
    intro t ht
    simp [((Token.word?_eq_fixed t _).1 ht).1]
  | named name =>
    apply neverAhead_cons
    intro t ht
    simp [((Token.word?_eq_name t _).1 ht).1]

/-! ### Where no declaration begins -/

theorem not_startsAt_of_kind {t : Token} {ts : List Token}
    (h : t.kind ∉ [TokenKind.int, .boolean, .identifier]) : startsAt (t :: ts) = false := by
  rw [startsAt]
  split
  · next hk => simp [hk] at h
  · next hk => simp [hk] at h
  · next hk => simp [hk] at h
  · rfl

theorem not_startsAt_of_stmt {s : Stmt} {us : List Token} (h : Says us s.words)
    (rest : List Token) : startsAt (us ++ rest) = false := by
  cases s with
  | assign | arrayAssign =>
    obtain ⟨t, us, rfl, ht, hus⟩ := Says.cons_iff.1 h
    obtain ⟨u, us, rfl, hu, -⟩ := Says.cons_iff.1 hus
    simp [startsAt, ahead, ((Token.word?_eq_name t _).1 ht).1, ((Token.word?_eq_fixed u _).1 hu).1]
  | block | ifElse | loop | print =>
    obtain ⟨t, us, rfl, ht, -⟩ := Says.cons_iff.1 h
    exact not_startsAt_of_kind (by simp [((Token.word?_eq_fixed t _).1 ht).1])

/-- Declarations end before a row of other things, each of which is told apart from a declaration,
and a fixed word after them. -/
theorem not_startsAt_of_row {α : Type} {f : α → List Word} {as : List α} {kind : TokenKind}
    {ws : List Word} (hf : ∀ a ∈ as, ∀ us rest, Says us (f a) → startsAt (us ++ rest) = false)
    (hk : kind ∉ [TokenKind.int, .boolean, .identifier]) (us rest : List Token)
    (h : Says us (as.flatMap f ++ .fixed kind :: ws)) : startsAt (us ++ rest) = false := by
  cases as with
  | nil =>
    obtain ⟨t, us, rfl, ht, -⟩ := Says.cons_iff.1 h
    apply not_startsAt_of_kind
    rwa [((Token.word?_eq_fixed t _).1 ht).1]
  | cons a as =>
    rw [List.flatMap_cons, List.append_assoc] at h
    obtain ⟨us, vs, rfl, hus, -⟩ := Says.append_iff.1 h
    rw [List.append_assoc]
    exact hf a List.mem_cons_self us _ hus

end VarDecl

/-! ## Methods and classes -/

namespace MethodDecl

theorem readsBack_parse {d : MethodDecl} (hg : d.Grouped) :
    ReadsBack parse d.words (fun d' => d'.bare = d.bare) fun _ => True := by
  obtain ⟨hbody, hreturned⟩ := List.forall_mem_append.1 hg
  rw [List.forall_mem_flatMap] at hbody
  apply readsBack_expect_bind
  intro p hp
  apply TypeRef.readsBack_parse_bind
  intro returnType htype
  apply readsBack_expectIdent_bind
  intro i hi
  apply readsBack_expect_bind
  intro o ho
  apply (VarDecl.readsBack_parseParams d.params).bind_fixed fun t ts ht => by simp [ahead, ht]
  intro params hparams
  apply readsBack_expect_bind
  intro c hc
  apply readsBack_expect_bind
  intro b hb
  apply (VarDecl.readsBack_parseAll d.locals).bind
  · intro us rest hsay _
    exact VarDecl.not_startsAt_of_row (fun s _ us rest h => VarDecl.not_startsAt_of_stmt h rest)
      (by decide) us rest hsay
  intro locals hlocals
  apply (Stmt.readsBack_sequence Stmt.reads_parse _ fun s hs =>
    Stmt.readsBack_parse (hbody s hs)).bind_fixed fun t ts ht => by simp [ahead, ht]
  · intro body hbare
    apply readsBack_expect_bind
    intro r hr
    apply (Expr.readsBack_parse hreturned).bind_fixed (settled_of_kind rfl)
    intro returned hreturned
    apply readsBack_expect_bind
    intro s hs
    apply readsBack_expect_bind
    intro e he
    apply readsBack_pure
    simp only [bare, Ident.bare, htype, hi, hparams, hlocals, hbare, hreturned]
  · intro t ts ht
    rw [Stmt.not_ahead_of_opens (by decide) ht, Stmt.not_ahead_of_opens (by decide) ht]
    rfl

end MethodDecl

namespace ClassDecl

theorem readsBack_superclass (superclass : Option Ident) :
    ReadsBack superclass? (superclassWords superclass)
      (fun s => s.map Ident.bare = superclass.map Ident.bare)
      fun rest => ahead .extendsWord rest = false := by
  cases superclass with
  | none =>
    apply readsBack_accept_none_bind
    · intro us rest hsay hrest
      obtain rfl := Says.nil_iff.1 hsay
      exact hrest
    · exact readsBack_pure rfl
  | some parent =>
    apply readsBack_accept_bind
    intro e he
    apply readsBack_expectIdent_bind
    intro i hi
    apply readsBack_pure
    simp only [Option.map_some, Ident.bare, hi]

theorem readsBack_parse {d : ClassDecl} (hg : d.Grouped) :
    ReadsBack parse d.words (fun d' => d'.bare = d.bare) fun _ => True := by
  have hmethods : ReadsBack (manyWhile (ahead .publicWord) MethodDecl.parse)
      (d.methods.flatMap MethodDecl.words)
      (fun ds => ds.map MethodDecl.bare = d.methods.map MethodDecl.bare)
      fun rest => ahead .publicWord rest = false := by
    apply readsBack_manyWhile (readsItems_words rfl (by simp [MethodDecl.words])
      MethodDecl.reads_parse)
    · intro m hm
      exact MethodDecl.readsBack_parse (List.forall_mem_flatMap.1 hg m hm)
    · intro m _ us rest hsay
      obtain ⟨t, us, rfl, ht, -⟩ := Says.cons_iff.1 hsay
      simp [ahead, ((Token.word?_eq_fixed t _).1 ht).1]
  apply readsBack_expect_bind
  intro k hk
  apply readsBack_expectIdent_bind
  intro i hi
  apply (readsBack_superclass d.superclass).bind_fixed fun t ts ht => by simp [ahead, ht]
  intro superclass hsuperclass
  apply readsBack_expect_bind
  intro o ho
  apply (VarDecl.readsBack_parseAll d.fields).bind
  · intro us rest hsay _
    refine VarDecl.not_startsAt_of_row (fun m _ us rest h => ?_) (by decide) us rest hsay
    obtain ⟨t, us, rfl, ht, -⟩ := Says.cons_iff.1 h
    exact VarDecl.not_startsAt_of_kind (by simp [((Token.word?_eq_fixed t _).1 ht).1])
  intro fields hfields
  apply hmethods.bind_fixed fun t ts ht => by simp [ahead, ht]
  intro methods hmethods
  apply readsBack_expect_bind
  intro c hc
  apply readsBack_pure
  simp only [bare, Ident.bare, hi, hsuperclass, hfields, hmethods]

end ClassDecl

theorem MainClass.readsBack_parse {d : MainClass} (hg : d.Grouped) :
    ReadsBack MainClass.parse d.words (fun d' => d'.bare = d.bare) fun _ => True := by
  apply readsBack_expect_bind
  intro _ _
  apply readsBack_expectIdent_bind
  intro name hname
  apply readsBack_expect_bind
  intro _ _
  -- The words of `public static void main(String[]`.
  iterate 8
    apply readsBack_expect_bind
    intro _ _
  apply readsBack_expectIdent_bind
  intro args hargs
  apply readsBack_expect_bind
  intro _ _
  apply readsBack_expect_bind
  intro _ _
  apply (VarDecl.readsBack_parseAll d.locals).bind
  · intro us rest hsay _
    exact VarDecl.not_startsAt_of_row (fun s _ us rest h => VarDecl.not_startsAt_of_stmt h rest)
      (by decide) us rest hsay
  intro locals hlocals
  apply (Stmt.readsBack_sequence Stmt.reads_parse (fun t ts => Stmt.not_ahead_of_opens (by decide))
    fun s hs => Stmt.readsBack_parse (List.forall_mem_flatMap.1 hg s hs)).bind_fixed
    fun t ts ht => by simp [ahead, ht]
  intro body hbody
  apply readsBack_expect_bind
  intro _ _
  apply readsBack_expect_bind
  intro _ _
  apply readsBack_pure
  simp only [MainClass.bare, Ident.bare, hname, hargs, hlocals, hbody]

/-! ## Programs -/

namespace Reader

theorem readClassesWithin_of_says {cs : List ClassDecl} (hg : ∀ c ∈ cs, c.Grouped) {r : Reader}
    (hsay : Says r.rest (cs.flatMap ClassDecl.words)) {bound : Nat} (hb : r.rest.length ≤ bound) :
    ∃ cs' : List ClassDecl, readClassesWithin bound r = (cs', { r with rest := [] }) ∧
      cs'.map ClassDecl.bare = cs.map ClassDecl.bare := by
  induction cs generalizing r bound with
  | nil =>
    obtain ⟨rest, stop, lost, errors⟩ := r
    obtain rfl := Says.nil_iff.1 hsay
    cases bound <;> exact ⟨[], rfl, rfl⟩
  | cons c cs ih =>
    rw [List.forall_mem_cons] at hg
    obtain ⟨us, vs, hrest, hus, hvs⟩ := Says.append_iff.1 hsay
    have hpos : 0 < us.length := by
      rw [hus.length_eq]
      simp [ClassDecl.words]
    have hlen := congrArg List.length hrest
    rw [List.length_append] at hlen
    obtain ⟨bound, rfl⟩ : ∃ n, bound = n + 1 := ⟨bound - 1, by omega⟩
    obtain ⟨c', hc, hbare⟩ := ClassDecl.readsBack_parse hg.1 us vs hus trivial
    rw [← hrest] at hc
    obtain ⟨cs', hcs, hbares⟩ := ih hg.2 (r := { r with rest := vs }) hvs
      (show vs.length ≤ bound by omega)
    have hne : ¬ r.rest.isEmpty = true := by
      rw [List.isEmpty_iff, ← List.length_eq_zero_iff]
      omega
    refine ⟨c' :: cs', ?_, by rw [List.map_cons, List.map_cons, hbare, hbares]⟩
    rw [readClassesWithin, if_neg hne, readClass_of_ok hc]
    simp only [hcs]
    rfl

theorem readProgram_of_says {p : Program} (hg : p.Grouped) {r : Reader} (h : Says r.rest p.words) :
    ∃ p' : Program, r.readProgram = (some p', { r with rest := [] }) ∧ p'.bare = p.bare := by
  obtain ⟨hmain, hclasses⟩ := List.forall_mem_append.1 hg
  obtain ⟨us, vs, hrest, hus, hvs⟩ := Says.append_iff.1 h
  obtain ⟨main, hm, hbare⟩ := MainClass.readsBack_parse hmain us vs hus trivial
  rw [← hrest] at hm
  obtain ⟨classes, hcs, hbares⟩ := readClassesWithin_of_says (List.forall_mem_flatMap.1 hclasses)
    (r := { r with rest := vs }) hvs (Nat.le_refl _)
  refine ⟨⟨main, classes⟩, ?_, by simp only [Program.bare, hbare, hbares]⟩
  rw [readProgram_of_ok hm, readClasses, hcs]

end Reader

end ClassCheck
