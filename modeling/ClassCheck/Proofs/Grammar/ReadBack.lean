import ClassCheck.Proofs.Grammar.Steps
import ClassCheck.Proofs.Grammar.Words

/-!
# Reading words back

A parser reads a row of words back if it takes exactly the tokens that say them, whatever comes
after, as long as what comes after cannot carry them on.
-/

namespace ClassCheck.Parser

/-- From tokens that say `ws`, with `rest` after them, the parser gives something of which `S`
holds, and leaves `rest`. -/
def ReadsBack {α : Type} (p : Parser α) (ws : List Word) (S : α → Prop)
    (ends : List Token → Prop) : Prop :=
  ∀ us rest, Says us ws → ends rest → ∃ a, p (us ++ rest) = .ok (a, rest) ∧ S a

variable {α β : Type} {ws vs : List Word} {S : β → Prop} {ends : List Token → Prop}
  {kind : TokenKind} {what : String}

theorem readsBack_pure {b : β} (h : S b) : ReadsBack (pure b) [] S ends := by
  intro us rest hsay _
  obtain rfl := Says.nil_iff.1 hsay
  exact ⟨b, rfl, h⟩

theorem ReadsBack.bind {p : Parser α} {f : α → Parser β} {Q : α → Prop}
    {between : List Token → Prop} (hp : ReadsBack p ws Q between)
    (hbetween : ∀ us rest, Says us vs → ends rest → between (us ++ rest))
    (hf : ∀ a, Q a → ReadsBack (f a) vs S ends) : ReadsBack (p >>= f) (ws ++ vs) S ends := by
  intro ts rest hsay hrest
  obtain ⟨us, ds, rfl, hus, hds⟩ := Says.append_iff.1 hsay
  obtain ⟨a, ha, hQ⟩ := hp us (ds ++ rest) hus (hbetween ds rest hds hrest)
  obtain ⟨b, hb, hS⟩ := hf a hQ ds rest hds hrest
  refine ⟨b, ?_, hS⟩
  rw [List.append_assoc, bind_of_ok ha, hb]

theorem ReadsBack.bind_cons {p : Parser α} {f : α → Parser β} {Q : α → Prop}
    {between : List Token → Prop} {w : Word} (hp : ReadsBack p ws Q between)
    (hbetween : ∀ t ts, t.word? = some w → between (t :: ts))
    (hf : ∀ a, Q a → ReadsBack (f a) (w :: vs) S ends) :
    ReadsBack (p >>= f) (ws ++ w :: vs) S ends := by
  apply hp.bind _ hf
  intro us rest hsay _
  obtain ⟨t, us, rfl, ht, -⟩ := Says.cons_iff.1 hsay
  exact hbetween t _ ht

theorem ReadsBack.bind_fixed {p : Parser α} {f : α → Parser β} {Q : α → Prop}
    {between : List Token → Prop} (hp : ReadsBack p ws Q between)
    (hbetween : ∀ t ts, t.kind = kind → between (t :: ts))
    (hf : ∀ a, Q a → ReadsBack (f a) (.fixed kind :: vs) S ends) :
    ReadsBack (p >>= f) (ws ++ .fixed kind :: vs) S ends :=
  hp.bind_cons (fun t ts ht => hbetween t ts ((Token.word?_eq_fixed t kind).1 ht).1) hf

theorem ReadsBack.bind_pure {p : Parser α} {f : α → β} {Q : α → Prop} (hp : ReadsBack p ws Q ends)
    (hf : ∀ a, Q a → S (f a)) : ReadsBack (p >>= fun a => pure (f a)) ws S ends := by
  intro us rest hsay hrest
  obtain ⟨a, ha, hQ⟩ := hp us rest hsay hrest
  exact ⟨f a, by rw [bind_of_ok ha]; rfl, hf a hQ⟩

theorem readsBack_expect_bind {f : Token → Parser β}
    (hf : ∀ t, t.kind = kind → ReadsBack (f t) ws S ends) :
    ReadsBack (expect kind what >>= f) (.fixed kind :: ws) S ends := by
  intro ts rest hsay hrest
  obtain ⟨t, us, rfl, ht, hus⟩ := Says.cons_iff.1 hsay
  obtain ⟨hk, -⟩ := (Token.word?_eq_fixed t kind).1 ht
  obtain ⟨b, hb, hS⟩ := hf t hk us rest hus hrest
  refine ⟨b, ?_, hS⟩
  rw [List.cons_append, bind_of_ok (expect_cons hk), hb]

theorem readsBack_expectIdent_bind {f : Ident → Parser β} {name : String}
    (hf : ∀ i : Ident, i.name = name → ReadsBack (f i) ws S ends) :
    ReadsBack (expectIdent what >>= f) (.name name :: ws) S ends := by
  intro ts rest hsay hrest
  obtain ⟨t, us, rfl, ht, hus⟩ := Says.cons_iff.1 hsay
  obtain ⟨hk, hl⟩ := (Token.word?_eq_name t name).1 ht
  obtain ⟨b, hb, hS⟩ := hf ⟨t.lexeme, t.span⟩ hl us rest hus hrest
  refine ⟨b, ?_, hS⟩
  rw [List.cons_append, bind_of_ok (expectIdent_cons hk), hb]

theorem readsBack_accept_bind {f : Option Token → Parser β}
    (hf : ∀ t, t.kind = kind → ReadsBack (f (some t)) ws S ends) :
    ReadsBack (accept kind >>= f) (.fixed kind :: ws) S ends := by
  intro ts rest hsay hrest
  obtain ⟨t, us, rfl, ht, hus⟩ := Says.cons_iff.1 hsay
  obtain ⟨hk, -⟩ := (Token.word?_eq_fixed t kind).1 ht
  obtain ⟨b, hb, hS⟩ := hf t hk us rest hus hrest
  refine ⟨b, ?_, hS⟩
  rw [List.cons_append, bind_of_ok (accept_cons hk), hb]

theorem readsBack_first {p : Parser β} {w : Word}
    (h : ∀ t : Token, t.word? = some w →
      ∃ q : Parser β, (∀ ts, p (t :: ts) = q ts) ∧ ReadsBack q ws S ends) :
    ReadsBack p (w :: ws) S ends := by
  intro ts rest hsay hrest
  obtain ⟨t, us, rfl, ht, hus⟩ := Says.cons_iff.1 hsay
  obtain ⟨q, hpq, hq⟩ := h t ht
  rw [List.cons_append, hpq]
  exact hq us rest hus hrest

/-- The words do not begin with this kind of token, and neither does what comes after them. -/
def NeverAhead (kind : TokenKind) (ws : List Word) (ends : List Token → Prop) : Prop :=
  ∀ us rest, Says us ws → ends rest → ahead kind (us ++ rest) = false

theorem readsBack_accept_none_bind {f : Option Token → Parser β} (hk : NeverAhead kind ws ends)
    (hf : ReadsBack (f none) ws S ends) : ReadsBack (accept kind >>= f) ws S ends := by
  intro us rest hsay hrest
  obtain ⟨b, hb, hS⟩ := hf us rest hsay hrest
  refine ⟨b, ?_, hS⟩
  rw [bind_of_ok (accept_of_not_ahead (hk us rest hsay hrest)), hb]

theorem neverAhead_cons {w : Word} (h : ∀ t : Token, t.word? = some w → t.kind ≠ kind) :
    NeverAhead kind (w :: ws) ends := by
  intro ts rest hsay _
  obtain ⟨t, us, rfl, ht, -⟩ := Says.cons_iff.1 hsay
  simp [ahead, h t ht]

/-! ## Lists -/

section

variable {item : Parser α} {R : List Token → α → Prop} {f : α → List Word} {g : α → β}

theorem readsBack_manyWhile {more : List Token → Bool} (hitems : ReadsItems (itemWhile more item) R)
    (as : List α) (h : ∀ a ∈ as, ReadsBack item (f a) (fun a' => g a' = g a) fun _ => True)
    (hmore : ∀ a ∈ as, ∀ us rest, Says us (f a) → more (us ++ rest) = true) :
    ReadsBack (manyWhile more item) (as.flatMap f) (fun as' => as'.map g = as.map g)
      fun rest => more rest = false := by
  induction as with
  | nil =>
    intro us rest hsay hrest
    obtain rfl := Says.nil_iff.1 hsay
    exact ⟨[], hitems.many_of_none (itemWhile_of_not_more hrest), rfl⟩
  | cons a as ih =>
    intro ts rest hsay hrest
    rw [List.forall_mem_cons] at h hmore
    obtain ⟨us, ds, rfl, hus, hds⟩ := Says.append_iff.1 hsay
    obtain ⟨a', ha, hga⟩ := h.1 us (ds ++ rest) hus trivial
    obtain ⟨as', has, hgas⟩ := ih h.2 hmore.2 ds rest hds hrest
    refine ⟨a' :: as', ?_, by simp only [List.map_cons, hga, hgas]⟩
    rw [List.append_assoc, manyWhile_eq,
      hitems.many_of_some (itemWhile_of_more (hmore.1 us _ hus) ha)]
    exact bind_ok.2 ⟨as', rest, has, rfl⟩

theorem readsBack_afterCommas {between : List Token → Prop}
    (hcomma : ∀ t ts, t.kind = .comma → between (t :: ts)) (hitem : Reads item R) (as : List α)
    (h : ∀ a ∈ as, ReadsBack item (f a) (fun a' => g a' = g a) between) :
    ReadsBack (many (itemAfterComma item)) (as.flatMap fun a => .fixed .comma :: f a)
      (fun as' => as'.map g = as.map g) fun rest => between rest ∧ ahead .comma rest = false := by
  induction as with
  | nil =>
    intro us rest hsay hrest
    obtain rfl := Says.nil_iff.1 hsay
    exact ⟨[], (readsItems_afterComma hitem).many_of_none (itemAfterComma_of_not_ahead hrest.2), rfl⟩
  | cons a as ih =>
    intro ts rest hsay hrest
    rw [List.forall_mem_cons] at h
    rw [List.flatMap_cons, List.cons_append] at hsay
    obtain ⟨t, us, rfl, ht, hus⟩ := Says.cons_iff.1 hsay
    obtain ⟨ds, es, rfl, hds, hes⟩ := Says.append_iff.1 hus
    obtain ⟨hk, -⟩ := (Token.word?_eq_fixed t .comma).1 ht
    have hnext : between (es ++ rest) := by
      cases as with
      | nil =>
        obtain rfl := Says.nil_iff.1 hes
        exact hrest.1
      | cons b bs =>
        rw [List.flatMap_cons, List.cons_append] at hes
        obtain ⟨c, cs, rfl, hc, -⟩ := Says.cons_iff.1 hes
        exact hcomma c _ ((Token.word?_eq_fixed c .comma).1 hc).1
    obtain ⟨a', ha, hga⟩ := h.1 ds (es ++ rest) hds hnext
    obtain ⟨as', has, hgas⟩ := ih h.2 es rest hes hrest
    refine ⟨a' :: as', ?_, by simp only [List.map_cons, hga, hgas]⟩
    rw [List.cons_append, List.append_assoc,
      (readsItems_afterComma hitem).many_of_some (itemAfterComma_cons hk ha)]
    exact bind_ok.2 ⟨as', rest, has, rfl⟩

theorem readsBack_commaSeparated {between : List Token → Prop}
    (hcomma : ∀ t ts, t.kind = .comma → between (t :: ts)) (hitem : Reads item R) (a : α)
    (as : List α) (h : ∀ b ∈ a :: as, ReadsBack item (f b) (fun b' => g b' = g b) between) :
    ReadsBack (commaSeparated item) (commas ((a :: as).map f))
      (fun as' => as'.map g = (a :: as).map g)
      fun rest => between rest ∧ ahead .comma rest = false := by
  rw [List.forall_mem_cons] at h
  rw [commaSeparated_eq, List.map_cons, commas_cons, List.flatMap_map]
  apply h.1.bind
  · intro us rest hsay hrest
    cases as with
    | nil =>
      obtain rfl := Says.nil_iff.1 hsay
      exact hrest.1
    | cons b bs =>
      rw [List.flatMap_cons, List.cons_append] at hsay
      obtain ⟨c, cs, rfl, hc, -⟩ := Says.cons_iff.1 hsay
      exact hcomma c _ ((Token.word?_eq_fixed c .comma).1 hc).1
  · intro a' hga
    apply (readsBack_afterCommas hcomma hitem as h.2).bind_pure
    intro as' hgas
    simp only [List.map_cons, hga, hgas]

theorem readsBack_upToParen {between : List Token → Prop}
    (hcomma : ∀ t ts, t.kind = .comma → between (t :: ts))
    (hparen : ∀ t ts, t.kind = .rightParen → between (t :: ts)) (hitem : Reads item R) (as : List α)
    (h : ∀ a ∈ as, ReadsBack item (f a) (fun a' => g a' = g a) between)
    (hfirst : ∀ a ∈ as, NeverAhead .rightParen (f a) fun _ => True) :
    ReadsBack (fun ts => if ahead .rightParen ts then .ok ([], ts) else commaSeparated item ts)
      (commas (as.map f)) (fun as' => as'.map g = as.map g)
      fun rest => ahead .rightParen rest = true := by
  intro us rest hsay hrest
  cases as with
  | nil =>
    obtain rfl := Says.nil_iff.1 hsay
    exact ⟨[], by simp [hrest], rfl⟩
  | cons a as =>
    have hahead : ahead .rightParen (us ++ rest) = false := by
      rw [List.map_cons, commas_cons] at hsay
      obtain ⟨us, vs, rfl, hus, -⟩ := Says.append_iff.1 hsay
      rw [List.append_assoc]
      exact hfirst a List.mem_cons_self us (vs ++ rest) hus trivial
    obtain ⟨t, ts, rfl, ht⟩ := exists_of_ahead hrest
    have hread := readsBack_commaSeparated hcomma hitem a as h us (t :: ts) hsay
      ⟨hparen t ts ht, by simp [ahead, ht]⟩
    obtain ⟨as', has, hg⟩ := hread
    exact ⟨as', by simp [hahead, has], hg⟩

end

end ClassCheck.Parser
