import ClassCheck.Proofs.Parser.Basic

/-!
# What the parts of a parser do

For each way of putting parsers together: when it comes out well, what it has taken, and what is
left. Loops are bounded by the number of tokens; `many_eq` shows that the bound is never met.
-/

namespace ClassCheck.Parser

variable {α β : Type} {ts mid rest : List Token} {t : Token} {kind : TokenKind}

/-! ## One after the other -/

theorem bind_of_ok {p : Parser α} {a : α} (h : p ts = .ok (a, mid)) (f : α → Parser β) :
    (p >>= f) ts = f a mid := by
  change (p ts >>= fun x => f x.1 x.2) = f a mid
  rw [h]
  rfl

theorem bind_of_error {p : Parser α} {s : Stop} (h : p ts = .error s) (f : α → Parser β) :
    (p >>= f) ts = .error s := by
  change (p ts >>= fun x => f x.1 x.2) = .error s
  rw [h]
  rfl

theorem bind_ok {p : Parser α} {f : α → Parser β} {b : β} :
    (p >>= f) ts = .ok (b, rest) ↔ ∃ a mid, p ts = .ok (a, mid) ∧ f a mid = .ok (b, rest) := by
  constructor
  · intro h
    cases hp : p ts with
    | error s =>
      change (p ts >>= fun x => f x.1 x.2) = _ at h
      rw [hp] at h
      exact nomatch h
    | ok x =>
      obtain ⟨a, mid⟩ := x
      rw [bind_of_ok hp] at h
      exact ⟨a, mid, rfl, h⟩
  · rintro ⟨a, mid, hp, hf⟩
    rw [bind_of_ok hp, hf]

theorem bind_congr_of_ok {p : Parser α} {f g : α → Parser β}
    (h : ∀ a mid, p ts = .ok (a, mid) → f a mid = g a mid) : (p >>= f) ts = (p >>= g) ts := by
  cases hp : p ts with
  | error s =>
    change (p ts >>= fun x => f x.1 x.2) = (p ts >>= fun x => g x.1 x.2)
    rw [hp]
    rfl
  | ok x => rw [bind_of_ok hp, bind_of_ok hp, h x.1 x.2 hp]

theorem bind_apply_congr {p q : Parser α} (h : p ts = q mid) (f : α → Parser β) :
    (p >>= f) ts = (q >>= f) mid := by
  change (p ts >>= fun x => f x.1 x.2) = (q mid >>= fun x => f x.1 x.2)
  rw [h]

theorem pure_ok {a b : α} : (pure a : Parser α) ts = .ok (b, rest) ↔ a = b ∧ ts = rest := by
  change Except.ok (a, ts) = _ ↔ _
  simp

theorem map_ok {p : Parser α} {f : α → β} {b : β} :
    (f <$> p) ts = .ok (b, rest) ↔ ∃ a, p ts = .ok (a, rest) ∧ f a = b := by
  rw [map_eq_pure_bind, bind_ok]
  simp only [pure_ok]
  constructor
  · rintro ⟨a, mid, hp, rfl, rfl⟩
    exact ⟨a, hp, rfl⟩
  · rintro ⟨a, hp, rfl⟩
    exact ⟨a, rest, hp, rfl, rfl⟩

theorem fail_ne_ok {expected : Expected} {a : α} : fail expected ts ≠ .ok (a, rest) := nofun

/-! ## Single tokens -/

theorem takeIf?_some {f : Token → Option α} {a : α} :
    takeIf? f ts = .ok (some a, rest) ↔ ∃ t, ts = t :: rest ∧ f t = some a := by
  cases ts with
  | nil => simp [takeIf?]
  | cons t ts =>
    cases h : f t with
    | none => simp [takeIf?, h]
    | some b =>
      simp only [takeIf?, h, Except.ok.injEq, Prod.mk.injEq, Option.some.injEq, List.cons.injEq]
      constructor
      · rintro ⟨rfl, rfl⟩
        exact ⟨t, ⟨rfl, rfl⟩, h⟩
      · rintro ⟨u, ⟨rfl, rfl⟩, hu⟩
        exact ⟨Option.some.inj (h.symm.trans hu), rfl⟩

theorem takeIf?_none {f : Token → Option α} :
    takeIf? f ts = .ok (none, rest) ↔ ts = rest ∧ ∀ t ∈ ts.head?, f t = none := by
  cases ts with
  | nil => simp [takeIf?]
  | cons t ts => cases h : f t <;> simp [takeIf?, h]

theorem ahead_eq_false : ahead kind ts = false ↔ ∀ t ∈ ts.head?, t.kind ≠ kind := by
  cases ts <;> simp [ahead]

theorem exists_of_ahead (h : ahead kind ts = true) : ∃ t us, ts = t :: us ∧ t.kind = kind := by
  cases ts with
  | nil => simp [ahead] at h
  | cons t us => exact ⟨t, us, rfl, by simpa [ahead] using h⟩

theorem accept_some : accept kind ts = .ok (some t, rest) ↔ ts = t :: rest ∧ t.kind = kind := by
  rw [accept, takeIf?_some]
  constructor
  · rintro ⟨u, rfl, hu⟩
    simp only [Option.ite_none_right_eq_some, Option.some.injEq] at hu
    obtain ⟨hk, rfl⟩ := hu
    exact ⟨rfl, hk⟩
  · rintro ⟨rfl, hk⟩
    exact ⟨t, rfl, by simp [hk]⟩

theorem accept_none : accept kind ts = .ok (none, rest) ↔ ts = rest ∧ ahead kind ts = false := by
  rw [accept, takeIf?_none, ahead_eq_false]
  simp

theorem accept_cons (h : t.kind = kind) : accept kind (t :: ts) = .ok (some t, ts) :=
  accept_some.2 ⟨rfl, h⟩

theorem accept_of_not_ahead (h : ahead kind ts = false) : accept kind ts = .ok (none, ts) :=
  accept_none.2 ⟨rfl, h⟩

theorem expect_ok {what : String} :
    expect kind what ts = .ok (t, rest) ↔ ts = t :: rest ∧ t.kind = kind := by
  rw [← accept_some, expect, bind_ok]
  constructor
  · rintro ⟨x, mid, ha, hx⟩
    cases x with
    | none => exact (fail_ne_ok hx).elim
    | some u =>
      obtain ⟨rfl, rfl⟩ := pure_ok.1 hx
      exact ha
  · intro h
    exact ⟨some t, rest, h, rfl⟩

theorem expect_cons {what : String} (h : t.kind = kind) :
    expect kind what (t :: ts) = .ok (t, ts) :=
  expect_ok.2 ⟨rfl, h⟩

theorem expectIdent_ok {what : String} {name : Ident} :
    expectIdent what ts = .ok (name, rest) ↔
      ∃ t, ts = t :: rest ∧ t.kind = .identifier ∧ name = ⟨t.lexeme, t.span⟩ := by
  rw [expectIdent, bind_ok]
  constructor
  · rintro ⟨x, mid, ha, hx⟩
    cases x with
    | none => exact (fail_ne_ok hx).elim
    | some t =>
      obtain ⟨rfl, rfl⟩ := pure_ok.1 hx
      obtain ⟨rfl, hk⟩ := accept_some.1 ha
      exact ⟨t, rfl, hk, rfl⟩
  · rintro ⟨t, rfl, hk, rfl⟩
    exact ⟨some t, rest, accept_cons hk, rfl⟩

theorem expectIdent_cons {what : String} (h : t.kind = .identifier) :
    expectIdent what (t :: ts) = .ok (⟨t.lexeme, t.span⟩, ts) :=
  expectIdent_ok.2 ⟨t, rfl, h, rfl⟩

/-! ## What a parser takes -/

/-- Where the parser comes out well, it has taken tokens off the front, and they are in the relation
`R` to what it gives. -/
def Reads (p : Parser α) (R : List Token → α → Prop) : Prop :=
  ∀ ⦃ts a rest⦄, p ts = .ok (a, rest) → ∃ used, ts = used ++ rest ∧ R used a

theorem Reads.mono {p : Parser α} {R S : List Token → α → Prop} (h : Reads p R)
    (hRS : ∀ used a, R used a → S used a) : Reads p S := by
  intro ts a rest hp
  obtain ⟨used, rfl, hR⟩ := h hp
  exact ⟨used, rfl, hRS used a hR⟩

theorem Reads.and {p : Parser α} {R S : List Token → α → Prop} (hR : Reads p R) (hS : Reads p S) :
    Reads p fun used a => R used a ∧ S used a := by
  intro ts a rest hp
  obtain ⟨used, hused, hR⟩ := hR hp
  obtain ⟨used', hused', hS⟩ := hS hp
  obtain rfl := List.append_cancel_right (hused.symm.trans hused')
  exact ⟨used, hused, hR, hS⟩

section

variable {R : List Token → α → Prop} {S : List Token → β → Prop} {what : String}

theorem reads_pure {b : β} (h : S [] b) : Reads (pure b) S := by
  intro ts c rest hc
  obtain ⟨rfl, rfl⟩ := pure_ok.1 hc
  exact ⟨[], rfl, h⟩

theorem reads_fail {expected : Expected} : Reads (fail expected) S := fun _ _ _ h => (fail_ne_ok h).elim

theorem Reads.bind {p : Parser α} {f : α → Parser β} (hp : Reads p R)
    (hf : ∀ a us, R us a → Reads (f a) fun vs b => S (us ++ vs) b) : Reads (p >>= f) S := by
  intro ts b rest h
  obtain ⟨a, mid, ha, hb⟩ := bind_ok.1 h
  obtain ⟨us, rfl, hR⟩ := hp ha
  obtain ⟨vs, rfl, hS⟩ := hf a us hR hb
  exact ⟨us ++ vs, by simp, hS⟩

theorem Reads.after {p : Parser β} {b : β} (hp : Reads p fun used b => S (t :: used) b)
    (h : p ts = .ok (b, rest)) : ∃ used, t :: ts = used ++ rest ∧ S used b := by
  obtain ⟨used, rfl, hS⟩ := hp h
  exact ⟨t :: used, rfl, hS⟩

theorem reads_expect : Reads (expect kind what) fun used t => used = [t] ∧ t.kind = kind := by
  intro ts t rest h
  obtain ⟨rfl, hk⟩ := expect_ok.1 h
  exact ⟨[t], rfl, rfl, hk⟩

theorem reads_expect_bind {f : Token → Parser β}
    (hf : ∀ t, t.kind = kind → Reads (f t) fun vs b => S (t :: vs) b) :
    Reads (expect kind what >>= f) S := by
  apply reads_expect.bind
  rintro t us ⟨rfl, hk⟩
  exact hf t hk

theorem reads_expectIdent_bind {f : Ident → Parser β}
    (hf : ∀ t, t.kind = .identifier → Reads (f ⟨t.lexeme, t.span⟩) fun vs b => S (t :: vs) b) :
    Reads (expectIdent what >>= f) S := by
  intro ts b rest h
  obtain ⟨name, mid, hi, hb⟩ := bind_ok.1 h
  obtain ⟨t, rfl, hk, rfl⟩ := expectIdent_ok.1 hi
  obtain ⟨vs, rfl, hS⟩ := hf t hk hb
  exact ⟨t :: vs, rfl, hS⟩

theorem reads_accept_bind {f : Option Token → Parser β}
    (hsome : ∀ t, t.kind = kind → Reads (f (some t)) fun vs b => S (t :: vs) b)
    (hnone : Reads (f none) S) : Reads (accept kind >>= f) S := by
  intro ts b rest h
  obtain ⟨x, mid, ha, hb⟩ := bind_ok.1 h
  cases x with
  | none =>
    obtain ⟨rfl, -⟩ := accept_none.1 ha
    exact hnone hb
  | some t =>
    obtain ⟨rfl, hk⟩ := accept_some.1 ha
    obtain ⟨vs, rfl, hS⟩ := hsome t hk hb
    exact ⟨t :: vs, rfl, hS⟩

end

/-! ## Loops -/

/-- An item of a loop takes tokens that are in the relation `R` to it, at least one. If there is no
item, nothing is taken. -/
def TakesOne (R : List Token → α → Prop) (used : List Token) : Option α → Prop
  | none => used = []
  | some a => used ≠ [] ∧ R used a

structure ReadsItems (item : Parser (Option α)) (R : List Token → α → Prop) : Prop where
  nil : item [] = .ok (none, [])
  reads : Reads item (TakesOne R)

namespace ReadsItems

variable {item : Parser (Option α)} {R : List Token → α → Prop}

theorem none (h : ReadsItems item R) (hi : item ts = .ok (Option.none, rest)) : ts = rest := by
  obtain ⟨used, rfl, rfl⟩ := h.reads hi
  rfl

theorem some (h : ReadsItems item R) {a : α} (hi : item ts = .ok (Option.some a, rest)) :
    ∃ used, ts = used ++ rest ∧ used ≠ [] ∧ R used a :=
  h.reads hi

theorem length_lt (h : ReadsItems item R) {a : α} (ha : item ts = .ok (Option.some a, rest)) :
    rest.length < ts.length := by
  obtain ⟨used, rfl, hne, -⟩ := h.some ha
  have := List.length_pos_iff.2 hne
  simp only [List.length_append]
  omega

theorem manyWithin_nil (h : ReadsItems item R) (bound : Nat) :
    manyWithin item bound [] = .ok ([], []) := by
  cases bound with
  | zero => rfl
  | succ bound => rw [manyWithin, bind_of_ok h.nil]; rfl

theorem manyWithin_eq (h : ReadsItems item R) (m n : Nat) (ts : List Token) (hm : ts.length ≤ m)
    (hn : ts.length ≤ n) : manyWithin item m ts = manyWithin item n ts := by
  induction m generalizing n ts with
  | zero =>
    obtain rfl := List.eq_nil_of_length_eq_zero (Nat.le_zero.1 hm)
    rw [h.manyWithin_nil, h.manyWithin_nil]
  | succ m ih =>
    cases n with
    | zero =>
      obtain rfl := List.eq_nil_of_length_eq_zero (Nat.le_zero.1 hn)
      rw [h.manyWithin_nil, h.manyWithin_nil]
    | succ n =>
      rw [manyWithin, manyWithin]
      apply bind_congr_of_ok
      rintro (_ | a) mid hi
      · rfl
      · have hlt := h.length_lt hi
        apply bind_apply_congr
        exact ih n mid (by omega) (by omega)

theorem many_eq (h : ReadsItems item R) (ts : List Token) :
    many item ts = (do
      match ← item with
      | Option.none => return []
      | Option.some a => return a :: (← many item) : Parser (List α)) ts := by
  cases ts with
  | nil => rw [bind_of_ok h.nil]; rfl
  | cons t ts =>
    rw [many, List.length_cons, manyWithin]
    apply bind_congr_of_ok
    rintro (_ | a) mid hi
    · rfl
    · have hlt := h.length_lt hi
      apply bind_apply_congr
      exact h.manyWithin_eq _ _ mid (by simp at hlt; omega) (Nat.le_refl _)

theorem many_of_none (h : ReadsItems item R) (hi : item ts = .ok (Option.none, rest)) :
    many item ts = .ok ([], ts) := by
  obtain rfl := h.none hi
  rw [h.many_eq, bind_of_ok hi]
  rfl

theorem many_of_some (h : ReadsItems item R) {a : α} (hi : item ts = .ok (Option.some a, mid)) :
    many item ts = (do return a :: (← many item) : Parser (List α)) mid := by
  rw [h.many_eq, bind_of_ok hi]

/-- What holds of no tokens and no items, and goes on to hold when an item is put in front, holds of
what a loop takes and gives. -/
theorem reads_many (h : ReadsItems item R) {S : List Token → List α → Prop} (nil : S [] [])
    (cons : ∀ u a us as, R u a → S us as → S (u ++ us) (a :: as)) : Reads (many item) S := by
  intro ts as rest hm
  unfold many at hm
  generalize ts.length = bound at hm
  induction bound generalizing ts as with
  | zero =>
    obtain ⟨rfl, rfl⟩ := pure_ok.1 hm
    exact ⟨[], rfl, nil⟩
  | succ bound ih =>
    rw [manyWithin, bind_ok] at hm
    obtain ⟨x, mid, hi, hx⟩ := hm
    cases x with
    | none =>
      obtain ⟨rfl, rfl⟩ := pure_ok.1 hx
      exact ⟨[], h.none hi, nil⟩
    | some a =>
      obtain ⟨as, mid', hm, hx⟩ := bind_ok.1 hx
      obtain ⟨rfl, rfl⟩ := pure_ok.1 hx
      obtain ⟨u, rfl, -, hu⟩ := h.some hi
      obtain ⟨us, rfl, hus⟩ := ih hm
      exact ⟨u ++ us, by simp, cons u a us as hu hus⟩

end ReadsItems

/-- A loop that puts each item onto what it has so far. -/
def foldMany (item : Parser (Option α)) (f : β → α → β) (b : β) : Parser β := do
  return (← many item).foldl f b

namespace ReadsItems

variable {item : Parser (Option α)} {R : List Token → α → Prop}

theorem foldMany_of_none (h : ReadsItems item R) (f : β → α → β) (b : β)
    (hi : item ts = .ok (Option.none, rest)) : foldMany item f b ts = .ok (b, ts) := by
  rw [foldMany, bind_of_ok (h.many_of_none hi)]
  rfl

theorem foldMany_of_some (h : ReadsItems item R) (f : β → α → β) (b : β) {a : α}
    (hi : item ts = .ok (Option.some a, mid)) :
    foldMany item f b ts = foldMany item f (f b a) mid := by
  rw [foldMany, bind_apply_congr (h.many_of_some hi), bind_assoc]
  rfl

theorem reads_foldMany (h : ReadsItems item R) {f : β → α → β} {S : List Token → β → Prop}
    (step : ∀ used b u a, S used b → R u a → S (used ++ u) (f b a)) {used : List Token} {b : β}
    (hb : S used b) : Reads (foldMany item f b) fun u c => S (used ++ u) c := by
  intro ts c rest hc
  obtain ⟨as, mid, hm, hc⟩ := bind_ok.1 hc
  obtain ⟨rfl, rfl⟩ := pure_ok.1 hc
  have hS := h.reads_many (S := fun u as => ∀ used b, S used b → S (used ++ u) (as.foldl f b))
    (by simp) (fun u a us as hu ih used b hb => by
      rw [← List.append_assoc]
      exact ih _ _ (step used b u a hb hu))
  obtain ⟨u, rfl, hu⟩ := hS hm
  exact ⟨u, rfl, hu used b hb⟩

end ReadsItems

/-! ## Loops with a condition, and commas -/

/-- An item of a loop that goes on while `more` holds. -/
def itemWhile (more : List Token → Bool) (item : Parser α) : Parser (Option α) := fun ts =>
  if more ts then (some <$> item) ts else .ok (none, ts)

theorem manyWhile_eq (more : List Token → Bool) (item : Parser α) :
    manyWhile more item = many (itemWhile more item) := rfl

theorem itemWhile_of_more {more : List Token → Bool} {item : Parser α} {a : α}
    (hm : more ts = true) (h : item ts = .ok (a, rest)) :
    itemWhile more item ts = .ok (some a, rest) := by
  rw [itemWhile, if_pos hm, map_ok]
  exact ⟨a, h, rfl⟩

theorem itemWhile_of_not_more {more : List Token → Bool} {item : Parser α}
    (hm : more ts = false) : itemWhile more item ts = .ok (none, ts) := by
  simp [itemWhile, hm]

theorem readsItems_while {more : List Token → Bool} {item : Parser α} {R : List Token → α → Prop}
    (hnil : more [] = false) (h : Reads item fun used a => used ≠ [] ∧ R used a) :
    ReadsItems (itemWhile more item) R where
  nil := itemWhile_of_not_more hnil
  reads := by
    intro ts x rest hx
    rw [itemWhile] at hx
    split at hx
    · obtain ⟨a, ha, rfl⟩ := map_ok.1 hx
      exact h ha
    · obtain ⟨rfl, rfl⟩ := pure_ok.1 hx
      exact ⟨[], rfl, rfl⟩

/-- An item of a comma-separated list after the first one. -/
def itemAfterComma (item : Parser α) : Parser (Option α) := do
  match ← accept .comma with
  | none => return none
  | some _ => return some (← item)

theorem commaSeparated_eq (item : Parser α) :
    commaSeparated item = (do
      let first ← item
      let others ← many (itemAfterComma item)
      return first :: others) := rfl

theorem itemAfterComma_cons {item : Parser α} {a : α} (ht : t.kind = .comma)
    (h : item ts = .ok (a, rest)) : itemAfterComma item (t :: ts) = .ok (some a, rest) := by
  rw [itemAfterComma, bind_of_ok (accept_cons ht)]
  exact bind_ok.2 ⟨a, rest, h, rfl⟩

theorem itemAfterComma_of_not_ahead {item : Parser α} (h : ahead .comma ts = false) :
    itemAfterComma item ts = .ok (none, ts) := by
  rw [itemAfterComma, bind_of_ok (accept_of_not_ahead h)]
  rfl

theorem readsItems_afterComma {item : Parser α} {R : List Token → α → Prop} (h : Reads item R) :
    ReadsItems (itemAfterComma item) fun used a =>
      ∃ t us, used = t :: us ∧ t.kind = .comma ∧ R us a where
  nil := itemAfterComma_of_not_ahead rfl
  reads := by
    apply reads_accept_bind
    · intro t ht
      apply h.bind
      intro a us hR
      apply reads_pure
      exact ⟨by simp, t, us, by simp, ht, hR⟩
    · exact reads_pure rfl

end ClassCheck.Parser
