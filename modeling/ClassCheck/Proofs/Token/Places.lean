import ClassCheck.Proofs.Text.Slice
import ClassCheck.Proofs.Token.Cut

/-!
# Where tokens stand

The tokens of a text stand in the order of their offsets and do not overlap, and each is the text at
its span. The text from the first to the last of a few tokens in a row has just these tokens, as far
from its start as they were from the first.
-/

namespace ClassCheck

/-! ## Moving to another offset -/

def Span.shift (distance : Nat) (s : Span) : Span := { s with offset := s.offset + distance }

def Token.shift (distance : Nat) (t : Token) : Token := { t with offset := t.offset + distance }

theorem Token.span_shift (distance : Nat) (t : Token) :
    (t.shift distance).span = t.span.shift distance := rfl

theorem Span.shift_merge (distance : Nat) (a b : Span) :
    (a.merge b).shift distance = (a.shift distance).merge (b.shift distance) := by
  simp only [shift, merge, stop, Span.mk.injEq]
  omega

/-! ## Tokens in order -/

/-- Each token ends before the next one begins. -/
def InOrder (ts : List Token) : Prop := ts.Pairwise fun a b => a.span.stop ≤ b.offset

namespace InOrder

variable {ts us : List Token} {t u : Token}

theorem sublist (h : InOrder ts) (hus : us.Sublist ts) : InOrder us := List.Pairwise.sublist hus h

theorem offset_head_le (h : InOrder ts) (ht : t ∈ ts.head?) (hu : u ∈ ts) : t.offset ≤ u.offset := by
  obtain ⟨rest, rfl⟩ := List.head?_eq_some_iff.1 ht
  rcases List.mem_cons.1 hu with rfl | hu
  · exact Nat.le_refl _
  · exact Nat.le_trans (Nat.le_add_right _ _) (List.rel_of_pairwise_cons h hu)

theorem stop_le_getLast (h : InOrder ts) (ht : t ∈ ts.getLast?) (hu : u ∈ ts) :
    u.span.stop ≤ t.span.stop := by
  obtain ⟨rest, rfl⟩ := List.getLast?_eq_some_iff.1 ht
  rcases List.mem_append.1 hu with hu | hu
  · have hle := (List.pairwise_append.1 h).2.2 u hu t List.mem_cons_self
    exact Nat.le_trans hle (Nat.le_add_right _ _)
  · obtain rfl := List.mem_singleton.1 hu
    exact Nat.le_refl _

end InOrder

/-- The span begins where the first of the tokens does, and ends where the last one does. -/
def Span.Covers (s : Span) (ts : List Token) : Prop :=
  (∃ t ∈ ts.head?, t.offset = s.offset) ∧ ∃ t ∈ ts.getLast?, t.span.stop = s.stop

namespace Span.Covers

variable {a b : Span} {ts us vs : List Token}

theorem eq (ha : a.Covers ts) (hb : b.Covers ts) : a = b := by
  obtain ⟨⟨t, ht, hoffset⟩, u, hu, hstop⟩ := ha
  obtain ⟨⟨t', ht', hoffset'⟩, u', hu', hstop'⟩ := hb
  obtain rfl := Option.some.inj (ht.symm.trans ht')
  obtain rfl := Option.some.inj (hu.symm.trans hu')
  have hlength : a.length = b.length := by
    unfold stop at hstop hstop'
    omega
  cases a
  cases b
  simp_all

theorem singleton (t : Token) : t.span.Covers [t] := ⟨⟨t, rfl, rfl⟩, t, rfl, rfl⟩

theorem ne_nil (h : a.Covers ts) : ts ≠ [] := by
  rintro rfl
  obtain ⟨⟨t, ht, -⟩, -⟩ := h
  cases ht

theorem merge (ha : a.Covers us) (hb : b.Covers vs) (hus : us <+: ts) (hvs : vs <:+ ts)
    (hts : InOrder ts) : (a.merge b).Covers ts := by
  obtain ⟨⟨t, ht, ht'⟩, u, hu, hu'⟩ := ha
  obtain ⟨⟨v, hv, hv'⟩, w, hw, hw'⟩ := hb
  have hhead : t ∈ ts.head? := by
    obtain ⟨rest, rfl⟩ := hus
    rw [List.head?_append, ht]
    rfl
  have hlast : w ∈ ts.getLast? := by
    obtain ⟨rest, rfl⟩ := hvs
    rw [List.getLast?_append, hw]
    rfl
  have hfirst : t.offset ≤ v.offset :=
    hts.offset_head_le hhead (hvs.subset (List.mem_of_mem_head? hv))
  have hend : u.span.stop ≤ w.span.stop :=
    hts.stop_le_getLast hlast (hus.subset (List.mem_of_mem_getLast? hu))
  refine ⟨⟨t, hhead, ?_⟩, w, hlast, ?_⟩
  · simp only [Span.merge]
    omega
  · rw [merge_stop]
    omega

end Span.Covers

/-! ## The tokens among the pieces -/

namespace Piece

/-- The tokens among these pieces, if the first piece begins at `offset`. -/
def tokensFrom (offset : Nat) (pieces : List Piece) : List Token :=
  (placeFrom offset pieces).filterMap fun (offset, piece) => piece.token? offset

variable {offset : Nat} {pieces : List Piece}

theorem tokensFrom_cons (offset : Nat) (piece : Piece) (pieces : List Piece) :
    tokensFrom offset (piece :: pieces) =
      (piece.token? offset).toList ++ tokensFrom (offset + byteSize piece.text) pieces := by
  rw [tokensFrom, placeFrom, List.filterMap_cons]
  dsimp only
  cases piece.token? offset <;> rfl

theorem tokensFrom_append (offset : Nat) (front back : List Piece) :
    tokensFrom offset (front ++ back) =
      tokensFrom offset front ++ tokensFrom (offset + byteSize (front.flatMap text)) back := by
  induction front generalizing offset with
  | nil => rfl
  | cons piece front ih =>
    rw [List.cons_append, tokensFrom_cons, tokensFrom_cons, ih, List.append_assoc,
      List.flatMap_cons, byteSize_append, Nat.add_assoc]

theorem tokensFrom_shift (distance offset : Nat) (pieces : List Piece) :
    tokensFrom (offset + distance) pieces = (tokensFrom offset pieces).map (Token.shift distance) := by
  induction pieces generalizing offset with
  | nil => rfl
  | cons piece pieces ih =>
    have htoken : piece.token? (offset + distance) = (piece.token? offset).map (Token.shift distance) := by
      cases piece <;> rfl
    rw [tokensFrom_cons, tokensFrom_cons, List.map_append, ← ih, htoken, Nat.add_right_comm]
    cases piece.token? offset <;> rfl

theorem offset_token? {piece : Piece} {t : Token} (h : piece.token? offset = some t) :
    t.offset = offset ∧ t.span.stop = offset + byteSize piece.text := by
  cases piece with
  | token kind word =>
    obtain rfl := Option.some.inj h
    exact ⟨rfl, rfl⟩
  | blank | lineComment | blockComment | openComment | badNumber | stray => cases h

theorem le_offset_of_mem {t : Token} (h : t ∈ tokensFrom offset pieces) : offset ≤ t.offset := by
  induction pieces generalizing offset with
  | nil => cases h
  | cons piece pieces ih =>
    rw [tokensFrom_cons, List.mem_append, Option.mem_toList] at h
    rcases h with h | h
    · exact Nat.le_of_eq (offset_token? h).1.symm
    · exact Nat.le_trans (Nat.le_add_right _ _) (ih h)

theorem inOrder_tokensFrom (offset : Nat) (pieces : List Piece) :
    InOrder (tokensFrom offset pieces) := by
  induction pieces generalizing offset with
  | nil => exact List.Pairwise.nil
  | cons piece pieces ih =>
    rw [tokensFrom_cons]
    cases h : piece.token? offset with
    | none => exact ih _
    | some t =>
      refine List.Pairwise.cons (fun b hb => ?_) (ih _)
      rw [(offset_token? h).2]
      exact le_offset_of_mem hb

/-! ## From tokens back to pieces -/

theorem tokensFrom_eq_append {us vs : List Token} (h : tokensFrom offset pieces = us ++ vs) :
    ∃ front back, pieces = front ++ back ∧ tokensFrom offset front = us ∧
      tokensFrom (offset + byteSize (front.flatMap text)) back = vs := by
  induction pieces generalizing offset us with
  | nil =>
    obtain ⟨rfl, rfl⟩ := List.append_eq_nil_iff.1 h.symm
    exact ⟨[], [], rfl, rfl, rfl⟩
  | cons piece pieces ih =>
    cases us with
    | nil => exact ⟨[], piece :: pieces, rfl, rfl, h⟩
    | cons u us =>
      rw [tokensFrom_cons] at h
      obtain ⟨us', hus, hrest⟩ : ∃ us', (piece.token? offset).toList ++ us' = u :: us ∧
          tokensFrom (offset + byteSize piece.text) pieces = us' ++ vs := by
        cases htoken : piece.token? offset with
        | none => exact ⟨u :: us, rfl, by rw [← h, htoken]; rfl⟩
        | some t =>
          rw [htoken] at h
          obtain ⟨htu, hts⟩ := List.cons.inj h
          exact ⟨us, by rw [htu]; rfl, hts⟩
      obtain ⟨front, back, rfl, hfront, hback⟩ := ih hrest
      refine ⟨piece :: front, back, rfl, ?_, ?_⟩
      · rw [tokensFrom_cons, hfront, hus]
      · rwa [List.flatMap_cons, byteSize_append, ← Nat.add_assoc]

theorem tokensFrom_eq_cons {t : Token} {ts : List Token}
    (h : tokensFrom offset pieces = t :: ts) :
    ∃ front kind word back, pieces = front ++ token kind word :: back ∧
      tokensFrom offset front = [] ∧
      t = ⟨kind, String.ofList word, offset + byteSize (front.flatMap text), byteSize word⟩ := by
  induction pieces generalizing offset with
  | nil => cases h
  | cons piece pieces ih =>
    rw [tokensFrom_cons] at h
    cases piece with
    | token kind word =>
      obtain ⟨rfl, -⟩ := List.cons.inj h
      exact ⟨[], kind, word, pieces, rfl, rfl, rfl⟩
    | blank | lineComment | blockComment | openComment | badNumber | stray =>
      obtain ⟨front, kind, word, back, rfl, hfront, rfl⟩ := ih h
      refine ⟨_ :: front, kind, word, back, rfl, ?_, ?_⟩
      · rw [tokensFrom_cons, hfront]
        rfl
      · rw [List.flatMap_cons, byteSize_append, Nat.add_assoc]

theorem exists_stretch {before used after : List Token}
    (h : tokensFrom offset pieces = before ++ (used ++ after)) (hne : used ≠ []) :
    ∃ front mid kind word back, pieces = front ++ (mid ++ token kind word :: back) ∧
      tokensFrom (offset + byteSize (front.flatMap text)) (mid ++ [token kind word]) = used ∧
      Span.Covers ⟨offset + byteSize (front.flatMap text),
        byteSize ((mid ++ [token kind word]).flatMap text)⟩ used := by
  obtain ⟨left, right, rfl, -, hright⟩ := tokensFrom_eq_append h
  obtain ⟨t, us, rfl⟩ := List.exists_cons_of_ne_nil hne
  -- What stands before the first token belongs to the part in front.
  obtain ⟨gap, kind, word, right, rfl, hgap, ht⟩ := tokensFrom_eq_cons hright
  rw [tokensFrom_append, hgap, List.nil_append, Nat.add_assoc, ← byteSize_append,
    ← List.flatMap_append] at hright
  generalize hused : t :: us = used at hright hne ⊢
  have hfirst : ∃ u ∈ used.head?, u.offset = offset + byteSize ((left ++ gap).flatMap text) := by
    refine ⟨t, by rw [← hused]; rfl, ?_⟩
    rw [ht, List.flatMap_append, byteSize_append, Nat.add_assoc]
  rw [← List.dropLast_concat_getLast hne, List.append_assoc] at hright
  obtain ⟨init, tail, hinit, hinitTokens, htail⟩ := tokensFrom_eq_append hright
  obtain ⟨gap', kind', word', back, rfl, hgap', hlast⟩ := tokensFrom_eq_cons htail
  refine ⟨left ++ gap, init ++ gap', kind', word', back, ?_, ?_, hfirst, used.getLast hne,
    List.getLast?_eq_some_getLast hne, ?_⟩
  · rw [List.append_assoc, hinit]
    simp only [List.append_assoc]
  · rw [List.append_assoc, tokensFrom_append, hinitTokens, tokensFrom_append, hgap', List.nil_append]
    refine Eq.trans ?_ (List.dropLast_concat_getLast hne)
    rw [hlast]
    rfl
  · rw [hlast]
    simp only [Token.span, Span.stop, List.flatMap_append, List.flatMap_singleton, byteSize_append,
      text, Nat.add_assoc]

end Piece

/-! ## The tokens of a text -/

/-- The tokens of a text, without the end of the file. -/
def tokensOf [Alphabet] (text : String) : List Token := Piece.tokensFrom 0 (Piece.split text.toList)

theorem tokens_scan_eq [Alphabet] (text : String) :
    (scan text).tokens = tokensOf text ++ [Token.endOfFile (byteSize text.toList)] := rfl

theorem inOrder_tokensOf [Alphabet] (text : String) : InOrder (tokensOf text) :=
  Piece.inOrder_tokensFrom 0 (Piece.split text.toList)

theorem writes_of_mem_tokensOf [Alphabet] {text : String} {t : Token} (h : t ∈ tokensOf text) :
    t.kind.Writes t.lexeme.toList := by
  obtain ⟨ts, hts, hwrites⟩ := tokens_scan text
  obtain rfl : tokensOf text = ts := List.append_cancel_right hts
  exact hwrites t h

theorem kind_ne_endOfFile [Alphabet] {text : String} : ∀ t ∈ tokensOf text, t.kind ≠ .endOfFile :=
  fun _ ht => TokenKind.ne_endOfFile_of_writes (writes_of_mem_tokensOf ht)

theorem errors_scan_eq_nil_iff [Alphabet] {text : String} :
    (scan text).errors = [] ↔ ∀ piece ∈ Piece.split text.toList, piece.error? 0 = none := by
  have hanywhere : ∀ (piece : Piece) (offset : Nat),
      piece.error? offset = none ↔ piece.error? 0 = none := by
    intro piece offset
    cases piece <;> simp [Piece.error?]
  rw [scan, List.filterMap_eq_nil_iff]
  conv => rhs; rw [← Piece.map_snd_placeFrom 0 (Piece.split text.toList), List.forall_mem_map]
  exact forall₂_congr fun (offset, piece) _ => hanywhere piece offset

variable {text : String}

theorem slice?_of_mem_tokensOf [Alphabet] {t : Token} (h : t ∈ tokensOf text) :
    t.span.slice? text = some t.lexeme := by
  obtain ⟨before, after, h⟩ := List.append_of_mem h
  obtain ⟨left, right, hpieces, -, hright⟩ := Piece.tokensFrom_eq_append h
  obtain ⟨gap, kind, word, back, rfl, -, rfl⟩ := Piece.tokensFrom_eq_cons hright
  refine Span.slice?_eq_some_iff.2
    ⟨(left ++ gap).flatMap Piece.text, back.flatMap Piece.text, ?_, ?_, ?_⟩
  · rw [← Piece.texts_split text.toList, hpieces]
    simp [Piece.text]
  · simp [Token.span]
  · rw [String.toList_ofList]
    rfl

theorem exists_part [Alphabet] {before used after : List Token} (h : tokensOf text = before ++ (used ++ after))
    (hne : used ≠ []) :
    ∃ (span : Span) (part : String), span.Covers used ∧ span.slice? text = some part ∧
      (tokensOf part).map (Token.shift span.offset) = used ∧
      ((scan text).errors = [] → (scan part).errors = []) := by
  obtain ⟨front, mid, kind, word, back, hpieces, htokens, hcovers⟩ := Piece.exists_stretch h hne
  have hsplit := Piece.split_texts_of_token hpieces
  generalize hstretch : mid ++ [Piece.token kind word] = stretch at htokens hcovers hsplit
  have hpieces : Piece.split text.toList = front ++ (stretch ++ back) := by
    rw [hpieces, ← hstretch, List.append_assoc, List.singleton_append]
  refine ⟨_, String.ofList (stretch.flatMap Piece.text), hcovers, ?_, ?_, fun herrors => ?_⟩
  · refine Span.slice?_eq_some_iff.2 ⟨front.flatMap Piece.text, back.flatMap Piece.text, ?_, ?_, ?_⟩
    · rw [← Piece.texts_split text.toList, hpieces, String.toList_ofList, List.flatMap_append,
        List.flatMap_append]
    · exact (Nat.zero_add _).symm
    · rw [String.toList_ofList]
  · rw [tokensOf, String.toList_ofList, hsplit, ← Piece.tokensFrom_shift, Nat.zero_add]
    exact htokens
  · rw [errors_scan_eq_nil_iff, String.toList_ofList, hsplit]
    rw [errors_scan_eq_nil_iff, hpieces] at herrors
    intro piece hpiece
    exact herrors piece (by simp [hpiece])

end ClassCheck
