import ClassCheck.Proofs.Grammar.Progress

/-!
# A reader does not refuse in silence

To report and to refuse are two steps of a routine. That none of them does one without the other follows from what
the routines do step by step; what is left is how requests follow each other. A reader that is lost keeps quiet, and
requests for statements and expressions never bring it back to a class. A number that does not fit is another matter:
it is reported in any case, and does not make the reader lost. Main statement: a request that is answered reports
nothing, one that is refused reports at most one error, and if it reports none then an earlier one was refused with a
report. So there are errors if and only if a request was refused.
-/

namespace ClassCheck

theorem SyntaxError.code_eq_iff (e : SyntaxError) :
    e.code = "E105" ↔ ∃ literal, e.expected = .smallNumber literal := by
  obtain ⟨expected, found⟩ := e
  cases expected <;> simp [code]

namespace Reader

variable {α : Type} {r : Reader}

/-- Whether a request was answered, and what was reported on it. -/
structure Reply where
  answered : Bool
  reports : List SyntaxError
  deriving DecidableEq

def reply (r : Reader) (request : Request) : Reply :=
  ⟨(r.ask request).1, (r.ask request).2.errors.drop r.errors.length⟩

/-- The replies to requests, one after the other. -/
def replies (r : Reader) : List Request → List Reply
  | [] => []
  | request :: requests => r.reply request :: replies (r.ask request).2 requests

/-! ## One reply -/

/-- What a reader that is lost, or not, may reply, and whether it is lost after that. -/
inductive MayReply : Bool → Reply → Bool → Prop
  | answer (lost : Bool) : MayReply lost ⟨true, []⟩ lost
  | number (lost : Bool) {e : SyntaxError} : e.code = "E105" → MayReply lost ⟨false, [e]⟩ lost
  | error {e : SyntaxError} : e.code ≠ "E105" → MayReply false ⟨false, [e]⟩ true
  | silence : MayReply true ⟨false, []⟩ true

theorem mayReply_note (r : Reader) (s : Stop) :
    MayReply r.lost ⟨false, (r.note s).errors.drop r.errors.length⟩ (r.note s).lost := by
  unfold note
  split
  · next literal hexpected =>
    have hcode : SyntaxError.code ⟨s.expected, r.found s⟩ = "E105" :=
      (SyntaxError.code_eq_iff _).2 ⟨literal, hexpected⟩
    simpa using MayReply.number r.lost hcode
  · next hexpected =>
    have hcode : SyntaxError.code ⟨s.expected, r.found s⟩ ≠ "E105" := by
      rw [ne_eq, SyntaxError.code_eq_iff]
      rintro ⟨literal, hliteral⟩
      exact hexpected literal hliteral
    cases hlost : r.lost with
    | true => simpa [hlost] using MayReply.silence
    | false => simpa using MayReply.error hcode

/-- The routine keeps the errors that there are, and what it does next is a reply that the reader may give. -/
def Accounts (x : Routine α) : Prop :=
  ∀ r : Reader, r.errors <+: (x r).2.errors ∧
    MayReply r.lost ⟨(x r).1.isSome, (x r).2.errors.drop r.errors.length⟩ (x r).2.lost

/-- A routine that does what a parser says has reported where the parser stops, and nowhere else. -/
theorem accounts_of_refines {x : Routine α} {p : Parser α} (h : Refines x p) : Accounts x := by
  intro r
  rw [h]
  refine ⟨r.errors_read p, ?_⟩
  cases hp : p r.rest with
  | ok y => simpa [read_of_ok hp] using MayReply.answer r.lost
  | error s => simpa [read_of_error hp] using r.mayReply_note s

theorem accounts_statement : Accounts Routine.statement := accounts_of_refines Routine.refines_statement

theorem accounts_expression : Accounts Routine.expression := accounts_of_refines Routine.refines_expression

theorem accounts_ask {request : Request} (h : request ≠ .program) :
    r.errors <+: (r.ask request).2.errors ∧ MayReply r.lost (r.reply request) (r.ask request).2.lost := by
  cases request with
  | program => exact absurd rfl h
  | statement => exact accounts_statement r
  | expression => exact accounts_expression r

theorem errors_ask {request : Request} (h : request ≠ .program) :
    (r.ask request).2.errors = r.errors ++ (r.reply request).reports :=
  (List.prefix_iff_eq_append.1 (accounts_ask h).1).symm

namespace MayReply

variable {lost lost' : Bool} {reply : Reply}

theorem reports_of_answered (h : MayReply lost reply lost') (ha : reply.answered = true) :
    reply.reports = [] := by
  cases h with
  | answer => rfl
  | number | error | silence => cases ha

theorem length_reports_le (h : MayReply lost reply lost') : reply.reports.length ≤ 1 := by
  cases h <;> simp

end MayReply

/-! ## All replies -/

/-- These replies can follow each other, from a reader that is lost or not. -/
inductive InTurn : Bool → List Reply → Prop
  | nil (lost : Bool) : InTurn lost []
  | cons {lost lost' : Bool} {reply : Reply} {replies : List Reply} : MayReply lost reply lost' →
      InTurn lost' replies → InTurn lost (reply :: replies)

theorem inTurn_replies {requests : List Request} (h : ∀ request ∈ requests, request ≠ .program) :
    InTurn r.lost (r.replies requests) := by
  induction requests generalizing r with
  | nil => exact .nil _
  | cons request requests ih =>
    obtain ⟨hrequest, hrequests⟩ := List.forall_mem_cons.1 h
    exact .cons (accounts_ask hrequest).2 (ih hrequests)

theorem errors_after {requests : List Request} (h : ∀ request ∈ requests, request ≠ .program) :
    (r.after requests).errors = r.errors ++ (r.replies requests).flatMap Reply.reports := by
  induction requests generalizing r with
  | nil => exact (List.append_nil _).symm
  | cons request requests ih =>
    obtain ⟨hrequest, hrequests⟩ := List.forall_mem_cons.1 h
    calc (r.after (request :: requests)).errors
      _ = (r.ask request).2.errors ++ ((r.ask request).2.replies requests).flatMap Reply.reports := ih hrequests
      _ = r.errors ++ (r.replies (request :: requests)).flatMap Reply.reports := by
        rw [errors_ask hrequest, List.append_assoc]
        rfl

namespace InTurn

variable {lost : Bool} {reply : Reply} {replies front back : List Reply}

theorem exists_of_mem (h : InTurn lost replies) (hmem : reply ∈ replies) :
    ∃ before after, MayReply before reply after := by
  induction h with
  | nil => cases hmem
  | cons hfirst _ ih =>
    rcases List.mem_cons.1 hmem with rfl | hmem
    · exact ⟨_, _, hfirst⟩
    · exact ih hmem

/-- Only what made the reader lost can make a refusal silent. -/
theorem lost_or_reported (h : InTurn lost (front ++ ⟨false, []⟩ :: back)) :
    lost = true ∨ ∃ earlier ∈ front, ∃ e, earlier = ⟨false, [e]⟩ ∧ e.code ≠ "E105" := by
  induction front generalizing lost with
  | nil =>
    obtain _ | ⟨hfirst, -⟩ := h
    cases hfirst
    exact .inl rfl
  | cons first front ih =>
    obtain _ | ⟨hfirst, hrest⟩ := h
    rcases ih hrest with hlost | ⟨earlier, hmem, hreported⟩
    · cases hfirst with
      | answer | number => exact .inl hlost
      | silence => exact .inl rfl
      | @error e hcode => exact .inr ⟨_, List.mem_cons_self, e, rfl, hcode⟩
    · exact .inr ⟨earlier, List.mem_cons_of_mem _ hmem, hreported⟩

end InTurn

theorem length_replies (r : Reader) (requests : List Request) :
    (r.replies requests).length = requests.length := by
  induction requests generalizing r with
  | nil => rfl
  | cons request requests ih => rw [replies, List.length_cons, ih, List.length_cons]

theorem InTurn.exists_earlier {replies front back : List Reply} {reply : Reply} (h : InTurn false replies)
    (hcut : replies = front ++ reply :: back) (hrefused : reply.answered = false) (hsilent : reply.reports = []) :
    ∃ earlier ∈ front, earlier.answered = false ∧ ∃ e, earlier.reports = [e] ∧ e.code ≠ "E105" := by
  obtain ⟨answered, reports⟩ := reply
  obtain rfl : answered = false := hrefused
  obtain rfl : reports = [] := hsilent
  rw [hcut] at h
  rcases h.lost_or_reported with hlost | ⟨earlier, hmem, e, rfl, hcode⟩
  · cases hlost
  · exact ⟨_, hmem, rfl, e, rfl, hcode⟩

/-- For all tokens and all requests for statements and expressions: the errors are what was reported on one request
after the other. A request that is answered reports nothing. The first one that is refused reports one error, and every
other at most one. If it reports none then an earlier one was refused, with an error that is not about a number. So a
request was refused if and only if there are errors. Tokens may have any offsets: these are natural numbers, and no
sum of them is out of range. -/
theorem refusals_reported (tokens : List Token) {requests : List Request}
    (h : ∀ request ∈ requests, request ≠ .program) :
    let errors := ((ofTokens tokens).after requests).errors
    let replies := (ofTokens tokens).replies requests
    replies.length = requests.length ∧ errors = replies.flatMap Reply.reports ∧
    (∀ front reply back, replies = front ++ reply :: back →
      (reply.answered = true → reply.reports = []) ∧
      (reply.answered = false →
        reply.reports.length ≤ 1 ∧
        ((∀ earlier ∈ front, earlier.answered = true) → ∃ e, reply.reports = [e]) ∧
        (reply.reports = [] →
          ∃ earlier ∈ front, earlier.answered = false ∧ ∃ e, earlier.reports = [e] ∧ e.code ≠ "E105"))) ∧
    ((∃ reply ∈ replies, reply.answered = false) ↔ errors ≠ []) := by
  intro errors replies
  have hturn : InTurn false replies := inTurn_replies (r := ofTokens tokens) h
  have herrors : errors = replies.flatMap Reply.reports := errors_after h
  refine ⟨length_replies _ _, herrors, fun front reply back hcut => ?_, ?_⟩
  · have hmem : reply ∈ replies := hcut ▸ List.mem_append_right _ List.mem_cons_self
    obtain ⟨_, _, hreply⟩ := hturn.exists_of_mem hmem
    refine ⟨hreply.reports_of_answered, fun hrefused => ⟨hreply.length_reports_le, fun hfirst => ?_,
      hturn.exists_earlier hcut hrefused⟩⟩
    rcases Nat.le_one_iff_eq_zero_or_eq_one.1 hreply.length_reports_le with hzero | hone
    · -- An earlier refusal would have made this one silent.
      obtain ⟨earlier, hearlier, hbefore, -⟩ :=
        hturn.exists_earlier hcut hrefused (List.eq_nil_of_length_eq_zero hzero)
      rw [hfirst earlier hearlier] at hbefore
      cases hbefore
    · exact List.length_eq_one_iff.1 hone
  · rw [herrors, ne_eq, List.flatMap_eq_nil_iff]
    constructor
    · rintro ⟨reply, hmem, hrefused⟩ hnone
      obtain ⟨front, back, hcut⟩ := List.append_of_mem hmem
      obtain ⟨earlier, hearlier, -, e, hreported, -⟩ := hturn.exists_earlier hcut hrefused (hnone reply hmem)
      rw [hnone earlier (hcut ▸ List.mem_append_left _ hearlier)] at hreported
      cases hreported
    · intro hsome
      obtain ⟨reply, hmem, hreports⟩ : ∃ reply ∈ replies, reply.reports ≠ [] := by simpa using hsome
      obtain ⟨_, _, hreply⟩ := hturn.exists_of_mem hmem
      refine ⟨reply, hmem, ?_⟩
      cases hanswered : reply.answered with
      | false => rfl
      | true => exact absurd (hreply.reports_of_answered hanswered) hreports

/-- Two numbers that do not fit, one of them behind signs that no statement begins with. -/
def hugeNumbers : List Token :=
  [⟨.number, "3000000000", 0, 10⟩, ⟨.number, "1", 11, 1⟩, ⟨.bang, "!", 13, 1⟩, ⟨.number, "9999999999", 14, 10⟩]

theorem refusals_reported_hugeNumbers :
    let requests : List Request := [.expression, .expression, .statement, .expression, .statement]
    let replies := (ofTokens hugeNumbers).replies requests
    (∀ request ∈ requests, request ≠ .program) ∧
    replies.map (fun reply => (reply.answered, reply.reports.map SyntaxError.code)) =
      [(false, ["E105"]), (true, []), (false, ["E102"]), (false, ["E105"]), (false, [])] ∧
    ((ofTokens hugeNumbers).after requests).errors = replies.flatMap Reply.reports ∧
    ((ofTokens hugeNumbers).after requests).errors ≠ [] := by
  intro requests replies
  have hparts : ∀ request ∈ requests, request ≠ .program := by decide
  have hrun : replies.map (fun reply => (reply.answered, reply.reports.map SyntaxError.code)) =
      [(false, ["E105"]), (true, []), (false, ["E102"]), (false, ["E105"]), (false, [])] := by
    decide +kernel
  obtain ⟨-, herrors, -, hiff⟩ := refusals_reported hugeNumbers hparts
  refine ⟨hparts, hrun, herrors, hiff.1 ⟨(ofTokens hugeNumbers).reply .expression, List.mem_cons_self, ?_⟩⟩
  decide +kernel

end Reader

end ClassCheck
