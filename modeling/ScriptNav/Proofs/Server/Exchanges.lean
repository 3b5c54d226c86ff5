import Mathlib.Data.List.Perm.Basic
import ScriptNav.Proofs.Server.Requests

/-! The replies of a session, message by message. Each reply belongs to the message it answers: to
one that is answered at once, or to the one that put a request in flight. A request is answered when
it is completed, and only if nothing has cancelled it by then. -/
namespace ScriptNav.Server
namespace Session

variable (settings : Settings)

/-- What is sent on the completion of one request. -/
def answersTo (n : Nat) (s : Session) : List Event → List Reply
  | [] => []
  | e :: es =>
    (if e = .completed n then (s.step settings e).2 else []) ++
      answersTo n (s.step settings e).1 es

/-- Whether one request is cancelled before it is completed. -/
def cancels (n : Nat) (s : Session) : List Event → Bool
  | [] => false
  | .received payload :: es =>
    (s.cancelledBy payload).contains n || cancels n (s.receive settings payload).1 es
  | .completed m :: es => m != n && cancels n (s.complete settings m).1 es

/-- A message that is handled, with the session that receives it and all that happens after it. -/
structure Exchange where
  session : Session
  payload : Text
  after : List Event

namespace Exchange

def question? (x : Exchange) : Option Question := x.session.question? x.payload

/-- The replies to a message: those sent at once, and those sent when its request is completed. -/
def replies (x : Exchange) : List Reply :=
  let (s, direct) := x.session.receive settings x.payload
  direct ++ (x.question?.map fun _ => answersTo settings x.session.next s x.after).getD []

/-- Whether the request of a message is completed. -/
def isCompleted (x : Exchange) : Bool := x.after.contains (.completed x.session.next)

/-- Whether the request of a message is cancelled before it is completed. -/
def isCancelled (x : Exchange) : Bool :=
  cancels settings x.session.next (x.session.receive settings x.payload).1 x.after

end Exchange

/-- The payloads among events. -/
def payloads (es : List Event) : List Text :=
  es.filterMap fun
    | .received payload => some payload
    | .completed _ => none

/-- The messages that are handled in the course of events. -/
def exchanges (s : Session) : List Event → List Exchange
  | [] => []
  | .received payload :: es =>
    ⟨s, payload, es⟩ :: exchanges (s.receive settings payload).1 es
  | .completed n :: es => exchanges (s.complete settings n).1 es

variable {s : Session}

theorem run_append (es es' : List Event) :
    s.run settings (es ++ es') =
      (((s.run settings es).1.run settings es').1,
        (s.run settings es).2 ++ ((s.run settings es).1.run settings es').2) := by
  induction es generalizing s with
  | nil => rfl
  | cons e es ih => simp only [List.cons_append, run, ih, List.append_assoc]

theorem IsNumbered.run (h : s.IsNumbered) (es : List Event) : (s.run settings es).1.IsNumbered := by
  induction es generalizing s with
  | nil => exact h
  | cons e es ih => exact ih (h.step settings e)

theorem answersTo_received (n : Nat) (payload : Text) (es : List Event) :
    answersTo settings n s (.received payload :: es) =
      answersTo settings n (s.receive settings payload).1 es := rfl

theorem answersTo_completed_self (n : Nat) (es : List Event) :
    answersTo settings n s (.completed n :: es) =
      (s.complete settings n).2 ++ answersTo settings n (s.complete settings n).1 es := by
  rw [answersTo, if_pos rfl]
  rfl

theorem answersTo_completed_of_ne {n m : Nat} (h : m ≠ n) (es : List Event) :
    answersTo settings n s (.completed m :: es) =
      answersTo settings n (s.complete settings m).1 es := by
  rw [answersTo, if_neg (by simpa using h)]
  rfl

/-- A number that was given, and is not in flight any more, is never answered again. -/
theorem answersTo_of_absent {n : Nat} {es : List Event} (hlt : n < s.next)
    (h : ∀ r ∈ s.inFlight, r.number ≠ n) : answersTo settings n s es = [] := by
  induction es generalizing s with
  | nil => rfl
  | cons e es ih =>
    cases e with
    | received payload =>
      have hlt' : n < s.nextAfter payload := Nat.lt_add_right _ hlt
      have habsent : ∀ r ∈ s.inFlightAfter payload, r.number ≠ n := by
        intro r hr
        obtain ⟨r', hr', rfl⟩ | hr := mem_inFlightAfter.1 hr
        · exact h r' hr'
        · exact number_of_requestOf? hr ▸ Nat.ne_of_gt hlt
      rw [answersTo_received]
      exact ih (by simpa using hlt') (by simpa using habsent)
    | completed m =>
      have hrest := ih (s := (s.complete settings m).1) (by simpa using hlt) (by
        intro r hr
        rw [inFlight_complete] at hr
        exact h r (List.mem_of_mem_filter hr))
      by_cases hm : m = n
      · subst hm
        rw [answersTo_completed_self, hrest, complete_of_absent settings h]
        rfl
      · rw [answersTo_completed_of_ne settings hm, hrest]

/-- What a completion sends is all that its request is ever sent. -/
theorem IsNumbered.answersTo_completed (h : s.IsNumbered) {r : Request} (hr : r ∈ s.inFlight)
    (es : List Event) :
    answersTo settings r.number s (.completed r.number :: es) =
      (s.complete settings r.number).2 := by
  have habsent : ∀ r' ∈ (s.complete settings r.number).1.inFlight, r'.number ≠ r.number := by
    intro r' hr'
    rw [inFlight_complete] at hr'
    simpa using (List.mem_filter.1 hr').2
  rw [answersTo_completed_self, answersTo_of_absent settings (by simpa using h.lt r hr) habsent,
    List.append_nil]

/-- The life of a request: it is answered if it is completed and nothing cancels it before. -/
theorem IsNumbered.answersTo_of_mem (h : s.IsNumbered) {r : Request} (hr : r ∈ s.inFlight)
    (es : List Event) :
    answersTo settings r.number s es =
      if es.contains (.completed r.number) &&
          !(r.isCancelled || cancels settings r.number s es) then
        [⟨some r.id, r.inquiry.answer settings⟩]
      else [] := by
  -- The request varies with the session, as a message on the way may flag it as cancelled.
  induction es generalizing s r with
  | nil => rfl
  | cons e es ih =>
    cases e with
    | received payload =>
      have hlife := ih (h.receive settings payload) (mem_inFlight_receive settings hr payload)
      simp only [Request.number_cancelIf] at hlife
      rw [answersTo_received, hlife]
      simp [cancels, Request.cancelIf, and_assoc]
    | completed m =>
      by_cases hm : m = r.number
      · subst hm
        rw [h.answersTo_completed settings hr, h.complete_of_mem settings hr]
        cases r.isCancelled <;> simp [cancels]
      · have hne : ¬ r.number = m := Ne.symm hm
        rw [answersTo_completed_of_ne settings hm,
          ih (h.complete settings m) (mem_inFlight_complete settings hr hm)]
        simp [cancels, hm, hne]

section Conservation

theorem replies_mk (payload : Text) (es : List Event) :
    (Exchange.mk s payload es).replies settings = (s.receive settings payload).2 ++
      (s.requestOf? payload).toList.flatMap fun r =>
        answersTo settings r.number (s.receive settings payload).1 es := by
  rw [Exchange.replies, Exchange.question?, requestOf?]
  cases s.question? payload <;> simp

/-- A completion sends what it sends to one request, and the others wait on. -/
theorem IsNumbered.answers_completed_perm (h : s.IsNumbered) (n : Nat) (es : List Event) :
    ((s.complete settings n).2 ++ (s.complete settings n).1.inFlight.flatMap fun r =>
        answersTo settings r.number (s.complete settings n).1 es).Perm
      (s.inFlight.flatMap fun r => answersTo settings r.number s (.completed n :: es)) := by
  by_cases hn : ∃ r ∈ s.inFlight, r.number = n
  · obtain ⟨r, hr, rfl⟩ := hn
    have hself := h.answersTo_completed settings hr es
    have hinFlight := inFlight_complete settings (s := s) r.number
    obtain ⟨front, back, hsplit⟩ := List.append_of_mem hr
    have hothers : ∀ r' ∈ front ++ back, r.number ≠ r'.number := by
      have hnodup := h.nodup
      rw [hsplit, List.map_append, List.map_cons, List.nodup_middle] at hnodup
      intro r' hr' heq
      refine (List.nodup_cons.1 hnodup).1 ?_
      rw [heq, ← List.map_append]
      exact List.mem_map_of_mem hr'
    have hfilter : s.inFlight.filter (·.number != r.number) = front ++ back := by
      rw [hsplit, List.filter_append, List.filter_cons_of_neg (by simp), ← List.filter_append,
        List.filter_eq_self.2 (by simpa using fun r' hr' => (hothers r' hr').symm)]
    have hwait : (front ++ back).flatMap (fun r' =>
          answersTo settings r'.number (s.complete settings r.number).1 es) =
        (front ++ back).flatMap fun r' =>
          answersTo settings r'.number s (.completed r.number :: es) :=
      List.flatMap_congr fun r' hr' => (answersTo_completed_of_ne settings (hothers r' hr') es).symm
    rw [hinFlight, hfilter, hwait, hsplit, ← hself]
    simp only [List.flatMap_append, List.flatMap_cons]
    exact List.perm_append_comm_assoc ..
  · have habsent : ∀ r ∈ s.inFlight, n ≠ r.number := by simpa [eq_comm] using hn
    rw [complete_of_absent settings fun r hr => (habsent r hr).symm, List.nil_append]
    refine List.Perm.of_eq (List.flatMap_congr fun r hr => ?_)
    rw [answersTo_completed_of_ne settings (habsent r hr),
      complete_of_absent settings fun r hr => (habsent r hr).symm]

/-- Every reply of a run belongs to a message of the run, or to a request that was in flight at its
beginning. -/
theorem IsNumbered.run_perm (h : s.IsNumbered) (es : List Event) :
    (s.run settings es).2.Perm ((exchanges settings s es).flatMap (Exchange.replies settings) ++
      s.inFlight.flatMap fun r => answersTo settings r.number s es) := by
  induction es generalizing s with
  | nil => simp [Session.run, exchanges, answersTo]
  | cons e es ih =>
    cases e with
    | received payload =>
      -- The answer to the new request moves from those in flight to its own message.
      have htail := (ih (h.receive settings payload)).append_left (s.receive settings payload).2
      refine htail.trans ?_
      simp only [exchanges, List.flatMap_cons, replies_mk, inFlight_receive, inFlightAfter,
        List.flatMap_append, List.flatMap_map, Request.number_cancelIf, answersTo_received,
        List.append_assoc]
      refine List.Perm.append_left _ ?_
      rw [← List.append_assoc]
      exact List.perm_append_comm
    | completed n =>
      have htail := (ih (h.complete settings n)).append_left (s.complete settings n).2
      refine htail.trans ((List.perm_append_comm_assoc ..).trans ?_)
      exact (h.answers_completed_perm settings n es).append_left _

end Conservation

section Replies

theorem map_payload_exchanges (es : List Event) :
    (exchanges settings s es).map Exchange.payload = payloads es := by
  induction es generalizing s with
  | nil => rfl
  | cons e es ih =>
    cases e with
    | received payload => exact congrArg _ ih
    | completed n => exact ih

/-- A message is handled in the session that all before it leads to. -/
theorem exists_of_mem_exchanges {es : List Event} {x : Exchange}
    (hx : x ∈ exchanges settings s es) :
    ∃ front, es = front ++ .received x.payload :: x.after ∧
      x.session = (s.run settings front).1 := by
  induction es generalizing s with
  | nil => cases hx
  | cons e es ih =>
    cases e with
    | received payload =>
      obtain rfl | hx := List.mem_cons.1 hx
      · exact ⟨[], rfl, rfl⟩
      · obtain ⟨front, rfl, hsession⟩ := ih hx
        exact ⟨.received payload :: front, rfl, hsession⟩
    | completed n =>
      obtain ⟨front, rfl, hsession⟩ := ih hx
      exact ⟨.completed n :: front, rfl, hsession⟩

variable {settings} {x : Exchange}

/-- What is no question is answered at once or not at all. -/
theorem Exchange.replies_of_none (h : x.question? = none) :
    x.replies settings = (x.session.receive settings x.payload).2 := by
  simp [replies, h]

/-- A question is answered if its request is completed and nothing cancels it before, and the answer
is that of the session which received it. -/
theorem Exchange.replies_of_question (hs : x.session.IsNumbered) {q : Question}
    (h : x.question? = some q) :
    x.replies settings =
      if x.isCompleted && !x.isCancelled settings then
        [⟨some q.id, (Inquiry.mk q.topic q.params x.session.snapshot).answer settings⟩]
      else [] := by
  obtain ⟨s, payload, after⟩ := x
  have hasked : s.question? payload = some q := h
  have hlife := (hs.receive settings payload).answersTo_of_mem settings
    (mem_inFlight_of_question settings hasked) after
  rw [replies_mk, replies_receive_of_question settings s payload hasked, requestOf?, hasked]
  simpa [isCompleted, isCancelled] using hlife

end Replies
end Session
end ScriptNav.Server
