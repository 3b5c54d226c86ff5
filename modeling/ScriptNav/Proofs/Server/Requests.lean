import Mathlib.Data.List.Nodup
import Mathlib.Tactic.SplitIfs
import ScriptNav.Proofs.Server.Notices

/-! What an event does to the requests of a session. A message puts at most one request in flight,
or cancels requests by way of the pending table; a completion takes a request out. All else in a
session is decided by its messages alone, whichever requests are in flight. -/
namespace ScriptNav.Server

open Text

/-- A question about a position, with the id by which it is answered. -/
structure Question where
  id : Text
  topic : Topic
  params : Option Text
deriving DecidableEq

/-- The question that a payload asks. -/
def Question.ofPayload? (payload : Text) : Option Question :=
  (Message.parse? payload).bind fun m =>
    match Method.ofText m.method with
    | .inquire topic => m.id.map fun id => ⟨id, topic, m.params⟩
    | _ => none

/-- The id of the request that a payload cancels. -/
def cancelledId? (payload : Text) : Option Text :=
  (Message.parse? payload).bind fun m =>
    match Method.ofText m.method with
    | .cancel => Message.source? (Json.sources (m.params.getD [])) "id"
    | _ => none

/-- Whether a payload shuts the session down. -/
def shutsDown (payload : Text) : Bool :=
  (Message.parse? payload).any fun m => Method.ofText m.method == .shutdown

/-- A request that is cancelled if its number is among those given. -/
def Request.cancelIf (numbers : List Nat) (r : Request) : Request :=
  { r with isCancelled := r.isCancelled || numbers.contains r.number }

@[simp] theorem Request.number_cancelIf (numbers : List Nat) (r : Request) :
    (r.cancelIf numbers).number = r.number := rfl

@[simp] theorem Request.id_cancelIf (numbers : List Nat) (r : Request) :
    (r.cancelIf numbers).id = r.id := rfl

@[simp] theorem Request.map_cancelIf_nil (rs : List Request) : rs.map (cancelIf []) = rs :=
  List.map_id'' (fun r => by simp [cancelIf]) rs

namespace Session

/-- The question that a payload asks of a session; one that is shut down takes no questions. -/
def question? (s : Session) (payload : Text) : Option Question :=
  if s.isShutdown then none else Question.ofPayload? payload

/-- The request that a payload puts in flight. -/
def requestOf? (s : Session) (payload : Text) : Option Request :=
  (s.question? payload).map fun q => ⟨s.next, q.id, ⟨q.topic, q.params, s.snapshot⟩, false⟩

/-- The numbers of the requests whose cancellation a payload asks for: all that are pending, or the
one that is pending under its id. -/
def cancelledBy (s : Session) (payload : Text) : List Nat :=
  if shutsDown payload then s.pending.map Prod.snd
  else ((cancelledId? payload).bind fun id => s.pending.lookup id).toList

/-- A session apart from its requests. -/
def bare (s : Session) : Session := { s with inFlight := [], pending := [], next := 0 }

@[simp] theorem snapshot_bare (s : Session) : s.bare.snapshot = s.snapshot := rfl

@[simp] theorem question?_bare (s : Session) : s.bare.question? = s.question? := rfl

/-- The requests in flight after a payload. -/
def inFlightAfter (s : Session) (payload : Text) : List Request :=
  s.inFlight.map (Request.cancelIf (s.cancelledBy payload)) ++ (s.requestOf? payload).toList

/-- The pending table after a payload. -/
def pendingAfter (s : Session) (payload : Text) : List (Text × Nat) :=
  match s.question? payload with
  | some q => (q.id, s.next) :: s.pending.filter (·.1 != q.id)
  | none => s.pending

/-- The number of the next request after a payload. -/
def nextAfter (s : Session) (payload : Text) : Nat := s.next + (s.question? payload).toList.length

/-- What comes of a payload, with the requests as they are after it. -/
def withRequests (s : Session) (payload : Text) (outcome : Session × List Reply) :
    Session × List Reply :=
  ({ outcome.1 with
      inFlight := s.inFlightAfter payload
      pending := s.pendingAfter payload
      next := s.nextAfter payload }, outcome.2)

section Handlers

/-- A handler that neither looks at the requests of a session nor changes them. -/
def IgnoresRequests (handler : Session → Session × List Reply) : Prop :=
  ∀ s, handler s =
    ({ (handler s.bare).1 with inFlight := s.inFlight, pending := s.pending, next := s.next },
      (handler s.bare).2)

variable (settings : Settings) (cwd : Text) (params : Option Text)

theorem ignoresRequests_pass : IgnoresRequests fun s => (s, []) := fun _ => rfl

theorem ignoresRequests_setUp (m : Message) : IgnoresRequests fun s => s.setUp settings m := by
  intro s
  simp only [setUp]
  split <;> rfl

theorem ignoresRequests_onDocument (d : DocumentItem) (f : Text → Source.Overlay → Source.Overlay) :
    IgnoresRequests fun s => (onDocument cwd s d f, []) := by
  intro s
  simp only [onDocument]
  split_ifs <;> rfl

theorem ignoresRequests_didOpen : IgnoresRequests fun s => (s.didOpen cwd params, []) := by
  intro s
  simp only [didOpen]
  split
  · rfl
  · exact ignoresRequests_onDocument cwd _ _ s

theorem ignoresRequests_didChange : IgnoresRequests fun s => (s.didChange cwd params, []) := by
  intro s
  simp only [didChange]
  split
  · rfl
  · exact ignoresRequests_onDocument cwd _ _ s

theorem ignoresRequests_didSave : IgnoresRequests fun s => (s.didSave cwd params, []) := by
  intro s
  simp only [didSave]
  split
  · exact ignoresRequests_onDocument cwd _ _ s
  · rfl

theorem ignoresRequests_didClose : IgnoresRequests fun s => (s.didClose cwd params, []) := by
  intro s
  simp only [didClose]
  split
  · rfl
  · exact ignoresRequests_onDocument cwd _ _ s

theorem ignoresRequests_unknown (m : Message) : IgnoresRequests fun s => s.request m none := by
  rintro ⟨_, _ | _, _, _, _⟩ <;> simp only [request] <;> cases m.id <;> rfl

end Handlers

section Receive
variable (settings : Settings) (s : Session) (payload : Text)

theorem cancel_eq (params : Option Text) :
    s.cancel params = s.cancelAll
      ((Message.source? (Json.sources (params.getD [])) "id").bind
        fun id => s.pending.lookup id).toList := by
  rw [cancel]
  split
  · next h => rw [h]; rfl
  · next h => rw [h]; simp [cancelAll]

theorem question?_of_none {payload : Text} (h : Question.ofPayload? payload = none) :
    s.question? payload = none := by
  rw [question?, h, ite_self]

/-- A payload that neither asks a question nor cancels one leaves the requests alone. -/
theorem IgnoresRequests.eq_withRequests {handler : Session → Session × List Reply}
    (h : IgnoresRequests handler) (hq : Question.ofPayload? payload = none)
    (hc : s.cancelledBy payload = []) : handler s = s.withRequests payload (handler s.bare) := by
  rw [withRequests, inFlightAfter, pendingAfter, nextAfter, requestOf?,
    question?_of_none s hq, hc, Request.map_cancelIf_nil]
  simpa using h s

/-- A payload that asks no question at most cancels requests. -/
theorem cancelAll_eq_withRequests (hq : Question.ofPayload? payload = none) :
    (s.cancelAll (s.cancelledBy payload), []) = s.withRequests payload (s.bare, []) := by
  rw [withRequests, inFlightAfter, pendingAfter, nextAfter, requestOf?, question?_of_none s hq]
  simp [cancelAll, bare, Request.cancelIf]

/-- A question is put in flight, unless it has no id or the session is shut down. -/
theorem request_eq_withRequests {m : Message} {topic : Topic}
    (hq : Question.ofPayload? payload = m.id.map fun id => ⟨id, topic, m.params⟩)
    (hc : s.cancelledBy payload = []) :
    s.request m (some topic) = s.withRequests payload (s.bare.request m (some topic)) := by
  rw [withRequests, inFlightAfter, pendingAfter, nextAfter, requestOf?, hc,
    Request.map_cancelIf_nil, question?, hq]
  obtain ⟨_, _ | _, _, _, _⟩ := s <;> simp only [request] <;> cases m.id <;> simp [bare, dispatch]

/-- What a payload does to the requests of a session is what is said of it, and nothing else that it
does depends on them. -/
theorem receive_eq :
    s.receive settings payload = s.withRequests payload (s.bare.receive settings payload) := by
  cases hm : Message.parse? payload with
  | none =>
    simp only [receive, hm]
    exact ignoresRequests_pass.eq_withRequests s payload (by simp [Question.ofPayload?, hm])
      (by simp [cancelledBy, shutsDown, cancelledId?, hm])
  | some m =>
    have hquestion : Question.ofPayload? payload = match Method.ofText m.method with
        | .inquire topic => m.id.map fun id => ⟨id, topic, m.params⟩
        | _ => none := by rw [Question.ofPayload?, hm]; rfl
    have hcancelled : cancelledId? payload = match Method.ofText m.method with
        | .cancel => Message.source? (Json.sources (m.params.getD [])) "id"
        | _ => none := by rw [cancelledId?, hm]; rfl
    have hshut : shutsDown payload = (Method.ofText m.method == .shutdown) := by
      rw [shutsDown, hm]; rfl
    -- All methods but three are handled without a look at the requests.
    have hignored {handler : Session → Session × List Reply} (h : IgnoresRequests handler)
        (hq : Question.ofPayload? payload = none) (hs : shutsDown payload = false)
        (hc : cancelledId? payload = none) := h.eq_withRequests s payload hq
          (by simp [cancelledBy, hs, hc])
    simp only [receive, hm, handle]
    split_ifs with hempty
    · rw [List.isEmpty_iff.1 hempty] at hquestion hcancelled hshut
      exact hignored ignoresRequests_pass hquestion hshut hcancelled
    cases hmethod : Method.ofText m.method <;> rw [hmethod] at hquestion hcancelled hshut
    case setUp => exact hignored (ignoresRequests_setUp settings m) hquestion hshut hcancelled
    case ready => exact hignored ignoresRequests_pass hquestion hshut hcancelled
    case exit => exact hignored ignoresRequests_pass hquestion hshut hcancelled
    case didOpen => exact hignored (ignoresRequests_didOpen _ _) hquestion hshut hcancelled
    case didChange => exact hignored (ignoresRequests_didChange _ _) hquestion hshut hcancelled
    case didSave => exact hignored (ignoresRequests_didSave _ _) hquestion hshut hcancelled
    case didClose => exact hignored (ignoresRequests_didClose _ _) hquestion hshut hcancelled
    case unknown => exact hignored (ignoresRequests_unknown m) hquestion hshut hcancelled
    case shutdown =>
      have hall := cancelAll_eq_withRequests s payload hquestion
      rw [cancelledBy, hshut] at hall
      exact congrArg (fun outcome : Session × List Reply =>
        ({ outcome.1 with isShutdown := true }, [Reply.mk m.id (.result .null)])) hall
    case cancel =>
      have hone := cancelAll_eq_withRequests s payload hquestion
      rw [cancelledBy, hshut, hcancelled] at hone
      rw [cancel_eq, cancel_eq]
      exact hone
    case inquire topic =>
      exact request_eq_withRequests s payload hquestion (by simp [cancelledBy, hshut, hcancelled])

@[simp] theorem inFlight_receive :
    (s.receive settings payload).1.inFlight = s.inFlightAfter payload := by
  rw [receive_eq]
  rfl

@[simp] theorem pending_receive :
    (s.receive settings payload).1.pending = s.pendingAfter payload := by
  rw [receive_eq]
  rfl

@[simp] theorem next_receive : (s.receive settings payload).1.next = s.nextAfter payload := by
  rw [receive_eq]
  rfl

theorem bare_receive :
    (s.receive settings payload).1.bare = (s.bare.receive settings payload).1.bare := by
  rw [receive_eq]
  rfl

theorem replies_receive : (s.receive settings payload).2 = (s.bare.receive settings payload).2 := by
  rw [receive_eq]
  rfl

theorem question?_eq_some_iff {q : Question} :
    s.question? payload = some q ↔ s.isShutdown = false ∧ ∃ m, Message.parse? payload = some m ∧
      Method.ofText m.method = .inquire q.topic ∧ m.id = some q.id ∧ m.params = q.params := by
  obtain ⟨id, topic, params⟩ := q
  simp only [question?, Question.ofPayload?]
  cases s.isShutdown with
  | true => simp
  | false =>
    simp only [Bool.false_eq_true, if_false, true_and, Option.bind_eq_some_iff]
    refine exists_congr fun m => and_congr_right fun _ => ?_
    cases Method.ofText m.method <;> simp [and_left_comm]

/-- A question is not answered at once. -/
theorem replies_receive_of_question {q : Question} (h : s.question? payload = some q) :
    (s.receive settings payload).2 = [] := by
  obtain ⟨hopen, m, hm, hmethod, hid, -⟩ := (question?_eq_some_iff s payload).1 h
  simp [receive, hm, handle, hmethod, request, hid, hopen, apply_ite]

end Receive

section Numbers
variable (settings : Settings) {s : Session}

/-- No two requests in flight have one number, and a number that was given is not given again. -/
structure IsNumbered (s : Session) : Prop where
  nodup : (s.inFlight.map Request.number).Nodup
  lt : ∀ r ∈ s.inFlight, r.number < s.next

theorem isNumbered_empty : IsNumbered {} := ⟨List.nodup_nil, nofun⟩

theorem number_of_requestOf? {payload : Text} {r : Request} (h : s.requestOf? payload = some r) :
    r.number = s.next := by
  obtain ⟨q, -, rfl⟩ := Option.map_eq_some_iff.1 h
  rfl

theorem mem_inFlightAfter {payload : Text} {r : Request} :
    r ∈ s.inFlightAfter payload ↔
      (∃ r' ∈ s.inFlight, r'.cancelIf (s.cancelledBy payload) = r) ∨
        s.requestOf? payload = some r := by
  simp [inFlightAfter]

/-- A request in flight stays in flight when a payload is handled, perhaps cancelled. -/
theorem mem_inFlight_receive {r : Request} (hr : r ∈ s.inFlight) (payload : Text) :
    r.cancelIf (s.cancelledBy payload) ∈ (s.receive settings payload).1.inFlight := by
  rw [inFlight_receive, mem_inFlightAfter]
  exact .inl ⟨r, hr, rfl⟩

/-- A question puts its request in flight. -/
theorem mem_inFlight_of_question {payload : Text} {q : Question}
    (h : s.question? payload = some q) :
    ⟨s.next, q.id, ⟨q.topic, q.params, s.snapshot⟩, false⟩ ∈
      (s.receive settings payload).1.inFlight := by
  rw [inFlight_receive, mem_inFlightAfter, requestOf?, h]
  exact .inr rfl

theorem IsNumbered.receive (h : s.IsNumbered) (payload : Text) :
    (s.receive settings payload).1.IsNumbered := by
  constructor
  · rw [inFlight_receive, inFlightAfter, List.map_append, List.map_map, List.nodup_append]
    refine ⟨h.nodup, ?_, ?_⟩
    · cases s.requestOf? payload <;> simp
    · -- A new request has the next number, and those in flight have smaller ones.
      intro a ha b hb hab
      obtain ⟨r, hr, rfl⟩ := List.mem_map.1 ha
      obtain ⟨r', hr', rfl⟩ := List.mem_map.1 hb
      have hlt := h.lt r hr
      have hnew := number_of_requestOf? (Option.mem_toList.1 hr')
      simp only [Function.comp_apply, Request.number_cancelIf] at hab
      omega
  · intro r hr
    rw [next_receive, nextAfter]
    rw [inFlight_receive, mem_inFlightAfter] at hr
    obtain ⟨r', hr', rfl⟩ | hr := hr
    · exact Nat.lt_add_right _ (h.lt r' hr')
    · obtain ⟨q, hq, rfl⟩ := Option.map_eq_some_iff.1 hr
      simp [hq]

theorem complete_of_absent {n : Nat} (h : ∀ r ∈ s.inFlight, r.number ≠ n) :
    s.complete settings n = (s, []) := by
  have hnone : s.inFlight.find? (·.number == n) = none := by simpa [List.find?_eq_none] using h
  rw [complete, hnone]

theorem IsNumbered.eq_of_number (h : s.IsNumbered) {r r' : Request} (hr : r ∈ s.inFlight)
    (hr' : r' ∈ s.inFlight) (heq : r.number = r'.number) : r = r' :=
  List.inj_on_of_nodup_map h.nodup hr hr' heq

theorem IsNumbered.complete_of_mem (h : s.IsNumbered) {r : Request} (hr : r ∈ s.inFlight) :
    s.complete settings r.number =
      ({ s with
          inFlight := s.inFlight.filter (·.number != r.number)
          pending := s.pending.filter (·.1 != r.id) },
        if r.isCancelled then [] else [⟨some r.id, r.inquiry.answer settings⟩]) := by
  cases hfind : s.inFlight.find? (·.number == r.number) with
  | none => simpa using List.find?_eq_none.1 hfind r hr
  | some r' =>
    have heq : r' = r := h.eq_of_number (List.mem_of_find?_eq_some hfind) hr
      (by simpa using List.find?_some hfind)
    rw [complete, hfind, heq]

theorem inFlight_complete (n : Nat) :
    (s.complete settings n).1.inFlight = s.inFlight.filter (·.number != n) := by
  rw [complete]
  split
  · next h => exact (List.filter_eq_self.2 (by simpa [List.find?_eq_none] using h)).symm
  · rfl

/-- A request in flight stays in flight when another one is completed. -/
theorem mem_inFlight_complete {r : Request} (hr : r ∈ s.inFlight) {n : Nat} (hne : n ≠ r.number) :
    r ∈ (s.complete settings n).1.inFlight := by
  rw [inFlight_complete, List.mem_filter]
  exact ⟨hr, by simpa using Ne.symm hne⟩

@[simp] theorem next_complete (n : Nat) : (s.complete settings n).1.next = s.next := by
  rw [complete]
  split <;> rfl

theorem bare_complete (n : Nat) : (s.complete settings n).1.bare = s.bare := by
  rw [complete]
  split <;> rfl

theorem IsNumbered.complete (h : s.IsNumbered) (n : Nat) :
    (s.complete settings n).1.IsNumbered := by
  constructor
  · rw [inFlight_complete]
    exact h.nodup.sublist (List.filter_sublist.map _)
  · intro r hr
    rw [inFlight_complete] at hr
    rw [next_complete]
    exact h.lt r (List.mem_of_mem_filter hr)

theorem IsNumbered.step (h : s.IsNumbered) (e : Event) : (s.step settings e).1.IsNumbered := by
  cases e with
  | received payload => exact h.receive settings payload
  | completed n => exact h.complete settings n

end Numbers
end Session
end ScriptNav.Server
