import Mathlib.Data.List.Infix
import ScriptNav.Proofs.Server.Exchanges

/-! Responses of a whole session. A message that is owed a reply gets exactly one, under its own id,
whatever the schedule; only a question that is withdrawn before its completion gets none. The
pending table is what makes this so: as long as no two requests in flight share an id, it holds
exactly the requests in flight. -/
namespace ScriptNav.Server

open Text

/-- The methods of notifications; nothing is ever sent in return. -/
def notifications : List Text := [
  "initialized", "exit", "$/cancelRequest", "textDocument/didOpen", "textDocument/didChange",
  "textDocument/didSave", "textDocument/didClose"]

/-- Whether a message is owed a reply: any that has an id, and the two that are answered without
one, unless it is a notification or has no method. -/
def Message.isOwed (m : Message) : Bool :=
  !m.method.isEmpty && !notifications.contains m.method &&
    (m.id.isSome || m.method == "initialize" || m.method == "shutdown")

theorem Method.ofText_of_notMem {name : Text} (h : name ∉ names.map Prod.fst) :
    ofText name = .unknown := by
  have hnone : names.lookup name = none := by
    rw [List.lookup_eq_none_iff]
    intro entry hentry
    simpa using fun heq : name = entry.1 => h (heq ▸ List.mem_map_of_mem hentry)
  rw [ofText, hnone, Option.getD_none]

/-- The messages that are owed a reply, by what is done with them. -/
theorem Message.isOwed_eq (m : Message) : m.isOwed =
    match Method.ofText m.method with
    | .setUp | .shutdown => true
    | .inquire _ | .unknown => !m.method.isEmpty && m.id.isSome
    | _ => false := by
  obtain ⟨id, method, params⟩ := m
  by_cases hknown : method ∈ Method.names.map Prod.fst
  · simp only [Method.names, List.map_cons, List.map_nil, List.mem_cons, List.not_mem_nil,
      or_false] at hknown
    rcases hknown with rfl | rfl | rfl | rfl | rfl | rfl | rfl | rfl | rfl | rfl | rfl <;>
      cases id <;> rfl
  · have hnotice : method ∉ notifications := fun h =>
      hknown ((by decide : ∀ name ∈ notifications, name ∈ Method.names.map Prod.fst) method h)
    have hsetUp : (method == "initialize") = false :=
      beq_eq_false_iff_ne.2 fun h => hknown (h ▸ by decide)
    have hshutdown : (method == "shutdown") = false :=
      beq_eq_false_iff_ne.2 fun h => hknown (h ▸ by decide)
    simp [isOwed, Method.ofText_of_notMem hknown, hnotice, hsetUp, hshutdown]

namespace Session

variable (settings : Settings)

/-- Whether an event withdraws the question that was asked under an id. -/
def withdraws (id : Text) : Event → Bool
  | .received payload => shutsDown payload || cancelledId? payload == some id
  | .completed _ => false

/-- Whether the question of a message is withdrawn: its id is cancelled, or the session is shut
down, after its dispatch and before its completion. -/
def Exchange.isWithdrawn (x : Exchange) : Bool :=
  x.question?.any fun q =>
    (x.after.takeWhile (· != .completed x.session.next)).any (withdraws q.id)

/-- A message has all the replies that it is owed, and no others: one under its own id, or none. -/
def Exchange.IsSettled (x : Exchange) : Prop :=
  match Message.parse? x.payload with
  | none => x.replies settings = []
  | some m =>
    if m.isOwed && !x.isWithdrawn then ∃ answer, x.replies settings = [⟨m.id, answer⟩]
    else x.replies settings = []

/-- At no time do two requests in flight share an id. -/
def HasDistinctIds (s : Session) (es : List Event) : Prop :=
  ∀ front, front <+: es → ((s.run settings front).1.inFlight.map Request.id).Nodup

/-- The pending table holds the requests in flight. -/
def IsPaired (s : Session) : Prop :=
  ∀ id n, (id, n) ∈ s.pending ↔ ∃ r ∈ s.inFlight, r.id = id ∧ r.number = n

variable {s t : Session}

section Pending

theorem HasDistinctIds.nodup {es : List Event} (h : s.HasDistinctIds settings es) :
    (s.inFlight.map Request.id).Nodup := h [] es.nil_prefix

theorem HasDistinctIds.tail {e : Event} {es : List Event}
    (h : s.HasDistinctIds settings (e :: es)) :
    (s.step settings e).1.HasDistinctIds settings es :=
  fun front hfront => h (e :: front) ((List.prefix_cons_inj e).2 hfront)

theorem isPaired_empty : IsPaired {} := by simp [IsPaired]

/-- A new request does not push out another one, as their ids differ. -/
theorem IsPaired.receive (h : s.IsPaired) {payload : Text}
    (hids : ((s.receive settings payload).1.inFlight.map Request.id).Nodup) :
    (s.receive settings payload).1.IsPaired := by
  intro id n
  rw [inFlight_receive, inFlightAfter, requestOf?] at hids ⊢
  rw [pending_receive, pendingAfter]
  cases hq : s.question? payload with
  | none => simpa using h id n
  | some q =>
    have hfresh : ∀ r ∈ s.inFlight, r.id ≠ q.id := by
      rw [hq, List.map_append, List.nodup_append] at hids
      exact fun r hr => hids.2.2 r.id (by simpa using ⟨r, hr, rfl⟩) q.id (by simp)
    have hkeep : (id, n) ∈ s.pending ∧ id ≠ q.id ↔ ∃ r ∈ s.inFlight, r.id = id ∧ r.number = n := by
      rw [h id n]
      refine ⟨And.left, fun hr => ⟨hr, ?_⟩⟩
      obtain ⟨r, hr, rfl, -⟩ := hr
      exact hfresh r hr
    simp only [List.mem_cons, Prod.mk.injEq, List.mem_filter, bne_iff_ne, hkeep]
    simp [or_comm, eq_comm]

/-- A completion takes its own entry out of the table, and no other. -/
theorem IsPaired.complete (h : s.IsPaired) (hs : s.IsNumbered)
    (hids : (s.inFlight.map Request.id).Nodup) (m : Nat) :
    (s.complete settings m).1.IsPaired := by
  by_cases hm : ∃ r ∈ s.inFlight, r.number = m
  · obtain ⟨r, hr, rfl⟩ := hm
    rw [hs.complete_of_mem settings hr]
    intro id n
    -- The table is cleared by id and the flight by number: here these single out one request.
    have hsame : ∀ r' ∈ s.inFlight, r'.id = r.id ↔ r'.number = r.number := by
      intro r' hr'
      constructor
      · intro heq
        rw [List.inj_on_of_nodup_map hids hr' hr heq]
      · intro heq
        rw [hs.eq_of_number hr' hr heq]
    simp only [List.mem_filter, bne_iff_ne, h id n]
    constructor
    · rintro ⟨⟨r', hr', rfl, rfl⟩, hne⟩
      exact ⟨r', ⟨hr', mt (hsame r' hr').2 hne⟩, rfl, rfl⟩
    · rintro ⟨r', ⟨hr', hne⟩, rfl, rfl⟩
      exact ⟨⟨r', hr', rfl, rfl⟩, mt (hsame r' hr').1 hne⟩
  · rw [complete_of_absent settings (by simpa using hm)]
    exact h

theorem IsPaired.step (h : s.IsPaired) (hs : s.IsNumbered) {e : Event} {es : List Event}
    (hids : s.HasDistinctIds settings (e :: es)) : (s.step settings e).1.IsPaired := by
  cases e with
  | received payload => exact h.receive settings (hids.tail settings).nodup
  | completed n => exact h.complete settings hs hids.nodup n

end Pending

section Withdrawal

theorem IsPaired.lookup_eq_some_iff (h : s.IsPaired) (hids : (s.inFlight.map Request.id).Nodup)
    {id : Text} {n : Nat} :
    s.pending.lookup id = some n ↔ ∃ r ∈ s.inFlight, r.id = id ∧ r.number = n := by
  have hmem {m : Nat} (hm : s.pending.lookup id = some m) : (id, m) ∈ s.pending := by
    obtain ⟨front, back, hsplit, -⟩ := List.lookup_eq_some_iff.1 hm
    rw [hsplit]
    exact List.mem_append_right _ List.mem_cons_self
  constructor
  · exact fun hn => (h id n).1 (hmem hn)
  · intro hr
    obtain ⟨r, hr, hid, rfl⟩ := hr
    cases hm : s.pending.lookup id with
    | none =>
      have hpending := (h id r.number).2 ⟨r, hr, hid, rfl⟩
      simpa using List.lookup_eq_none_iff.1 hm _ hpending
    | some m =>
      obtain ⟨r', hr', hid', rfl⟩ := (h id m).1 (hmem hm)
      rw [List.inj_on_of_nodup_map hids hr' hr (hid'.trans hid.symm)]

/-- A message cancels a request just if it withdraws the question. -/
theorem IsPaired.contains_cancelledBy (h : s.IsPaired) (hs : s.IsNumbered)
    (hids : (s.inFlight.map Request.id).Nodup) {r : Request} (hr : r ∈ s.inFlight)
    (payload : Text) :
    (s.cancelledBy payload).contains r.number = withdraws r.id (.received payload) := by
  rw [cancelledBy, withdraws]
  cases hshut : shutsDown payload with
  | true =>
    have hpending := (h r.id r.number).2 ⟨r, hr, rfl, rfl⟩
    simpa using ⟨r.id, hpending⟩
  | false =>
    cases hid : cancelledId? payload with
    | none => simp
    | some id =>
      have hlookup : s.pending.lookup id = some r.number ↔ id = r.id := by
        rw [h.lookup_eq_some_iff hids]
        constructor
        · rintro ⟨r', hr', rfl, heq⟩
          rw [hs.eq_of_number hr' hr heq]
        · rintro rfl
          exact ⟨r, hr, rfl, rfl⟩
      rw [Bool.eq_iff_iff]
      simpa using hlookup

theorem IsPaired.cancels_eq (h : s.IsPaired) (hs : s.IsNumbered) {es : List Event}
    (hids : s.HasDistinctIds settings es) {r : Request} (hr : r ∈ s.inFlight) :
    cancels settings r.number s es =
      (es.takeWhile (· != .completed r.number)).any (withdraws r.id) := by
  induction es generalizing s r with
  | nil => rfl
  | cons e es ih =>
    have htail {r : Request} := ih (r := r) (h.step settings hs hids) (hs.step settings e)
      (hids.tail settings)
    cases e with
    | received payload =>
      have hlater := htail (mem_inFlight_receive settings hr payload)
      simp only [Request.number_cancelIf, Request.id_cancelIf, Session.step] at hlater
      rw [cancels, h.contains_cancelledBy hs hids.nodup hr, hlater]
      rfl
    | completed m =>
      by_cases hm : m = r.number
      · subst hm
        simp [cancels]
      · have hlater := htail (mem_inFlight_complete settings hr hm)
        rw [Session.step] at hlater
        simp [cancels, hm, hlater, withdraws]

end Withdrawal

section Settlement

/-- What is in flight and is not completed stays in flight. -/
theorem completed_mem_of_settled {es : List Event} {r : Request} (hr : r ∈ s.inFlight)
    (h : (s.run settings es).1.inFlight = []) : .completed r.number ∈ es := by
  induction es generalizing s r with
  | nil => exact absurd hr (by rw [show s.inFlight = [] from h]; exact List.not_mem_nil)
  | cons e es ih =>
    cases e with
    | received payload =>
      have hlater := ih (mem_inFlight_receive settings hr payload) h
      exact List.mem_cons_of_mem _ hlater
    | completed m =>
      by_cases hm : m = r.number
      · rw [hm]
        exact List.mem_cons_self
      · exact List.mem_cons_of_mem _ (ih (mem_inFlight_complete settings hr hm) h)

theorem replies_setUp (m : Message) : ∃ answer, (s.setUp settings m).2 = [⟨m.id, answer⟩] := by
  rw [setUp]
  split <;> exact ⟨_, rfl⟩

/-- A message that is no question is answered at once if it is owed a reply. -/
theorem replies_receive_of_message {payload : Text} {m : Message}
    (hm : Message.parse? payload = some m) (hq : s.question? payload = none) :
    if m.isOwed then ∃ answer, (s.receive settings payload).2 = [⟨m.id, answer⟩]
    else (s.receive settings payload).2 = [] := by
  simp only [receive, hm, m.isOwed_eq]
  by_cases hempty : m.method.isEmpty
  · have hmethod : Method.ofText m.method = .unknown := by
      rw [List.isEmpty_iff.1 hempty]
      rfl
    simp [hempty, hmethod]
  · simp only [hempty, handle]
    cases hmethod : Method.ofText m.method with
    | setUp => exact replies_setUp settings m
    | shutdown => exact ⟨_, rfl⟩
    | ready | exit | cancel | didOpen | didChange | didSave | didClose => rfl
    | unknown =>
      cases hid : m.id with
      | none => simp [request, hid]
      | some id => cases hopen : s.isShutdown <;> simp [request, hid, hopen]
    | inquire topic =>
      cases hid : m.id with
      | none => simp [request, hid]
      | some id =>
        have hshut : s.isShutdown = true := by
          by_contra hopen
          have hasked := (question?_eq_some_iff s payload (q := ⟨id, topic, m.params⟩)).2
            ⟨by simpa using hopen, m, hm, hmethod, hid, rfl⟩
          rw [hq] at hasked
          cases hasked
        simp [request, hid, hshut]

/-- A message is settled once nothing is in flight any more. -/
theorem isSettled_mk (h : s.IsPaired) (hs : s.IsNumbered) {payload : Text} {after : List Event}
    (hids : s.HasDistinctIds settings (.received payload :: after))
    (hdone : (s.run settings (.received payload :: after)).1.inFlight = []) :
    (Exchange.mk s payload after).IsSettled settings := by
  rw [Exchange.IsSettled]
  cases hq : s.question? payload with
  | none =>
    have hnone : (Exchange.mk s payload after).question? = none := hq
    rw [Exchange.replies_of_none hnone, Exchange.isWithdrawn, hnone]
    cases hm : Message.parse? payload with
    | none => simp [receive, hm]
    | some m => simpa using replies_receive_of_message settings hm hq
  | some q =>
    obtain ⟨-, m, hm, hmethod, hid, -⟩ := (question?_eq_some_iff s payload).1 hq
    have howed : m.isOwed = true := by
      have hmethod' : m.method ≠ [] := by
        intro hempty
        rw [hempty] at hmethod
        cases hmethod
      simpa [m.isOwed_eq, hmethod, hid] using hmethod'
    have hmem := mem_inFlight_of_question settings hq
    have hcompleted := completed_mem_of_settled settings hmem hdone
    have hcancels := (h.step settings hs hids).cancels_eq settings (hs.step settings _)
      (hids.tail settings) hmem
    have hwithdrawn : (Exchange.mk s payload after).isCancelled settings =
        (Exchange.mk s payload after).isWithdrawn := by
      rw [Exchange.isWithdrawn, show (Exchange.mk s payload after).question? = some q from hq]
      exact hcancels
    rw [Exchange.replies_of_question (x := ⟨s, payload, after⟩) hs hq, hwithdrawn]
    cases hw : (Exchange.mk s payload after).isWithdrawn <;>
      simp [hm, howed, hid, hcompleted, Exchange.isCompleted]

end Settlement

section Flags

/-- A session in which it is not told which requests are cancelled. -/
def unflagged (s : Session) : Session :=
  { s with inFlight := s.inFlight.map fun r => { r with isCancelled := false } }

/-- What does not look at the flags is the same in sessions that differ in them. -/
theorem eq_of_unflagged_eq {α : Type} {f : Session → α} (hf : ∀ u, f (unflagged u) = f u)
    (h : s.unflagged = t.unflagged) : f s = f t := by
  rw [← hf, h, hf]

theorem unflagged_receive (payload : Text) :
    (s.receive settings payload).1.unflagged =
      (s.unflagged.receive settings payload).1.unflagged := by
  have hinFlight : (s.receive settings payload).1.unflagged.inFlight =
      (s.unflagged.receive settings payload).1.unflagged.inFlight := by
    simp only [unflagged, inFlight_receive, inFlightAfter, List.map_append, List.map_map]
    rfl
  rw [receive_eq, receive_eq settings s.unflagged] at hinFlight ⊢
  exact congrArg (fun rs => { (s.bare.receive settings payload).1 with
    inFlight := rs, pending := s.pendingAfter payload, next := s.nextAfter payload }) hinFlight

theorem unflagged_complete (n : Nat) :
    (s.complete settings n).1.unflagged = (s.unflagged.complete settings n).1.unflagged := by
  simp only [complete, unflagged, List.find?_map, Function.comp_def]
  cases s.inFlight.find? (·.number == n) <;> simp [List.filter_map, Function.comp_def]

theorem unflagged_step (e : Event) :
    (s.step settings e).1.unflagged = (s.unflagged.step settings e).1.unflagged := by
  cases e with
  | received payload => exact unflagged_receive settings payload
  | completed n => exact unflagged_complete settings n

/-- Sessions that differ in what is cancelled differ in nothing else afterwards. -/
theorem unflagged_step_congr (h : s.unflagged = t.unflagged) (e : Event) :
    (s.step settings e).1.unflagged = (t.step settings e).1.unflagged := by
  rw [unflagged_step, h, ← unflagged_step]

/-- Whether a request is cancelled in the course of events does not depend on what was cancelled
before. -/
theorem cancels_congr (h : s.unflagged = t.unflagged) (n : Nat) (es : List Event) :
    cancels settings n s es = cancels settings n t es := by
  induction es generalizing s t with
  | nil => rfl
  | cons e es ih =>
    have hnext := ih (unflagged_step_congr settings h e)
    cases e with
    | received payload =>
      have hpending : s.cancelledBy payload = t.cancelledBy payload :=
        eq_of_unflagged_eq (f := fun u => u.cancelledBy payload) (fun _ => rfl) h
      rw [cancels, cancels, hpending]
      exact congrArg _ hnext
    | completed m => exact congrArg _ hnext

theorem map_replies_congr (h : s.unflagged = t.unflagged) (hs : s.IsNumbered) (ht : t.IsNumbered)
    (es : List Event) :
    (exchanges settings s es).map (Exchange.replies settings) =
      (exchanges settings t es).map (Exchange.replies settings) := by
  induction es generalizing s t with
  | nil => rfl
  | cons e es ih =>
    have hstep := unflagged_step_congr settings h e
    have htail := ih hstep (hs.step settings e) (ht.step settings e)
    cases e with
    | completed n => exact htail
    | received payload =>
      refine congrArg₂ List.cons ?_ htail
      have hbare : s.bare = t.bare := eq_of_unflagged_eq (fun _ => rfl) h
      have hnext : s.next = t.next := eq_of_unflagged_eq (fun _ => rfl) h
      have hquestion : s.question? = t.question? := by rw [← question?_bare, hbare, question?_bare]
      cases hq : t.question? payload with
      | none =>
        have hq' : s.question? payload = none := hquestion ▸ hq
        rw [Exchange.replies_of_none (x := ⟨s, payload, es⟩) hq',
          Exchange.replies_of_none (x := ⟨t, payload, es⟩) hq, replies_receive, hbare,
          ← replies_receive]
      | some q =>
        have hsnapshot : s.snapshot = t.snapshot := by rw [← snapshot_bare, hbare, snapshot_bare]
        have hcancels := cancels_congr settings hstep s.next es
        rw [Exchange.replies_of_question (x := ⟨s, payload, es⟩) hs (hquestion ▸ hq),
          Exchange.replies_of_question (x := ⟨t, payload, es⟩) ht hq]
        simp only [Exchange.isCompleted, Exchange.isCancelled, hsnapshot, ← hnext]
        rw [show cancels settings s.next (s.receive settings payload).1 es = _ from hcancels]
        rfl

theorem cancelledId?_eq_some_iff {payload id : Text} :
    cancelledId? payload = some id ↔ ∃ m, Message.parse? payload = some m ∧
      Method.ofText m.method = .cancel ∧
        Message.source? (Json.sources (m.params.getD [])) "id" = some id := by
  simp only [cancelledId?, Option.bind_eq_some_iff]
  refine exists_congr fun m => and_congr_right fun _ => ?_
  cases Method.ofText m.method <;> simp

/-- A cancellation by id changes nothing but what is cancelled. -/
theorem unflagged_receive_of_cancelledId {payload id : Text} (h : cancelledId? payload = some id) :
    (s.receive settings payload).1.unflagged = s.unflagged := by
  obtain ⟨m, hm, hmethod, -⟩ := cancelledId?_eq_some_iff.1 h
  have hne : m.method ≠ [] := by
    intro hempty
    rw [hempty] at hmethod
    cases hmethod
  simp only [receive, hm, handle, hmethod, List.isEmpty_iff, hne, if_false, cancel_eq, cancelAll,
    unflagged, List.map_map, Function.comp_def]

/-- A cancellation by id does not change the answer to a request that has another id. -/
theorem answersTo_receive_of_cancelledId (h : s.IsPaired) (hs : s.IsNumbered)
    (hids : (s.inFlight.map Request.id).Nodup) {payload id : Text}
    (hid : cancelledId? payload = some id) {r : Request} (hr : r ∈ s.inFlight) (hne : r.id ≠ id)
    (es : List Event) :
    answersTo settings r.number (s.receive settings payload).1 es =
      answersTo settings r.number s es := by
  have hshut : shutsDown payload = false := by
    obtain ⟨m, hm, hmethod, -⟩ := cancelledId?_eq_some_iff.1 hid
    simp [shutsDown, hm, hmethod]
  have hcancelled : (s.cancelledBy payload).contains r.number = false := by
    rw [h.contains_cancelledBy hs hids hr, withdraws, hshut, hid]
    simpa using hne.symm
  have hkept : r.cancelIf (s.cancelledBy payload) = r := by
    rw [Request.cancelIf, hcancelled, Bool.or_false]
  have hr' := mem_inFlight_receive settings hr payload
  rw [hkept] at hr'
  rw [(hs.receive settings payload).answersTo_of_mem settings hr', hs.answersTo_of_mem settings hr,
    cancels_congr settings (unflagged_receive_of_cancelledId settings hid)]

end Flags

/-- A session that is run to its end: every request is completed, and no two requests that share an
id are in flight at a time. -/
structure IsWhole (es : List Event) : Prop where
  settled : (run settings {} es).1.inFlight = []
  hasDistinctIds : HasDistinctIds settings {} es

theorem HasDistinctIds.run {front es : List Event} (h : s.HasDistinctIds settings (front ++ es)) :
    (s.run settings front).1.HasDistinctIds settings es := by
  intro more hmore
  have hprefix := h (front ++ more) ((List.prefix_append_right_inj front).2 hmore)
  rwa [run_append] at hprefix

theorem IsPaired.run (h : s.IsPaired) (hs : s.IsNumbered) {front es : List Event}
    (hids : s.HasDistinctIds settings (front ++ es)) : (s.run settings front).1.IsPaired := by
  induction front generalizing s with
  | nil => exact h
  | cons e front ih =>
    exact ih (h.step settings hs hids) (hs.step settings e) (hids.tail settings)

/-- Exactly-once responses: in a session that is run to its end, every reply belongs to a message,
and every message has the replies that it is owed. To cancel a request by its id changes neither the
replies to later messages nor the answer to any request in flight under another id. -/
theorem responses_exactly_once {es : List Event} (h : IsWhole settings es) :
    (exchanges settings {} es).map Exchange.payload = payloads es ∧
      (run settings {} es).2.Perm
        ((exchanges settings {} es).flatMap (Exchange.replies settings)) ∧
      (∀ x ∈ exchanges settings {} es, x.IsSettled settings) ∧
      ∀ front payload after id, es = front ++ .received payload :: after →
        cancelledId? payload = some id →
          let s := (run settings {} front).1
          let t := (s.receive settings payload).1
          (exchanges settings t after).map (Exchange.replies settings) =
              (exchanges settings s after).map (Exchange.replies settings) ∧
            ∀ r ∈ s.inFlight, r.id ≠ id →
              answersTo settings r.number t after = answersTo settings r.number s after := by
  refine ⟨map_payload_exchanges settings es, ?_, ?_, ?_⟩
  · simpa using isNumbered_empty.run_perm settings es
  · -- The invariants hold in the session that receives the message.
    intro x hx
    obtain ⟨front, rfl, hsession⟩ := exists_of_mem_exchanges settings hx
    obtain ⟨s, payload, after⟩ := x
    subst hsession
    refine isSettled_mk settings (isPaired_empty.run settings isNumbered_empty h.hasDistinctIds)
      (isNumbered_empty.run settings front) (h.hasDistinctIds.run settings) ?_
    have hdone := h.settled
    rwa [run_append] at hdone
  · rintro front payload after id rfl hid s t
    have hpaired := isPaired_empty.run settings isNumbered_empty h.hasDistinctIds
    have hs := isNumbered_empty.run settings front
    refine ⟨?_, fun r hr hne => ?_⟩
    · exact map_replies_congr settings (unflagged_receive_of_cancelledId settings hid)
        (hs.receive settings payload) hs after
    · exact answersTo_receive_of_cancelledId settings hpaired hs
        (h.hasDistinctIds.run settings).nodup hid hr hne after

/-- Two questions of which the first is cancelled, and the second answered; then messages of every
kind, with ids and without. -/
theorem responses_exactly_once_twoQuestions :
    let settings : Settings :=
      { disk := ⟨.directory [], ("/" : String)⟩, workspace := fun _ => ⟨[], [], 0, false⟩ }
    let payload (method : String) (more : List (Text × Json)) : Text :=
      Json.render (.object (("method", .string method) :: more))
    let message (method : String) (more : List (Text × Json)) : Event :=
      .received (payload method more)
    let id (n : Nat) : Text × Json := ("id", .nat n)
    let cancel := payload "$/cancelRequest" [("params", .object [id 1])]
    let front := [message "textDocument/hover" [id 1], message "textDocument/hover" [id 2]]
    let after := [message "textDocument/didClose" [id 2], .completed 1,
      message "textDocument/hover" [], message "textDocument/definition" [id 2], .completed 0,
      message "shutdown" [], message "initialized" [id 4], message "initialize" [id 5],
      message "workspace/symbol" [id 6], .completed 2, message "exit" []]
    let es := front ++ .received cancel :: after
    let s := (run settings {} front).1
    IsWhole settings es ∧
      (∀ x ∈ exchanges settings {} es, x.IsSettled settings) ∧
      answersTo settings 1 (s.receive settings cancel).1 after = answersTo settings 1 s after ∧
      (run settings {} es).2.map Reply.id =
        [some (ofString "2"), none, some (ofString "5"), some (ofString "6")] := by
  intro settings payload message id cancel front after es s
  have hdistinct : ∀ front ∈ es.inits,
      ((run settings {} front).1.inFlight.map Request.id).Nodup := by decide +kernel
  have h : IsWhole settings es := by
    refine ⟨List.isEmpty_iff.1 (by decide +kernel), fun front hfront => ?_⟩
    exact hdistinct front ((List.mem_inits front es).2 hfront)
  obtain ⟨-, -, hsettled, hothers⟩ := responses_exactly_once settings h
  have hcancel : cancelledId? cancel = some (ofString "1") := by decide +kernel
  have hsecond := (hothers front cancel after _ rfl hcancel).2
    ⟨1, ofString "2", ⟨.hover, none, {}⟩, false⟩ (List.mem_cons_of_mem _ (List.mem_singleton.2 rfl))
    (by decide)
  exact ⟨h, hsettled, hsecond, by decide +kernel⟩

end Session
end ScriptNav.Server
