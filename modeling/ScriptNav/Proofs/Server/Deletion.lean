import Mathlib.Logic.Relation
import ScriptNav.Proofs.Server.Malformed
import ScriptNav.Proofs.Server.Twins

/-! Sessions with messages left out. A malformed message may be deleted from a session, with the
completion of its request if it puts one in flight: all other messages are answered as before, in
the same order, and the session ends as before. -/
namespace ScriptNav.Server
namespace Session

variable (settings : Settings)

/-- The events after a payload, for a session that has not received it. -/
def eventsWithout (s : Session) (payload : Text) (es : List Event) : List Event :=
  if (s.question? payload).isSome then es.filterMap (Event.without s.next) else es

/-- One session is another one with a malformed message left out. -/
inductive Deletes : List Event → List Event → Prop
  | malformed (front after : List Event) {payload : Text}
      (h : isMalformed settings.disk.cwd payload = true) :
      Deletes (front ++ .received payload :: after)
        (front ++ eventsWithout (run settings {} front).1 payload after)

/-- What remains of a session when malformed messages are deleted: it ends alike, with the same
documents, and sends the same replies to the same messages, apart from those to what is deleted. -/
structure Remains (es es' : List Event) : Prop where
  ending : ∀ e, endingOf settings e es' = endingOf settings e es
  bare : (run settings {} es').1.bare = (run settings {} es).1.bare
  sent : (run settings {} es').2.Sublist (run settings {} es).2
  answered : (answered settings {} es').Sublist (answered settings {} es)
  deleted : ∃ deleted : List (Text × List Reply),
    (∀ d ∈ deleted, isMalformed settings.disk.cwd d.1 = true ∧ AtMostOneReply d.1 d.2) ∧
      (Session.answered settings {} es).Perm (Session.answered settings {} es' ++ deleted)

variable {s : Session} {payload : Text}

section Question

theorem receive_of_question {q : Question} (h : s.question? payload = some q) :
    s.receive settings payload = (s.dispatch q.id q.topic q.params, []) := by
  obtain ⟨hopen, m, hm, hmethod, hid, hparams⟩ := (question?_eq_some_iff s payload).1 h
  have hne : m.method ≠ [] := by
    intro hempty
    rw [hempty] at hmethod
    cases hmethod
  simp [receive, hm, hne, handle, hmethod, request, hid, hopen, hparams]

theorem IsNumbered.filter_next (h : s.IsNumbered) :
    s.inFlight.filter (·.number != s.next) = s.inFlight :=
  List.filter_eq_self.2 fun r hr => by simpa using (h.lt r hr).ne

theorem IsTabled.filter_fresh (h : s.IsTabled) {id : Text} (hfresh : ∀ r ∈ s.inFlight, r.id ≠ id) :
    s.pending.filter (·.1 != id) = s.pending := by
  rw [List.filter_eq_self]
  intro entry hentry
  obtain ⟨r, hr, hid, -⟩ := h.inFlight entry.1 entry.2 hentry
  simpa [← hid] using hfresh r hr

/-- A session with a new request stands beside the session without. -/
theorem twins_dispatch (hs : s.IsNumbered) (ht : s.IsTabled) {id : Text}
    (hfresh : ∀ r ∈ s.inFlight, r.id ≠ id) (topic : Topic) (params : Option Text) :
    Twins s.next (s.dispatch id topic params) s := by
  have hlt : ∀ entry ∈ s.pending, entry.2 < s.next := by
    intro entry hentry
    obtain ⟨r, hr, -, hnumber⟩ := ht.inFlight entry.1 entry.2 hentry
    exact hnumber ▸ hs.lt r hr
  refine ⟨rfl, rfl, le_rfl, ?_, ?_⟩
  · have hsame : s.inFlight.map (Request.renumber (pastNumber s.next)) = s.inFlight := by
      refine (List.map_congr_left fun r hr => ?_).trans (List.map_id _)
      simp [Request.renumber, pastNumber, hs.lt r hr]
    simp [dispatch, List.filter_append, hs.filter_next, hsame]
  · have hold : s.pending.filter (·.2 != s.next) = s.pending :=
      List.filter_eq_self.2 fun entry hentry => by simpa using (hlt entry hentry).ne
    have hsame : (s.pending.map fun entry => (entry.1, pastNumber s.next entry.2)) = s.pending := by
      refine (List.map_congr_left fun entry hentry => ?_).trans (List.map_id _)
      simp [pastNumber, hlt entry hentry]
    simp [dispatch, ht.filter_fresh hfresh, hold, hsame]

end Question

section Append

theorem next_le_run (es : List Event) : s.next ≤ (s.run settings es).1.next := by
  induction es generalizing s with
  | nil => exact le_rfl
  | cons e es ih =>
    refine le_trans ?_ (ih (s := (s.step settings e).1))
    cases e with
    | received payload => simp [step, nextAfter]
    | completed n => simp [step]

theorem answersTo_append (n : Nat) (es es' : List Event) :
    answersTo settings n s (es ++ es') =
      answersTo settings n s es ++ answersTo settings n (s.run settings es).1 es' := by
  induction es generalizing s with
  | nil => rfl
  | cons e es ih =>
    rw [List.cons_append, answersTo, ih, answersTo, List.append_assoc]
    rfl

theorem exit?_append (es es' : List Event) :
    exit? settings s (es ++ es') =
      (exit? settings s es).or (exit? settings (s.run settings es).1 es') := by
  induction es generalizing s with
  | nil => rfl
  | cons e es ih =>
    cases e with
    | received payload =>
      show (if isExit payload then _ else _) = (if isExit payload then _ else _ : Option Ending).or _
      split_ifs
      · rfl
      · exact ih
    | completed n => exact ih

theorem hasDistinctIds_append {es es' : List Event} :
    s.HasDistinctIds settings (es ++ es') ↔
      s.HasDistinctIds settings es ∧ (s.run settings es).1.HasDistinctIds settings es' := by
  induction es generalizing s with
  | nil =>
    rw [hasDistinctIds_nil]
    exact ⟨fun h => ⟨h.nodup, h⟩, And.right⟩
  | cons e es ih =>
    rw [List.cons_append, hasDistinctIds_cons, ih, hasDistinctIds_cons, and_assoc]
    rfl

/-- Two ways to go on that answer the requests in flight alike make no difference to the messages
received before. -/
theorem exists_answered_append {front : List Event} (rest rest' : List Event)
    (h : ∀ n < (s.run settings front).1.next,
      answersTo settings n (s.run settings front).1 rest' =
        answersTo settings n (s.run settings front).1 rest) :
    ∃ early, answered settings s (front ++ rest) =
        early ++ answered settings (s.run settings front).1 rest ∧
      answered settings s (front ++ rest') =
        early ++ answered settings (s.run settings front).1 rest' := by
  induction front generalizing s with
  | nil => exact ⟨[], rfl, rfl⟩
  | cons e front ih =>
    obtain ⟨early, hrest, hrest'⟩ := ih (s := (s.step settings e).1) h
    cases e with
    | completed n => exact ⟨early, hrest, hrest'⟩
    | received payload =>
      have hreplies : (Exchange.mk s payload (front ++ rest')).replies settings =
          (Exchange.mk s payload (front ++ rest)).replies settings := by
        rw [replies_mk, replies_mk]
        cases hr : s.requestOf? payload with
        | none => rfl
        | some r =>
          obtain ⟨q, hq, -⟩ := Option.map_eq_some_iff.1 hr
          have hnext : r.number < ((s.receive settings payload).1.run settings front).1.next := by
            have hlater := next_le_run settings (s := (s.receive settings payload).1) front
            rw [next_receive, nextAfter, hq, Option.toList_some, List.length_singleton] at hlater
            have hnumber := number_of_requestOf? hr
            omega
          have hlate := h r.number hnext
          rw [Option.toList_some, List.flatMap_singleton, List.flatMap_singleton, answersTo_append,
            answersTo_append]
          rw [run] at hlate
          exact congrArg (fun late : List Reply => _ ++ (_ ++ late)) hlate
      refine ⟨(payload, (Exchange.mk s payload (front ++ rest)).replies settings) :: early, ?_, ?_⟩
      · exact congrArg (_ :: ·) hrest
      · rw [← hreplies]
        exact congrArg (_ :: ·) hrest'

end Append

section Deletion
variable {after : List Event}

/-- A session that receives a malformed message, and what becomes of it when it does not. -/
structure IsDispensable (s : Session) (payload : Text) (after rest : List Event) : Prop where
  bare : (s.run settings rest).1.bare = ((s.receive settings payload).1.run settings after).1.bare
  payloads : payloads rest = payloads after
  sent : (s.run settings rest).2.Sublist ((s.receive settings payload).1.run settings after).2
  answersTo : ∀ n < s.next, answersTo settings n s rest =
    answersTo settings n (s.receive settings payload).1 after
  answered : answered settings s rest = answered settings (s.receive settings payload).1 after
  hasDistinctIds : s.HasDistinctIds settings rest

theorem isDispensable_eventsWithout (hs : s.IsNumbered) (ht : s.IsTabled)
    (h : isMalformed settings.disk.cwd payload = true)
    (hids : s.HasDistinctIds settings (.received payload :: after)) :
    IsDispensable settings s payload after (eventsWithout s payload after) := by
  have hlater := hids.tail settings
  rw [step] at hlater
  rw [eventsWithout]
  cases hq : s.question? payload with
  | none =>
    have hreceive := receive_of_isMalformed settings h hq
    rw [hreceive] at hlater
    constructor <;> simp [hreceive, hlater]
  | some q =>
    have hfresh : ∀ r ∈ s.inFlight, r.id ≠ q.id := by
      have hnodup := hlater.nodup
      rw [receive_of_question settings hq] at hnodup
      simp only [dispatch, List.map_append, List.nodup_append] at hnodup
      exact fun r hr => hnodup.2.2 r.id (List.mem_map_of_mem hr) q.id (by simp)
    have htwins : Twins s.next (s.receive settings payload).1 s := by
      rw [receive_of_question settings hq]
      exact twins_dispatch hs ht hfresh _ _
    have hbeside := htwins.beside settings (ht.receive settings payload)
      (hs.receive settings payload) hlater
    refine ⟨(hbeside.twins_run settings).bare.symm, hbeside.payloads_eq settings,
      hbeside.sublist_run settings, ?_, hbeside.answered_eq settings,
      hbeside.hasDistinctIds settings hlater⟩
    intro n hn
    have hanswers := hbeside.answersTo_eq settings n
    rwa [pastNumber, if_pos hn] at hanswers

theorem atMostOneReply_replies (hs : s.IsNumbered) :
    AtMostOneReply payload ((Exchange.mk s payload after).replies settings) := by
  cases hq : s.question? payload with
  | none =>
    rw [Exchange.replies_of_none (x := ⟨s, payload, after⟩) hq]
    exact atMostOneReply_receive settings hq
  | some q =>
    obtain ⟨-, m, hm, -, hid, -⟩ := (question?_eq_some_iff s payload).1 hq
    rw [Exchange.replies_of_question (x := ⟨s, payload, after⟩) hs hq]
    split_ifs
    · exact .inr ⟨m, _, hm, by rw [hid]⟩
    · exact .inl rfl

/-- One malformed message may be deleted. -/
theorem Deletes.remains {es es' : List Event} (h : Deletes settings es es')
    (hids : HasDistinctIds settings {} es) :
    Remains settings es es' ∧ HasDistinctIds settings {} es' := by
  obtain @⟨front, after, payload, h⟩ := h
  obtain ⟨hfront, hrest⟩ := (hasDistinctIds_append settings).1 hids
  set s := (run settings {} front).1
  have hs : s.IsNumbered := isNumbered_empty.run settings front
  have ht : s.IsTabled := isTabled_empty.run settings isNumbered_empty front
  obtain ⟨hexit, hshut⟩ := isExit_of_isMalformed h
  have hdispensable := isDispensable_eventsWithout settings hs ht h hrest
  set rest := eventsWithout s payload after
  obtain ⟨early, hwhole, hpart⟩ := exists_answered_append settings
    (.received payload :: after) rest hdispensable.answersTo
  have hcons : answered settings s (.received payload :: after) =
      (payload, (Exchange.mk s payload after).replies settings) :: answered settings s rest := by
    rw [hdispensable.answered]
    rfl
  rw [hcons] at hwhole
  refine ⟨⟨?_, ?_, ?_, ?_, ?_⟩,
    (hasDistinctIds_append settings).2 ⟨hfront, hdispensable.hasDistinctIds⟩⟩
  · intro e
    have hend : exit? settings s rest = exit? settings s (.received payload :: after) := by
      have hpayloads : payloads (.received payload :: after) = payload :: payloads after := rfl
      rw [exit?_eq, exit?_eq, hdispensable.payloads, hpayloads]
      simp [hexit, hshut]
    rw [endingOf, endingOf, exit?_append, exit?_append, hend]
  · rw [run_append, run_append]
    exact hdispensable.bare
  · rw [run_append, run_append]
    refine List.Sublist.append_left ?_ _
    exact hdispensable.sent.trans (List.sublist_append_right _ _)
  · rw [hwhole, hpart]
    exact (List.sublist_cons_self _ _).append_left _
  · refine ⟨[(payload, (Exchange.mk s payload after).replies settings)], ?_, ?_⟩
    · intro d hd
      rw [List.mem_singleton.1 hd]
      exact ⟨h, atMostOneReply_replies settings hs⟩
    · rw [hwhole, hpart, List.append_assoc]
      exact (List.perm_append_singleton _ _).symm.append_left early

theorem remains_rfl (es : List Event) : Remains settings es es :=
  ⟨fun _ => rfl, rfl, .refl _, .refl _, [], nofun, by simp⟩

theorem Remains.trans {es es' es'' : List Event} (h : Remains settings es es')
    (h' : Remains settings es' es'') : Remains settings es es'' := by
  obtain ⟨deleted, hdeleted, hperm⟩ := h.deleted
  obtain ⟨deleted', hdeleted', hperm'⟩ := h'.deleted
  refine ⟨fun e => (h'.ending e).trans (h.ending e), h'.bare.trans h.bare, h'.sent.trans h.sent,
    h'.answered.trans h.answered, deleted' ++ deleted, ?_, ?_⟩
  · intro d hd
    exact (List.mem_append.1 hd).elim (hdeleted' d) (hdeleted d)
  · rw [← List.append_assoc]
    exact hperm.trans (hperm'.append_right deleted)

/-- So may any number of them, one after another. -/
theorem remains_of_deletes {es es' : List Event} (hids : HasDistinctIds settings {} es)
    (h : Relation.ReflTransGen (Deletes settings) es es') :
    Remains settings es es' ∧ HasDistinctIds settings {} es' := by
  induction h with
  | refl => exact ⟨remains_rfl settings es, hids⟩
  | tail _ hstep ih =>
    obtain ⟨hremains, hnext⟩ := hstep.remains settings ih.2
    exact ⟨ih.1.trans settings hremains, hnext⟩

end Deletion

/-- A malformed message under an id of its own leaves the session as it was: at once if it asks no
question, and else when its request is completed, with one reply at most. -/
theorem complete_receive_of_isMalformed (hs : s.IsNumbered) (ht : s.IsTabled)
    (h : isMalformed settings.disk.cwd payload = true)
    (hfresh : ∀ m ∈ Message.parse? payload, ∀ r ∈ s.inFlight, m.id ≠ some r.id) :
    let t := (s.receive settings payload).1
    (s.question? payload = none → t = s) ∧ t.bare = s.bare ∧
      (t.complete settings s.next).1 = { s with next := t.next } ∧
      AtMostOneReply payload
        ((s.receive settings payload).2 ++ (t.complete settings s.next).2) := by
  intro t
  cases hq : s.question? payload with
  | none =>
    have hsame : t = s := receive_of_isMalformed settings h hq
    have habsent : s.complete settings s.next = (s, []) :=
      complete_of_absent settings fun r hr => (hs.lt r hr).ne
    rw [hsame, habsent, List.append_nil]
    exact ⟨fun _ => rfl, rfl, rfl, atMostOneReply_receive settings hq⟩
  | some q =>
    obtain ⟨-, m, hm, -, hid, -⟩ := (question?_eq_some_iff s payload).1 hq
    have hkeep := ht.filter_fresh fun r hr heq => hfresh m hm r hr (by rw [hid, heq])
    have hreceive := receive_of_question settings hq
    have hcomplete := (hs.receive settings payload).complete_of_mem settings
      (mem_inFlight_of_question settings hq)
    have ht' : t = s.dispatch q.id q.topic q.params := congrArg Prod.fst hreceive
    have hdone : t.complete settings s.next = ({ s with next := t.next },
        [⟨some q.id, (Inquiry.mk q.topic q.params s.snapshot).answer settings⟩]) := by
      refine hcomplete.trans ?_
      rw [hreceive, ht']
      simp [dispatch, List.filter_append, hs.filter_next, hkeep]
    rw [hdone, hreceive]
    exact ⟨by simp, by rw [ht']; rfl, rfl, .inr ⟨m, _, hm, by rw [hid]; rfl⟩⟩

/-- Malformed messages change nothing. Whatever has happened before, such a message leaves documents,
workspace and requests as they were, and has one reply at most; and from a session in which requests
in flight have distinct ids, all such messages may be deleted. -/
theorem malformed_changes_nothing :
    (∀ front payload, isMalformed settings.disk.cwd payload = true →
      let s := (run settings {} front).1
      (∀ m ∈ Message.parse? payload, ∀ r ∈ s.inFlight, m.id ≠ some r.id) →
        let t := (s.receive settings payload).1
        (s.question? payload = none → t = s) ∧ t.bare = s.bare ∧
          (t.complete settings s.next).1 = { s with next := t.next } ∧
          AtMostOneReply payload
            ((s.receive settings payload).2 ++ (t.complete settings s.next).2)) ∧
      ∀ es es', HasDistinctIds settings {} es →
        Relation.ReflTransGen (Deletes settings) es es' → Remains settings es es' := by
  refine ⟨?_, fun es es' hids h => (remains_of_deletes settings hids h).1⟩
  intro front payload h s hfresh
  exact complete_receive_of_isMalformed settings (isNumbered_empty.run settings front)
    (isTabled_empty.run settings isNumbered_empty front) h hfresh

/-- A question in flight, then two that have no position: a line is negative, or too large. The
requests are completed out of order, and a payload is no message at all. -/
theorem malformed_changes_nothing_badPositions :
    let asking (n : Nat) (line : Json) : Text := message "textDocument/definition"
      [("id", .nat n), ("params", .object [
        ("textDocument", .object [("uri", .string "file:///a.gsc")]),
        ("position", .object [("line", line), ("character", .nat 0)])])]
    let front : List Event := [.received (asking 1 (.nat 0))]
    let negative := asking 2 (.int (-1))
    let large := asking 3 (.nat 0x100000000)
    let s := (run oneScript {} front).1
    let t := (s.receive oneScript negative).1
    let es := front ++ [.received negative, .received large, .completed 1, .received [],
      .completed 0, .completed 2, .received (message "shutdown" []), .received (message "exit" [])]
    let es' := front ++ [.completed 0, .received (message "shutdown" []),
      .received (message "exit" [])]
    t.inFlight.map Request.number = [0, 1] ∧
      (t.complete oneScript s.next).1 = { s with next := t.next } ∧ HasDistinctIds oneScript {} es ∧
      Relation.ReflTransGen (Deletes oneScript) es es' ∧ Remains oneScript es es' := by
  intro asking front negative large s t es es'
  have hnegative : isMalformed oneScript.disk.cwd negative = true := by decide +kernel
  have hlarge : isMalformed oneScript.disk.cwd large = true := by decide +kernel
  have hids : HasDistinctIds oneScript {} es := by
    have hall : ∀ front ∈ es.inits,
        ((run oneScript {} front).1.inFlight.map Request.id).Nodup := by decide +kernel
    exact fun front hfront => hall front ((List.mem_inits front es).2 hfront)
  have hdeletes : Relation.ReflTransGen (Deletes oneScript) es es' := by
    let leave : List Event := [.received (message "shutdown" []), .received (message "exit" [])]
    let once := front ++ .received large :: ([.received [], .completed 0, .completed 1] ++ leave)
    let twice := front ++ .received [] :: .completed 0 :: leave
    have hfirst : front ++ eventsWithout s negative (es.drop 2) = once := by decide +kernel
    have hsecond : front ++ eventsWithout s large (once.drop 2) = twice := by decide +kernel
    have hthird : front ++ eventsWithout s [] (twice.drop 2) = es' := by decide +kernel
    have h₁ : Deletes oneScript es once := hfirst ▸ .malformed front (es.drop 2) hnegative
    have h₂ : Deletes oneScript once twice := hsecond ▸ .malformed front (once.drop 2) hlarge
    have h₃ : Deletes oneScript twice es' := hthird ▸ .malformed front (twice.drop 2) rfl
    exact ((Relation.ReflTransGen.single h₁).tail h₂).tail h₃
  obtain ⟨hstate, hdeletion⟩ := malformed_changes_nothing oneScript
  have hafter := (hstate front negative hnegative (by decide +kernel)).2.2.1
  refine ⟨?_, ?_, hids, hdeletes, hdeletion es es' hids hdeletes⟩
  · decide +kernel
  · clear_value negative
    exact hafter

end Session
end ScriptNav.Server
