import ScriptNav.Proofs.Server.Exchanges

/-! Schedules of a session. A request may be completed at any time after its dispatch, in any order
with the other requests and with the messages. Whatever the schedule, the answers that are sent are
those of the prompt one, in which nothing waits. -/
namespace ScriptNav.Server
namespace Session

variable (settings : Settings)

/-- The completions of all that is in flight. -/
def completions (s : Session) : List Event := s.inFlight.map fun r => .completed r.number

/-- The prompt schedule of payloads: each request is completed before the next payload is
handled. -/
def promptly (s : Session) : List Text → List Event
  | [] => []
  | payload :: rest =>
    let t := (s.receive settings payload).1
    .received payload :: (t.completions ++ promptly (t.run settings t.completions).1 rest)

/-- A message under one schedule, and the same message under the prompt one. If it is no question,
its replies are the same. A question has one answer under the prompt schedule, and under the other
one it has the same answer if it is completed and nothing cancels it before, and none otherwise. -/
structure Exchange.Matches (x prompt : Exchange) : Prop where
  payload_eq : x.payload = prompt.payload
  question_eq : x.question? = prompt.question?
  direct : x.question? = none → x.replies settings = prompt.replies settings
  prompt_answer : ∀ q, prompt.question? = some q → prompt.replies settings =
    [⟨some q.id, (Inquiry.mk q.topic q.params prompt.session.snapshot).answer settings⟩]
  answer : ∀ q, x.question? = some q → x.replies settings =
    if x.isCompleted && !x.isCancelled settings then prompt.replies settings else []

variable {s t : Session}

section Completions

theorem inFlight_run_completed (ns : List Nat) :
    (s.run settings (ns.map .completed)).1.inFlight =
      s.inFlight.filter fun r => !ns.contains r.number := by
  induction ns generalizing s with
  | nil => simp [run]
  | cons n ns ih =>
    simp only [List.map_cons, run, step, ih, inFlight_complete, List.filter_filter]
    refine List.filter_congr fun r _ => ?_
    by_cases hr : r.number = n <;> simp [hr]

theorem bare_run_completed (ns : List Nat) :
    (s.run settings (ns.map .completed)).1.bare = s.bare := by
  induction ns generalizing s with
  | nil => rfl
  | cons n ns ih => exact ih.trans (bare_complete settings n)

theorem exchanges_completed_append (ns : List Nat) (es : List Event) :
    exchanges settings s (ns.map .completed ++ es) =
      exchanges settings (s.run settings (ns.map .completed)).1 es := by
  induction ns generalizing s with
  | nil => rfl
  | cons n ns ih => exact ih

theorem completions_eq (s : Session) :
    s.completions = (s.inFlight.map Request.number).map .completed := by
  rw [completions, List.map_map]
  rfl

theorem inFlight_run_completions : (s.run settings s.completions).1.inFlight = [] := by
  rw [completions_eq, inFlight_run_completed, List.filter_eq_nil_iff]
  intro r hr
  simpa using ⟨r, hr, rfl⟩

end Completions

/-- What a server that waits for each request sends is what the prompt schedule sends. -/
theorem replies_serve (e : FrameError) (payloads : List Text) :
    (serve settings s e payloads).1 =
      (s.run settings (promptly settings s (payloads.takeWhile fun p => !isExit p))).2 := by
  induction payloads generalizing s with
  | nil => rfl
  | cons payload rest ih =>
    rw [serve]
    split_ifs with hexit
    · simp [hexit, promptly, run]
    · simp [hexit, promptly, run, step, run_append, settle, completions, ih]

theorem exchanges_promptly (payload : Text) (rest : List Text) :
    let t := (s.receive settings payload).1
    exchanges settings s (promptly settings s (payload :: rest)) =
      ⟨s, payload, t.completions ++ promptly settings (t.run settings t.completions).1 rest⟩ ::
        exchanges settings (t.run settings t.completions).1
          (promptly settings (t.run settings t.completions).1 rest) := by
  intro t
  rw [promptly, exchanges]
  congr 1
  rw [completions_eq, exchanges_completed_append]

/-- A question that is put to a session with nothing in flight is answered first of all. -/
theorem completions_receive {payload : Text} {q : Question} (hfree : s.inFlight = [])
    (h : s.question? payload = some q) :
    (s.receive settings payload).1.completions = [.completed s.next] := by
  rw [completions, inFlight_receive, inFlightAfter, requestOf?, hfree, h]
  rfl

theorem matches_prompt {payload : Text} (hs : s.IsNumbered) (ht : t.IsNumbered)
    (hbare : s.bare = t.bare) (hfree : t.inFlight = []) (after rest : List Event) :
    Exchange.Matches settings ⟨s, payload, after⟩
      ⟨t, payload, (t.receive settings payload).1.completions ++ rest⟩ := by
  have hquestion : s.question? = t.question? := by rw [← question?_bare, hbare, question?_bare]
  have hsnapshot : s.snapshot = t.snapshot := by rw [← snapshot_bare, hbare, snapshot_bare]
  let prompt : Exchange := ⟨t, payload, (t.receive settings payload).1.completions ++ rest⟩
  have hprompt : ∀ q, t.question? payload = some q → prompt.replies settings =
      [⟨some q.id, (Inquiry.mk q.topic q.params t.snapshot).answer settings⟩] := by
    intro q hq
    rw [Exchange.replies_of_question (x := prompt) ht hq]
    simp [prompt, Exchange.isCompleted, Exchange.isCancelled, completions_receive settings hfree hq,
      cancels]
  refine ⟨rfl, congrFun hquestion payload, ?_, hprompt, ?_⟩
  · intro hnone
    have hnone' : t.question? payload = none := hquestion ▸ hnone
    rw [Exchange.replies_of_none hnone, Exchange.replies_of_none (x := prompt) hnone',
      replies_receive, hbare, ← replies_receive]
  · intro q hq
    rw [Exchange.replies_of_question hs hq, hprompt q (hquestion ▸ hq), ← hsnapshot]

/-- Two sessions that differ in their requests only go the same way, one of them promptly. -/
theorem forall₂_matches_prompt (hs : s.IsNumbered) (ht : t.IsNumbered) (hbare : s.bare = t.bare)
    (hfree : t.inFlight = []) (es : List Event) :
    List.Forall₂ (Exchange.Matches settings) (exchanges settings s es)
      (exchanges settings t (promptly settings t (payloads es))) := by
  -- Completions on the one side are no messages; on the other, they leave nothing in flight.
  induction es generalizing s t with
  | nil => exact .nil
  | cons e es ih =>
    cases e with
    | completed n =>
      exact ih (hs.complete settings n) ht ((bare_complete settings n).trans hbare) hfree
    | received payload =>
      let t' := (t.receive settings payload).1
      have hnext : (s.receive settings payload).1.bare =
          (t'.run settings t'.completions).1.bare := by
        rw [completions_eq, bare_run_completed, bare_receive, hbare, ← bare_receive]
      rw [show payloads (.received payload :: es) = payload :: payloads es from rfl,
        exchanges_promptly]
      refine .cons (matches_prompt settings hs ht hbare hfree es _) ?_
      exact ih (hs.receive settings payload) ((ht.receive settings payload).run settings _) hnext
        (inFlight_run_completions settings)

/-- Snapshot isolation: under every schedule, the replies of a session are those to its messages,
one message after another, and each message is answered as under the prompt schedule, unless its
request is cancelled before it is completed or not completed at all. -/
theorem replies_independent_of_schedule (es : List Event) :
    let prompt := promptly settings {} (payloads es)
    (exchanges settings {} es).map Exchange.payload = payloads es ∧
      (run settings {} es).2.Perm
        ((exchanges settings {} es).flatMap (Exchange.replies settings)) ∧
      (run settings {} prompt).2.Perm
        ((exchanges settings {} prompt).flatMap (Exchange.replies settings)) ∧
      List.Forall₂ (Exchange.Matches settings) (exchanges settings {} es)
        (exchanges settings {} prompt) := by
  have hperm (es' : List Event) : (run settings {} es').2.Perm
      ((exchanges settings {} es').flatMap (Exchange.replies settings)) := by
    simpa using isNumbered_empty.run_perm settings es'
  exact ⟨map_payload_exchanges settings es, hperm es, hperm _,
    forall₂_matches_prompt settings isNumbered_empty isNumbered_empty rfl rfl es⟩

end Session
end ScriptNav.Server
