import ScriptNav.Proofs.Server.OpenDocuments
import ScriptNav.Proofs.Server.Responses
import ScriptNav.Proofs.Server.Schedules

/-! Shutdown and exit. A shutdown cancels what the pending table holds, and no question is taken any
more; so all that may still be answered is a request which the table has lost, and it loses one only
to another request under the same id. How a session ends is decided by the messages before its
first exit, whatever the schedule. -/
namespace ScriptNav.Server
namespace Session

variable (settings : Settings)

/-- How the first exit among events ends a session. -/
def exit? (s : Session) : List Event → Option Ending
  | [] => none
  | .received payload :: es =>
    if isExit payload then some s.exitOf else exit? (s.receive settings payload).1 es
  | .completed n :: es => exit? (s.complete settings n).1 es

/-- How a session ends: with its first exit, or else with its input. -/
def endingOf (e : FrameError) (es : List Event) : Ending := (exit? settings {} es).getD (ending e)

/-- As long as a request is in flight, it shares its id with no other. -/
def HasOwnId (es : List Event) (r : Request) : Prop :=
  ∀ front, front <+: es → ∀ r₁ ∈ (run settings {} front).1.inFlight, r₁.number = r.number →
    ∀ r₂ ∈ (run settings {} front).1.inFlight, r₂.id = r.id → r₂.number = r.number

variable {s t : Session}

section Flag

theorem isShutdown_onDocument (cwd : Text) (d : DocumentItem)
    (f : Text → Source.Overlay → Source.Overlay) :
    (onDocument cwd s d f).isShutdown = s.isShutdown := by
  rw [onDocument]
  split_ifs <;> rfl

theorem isShutdown_request (m : Message) (topic : Option Topic) :
    (s.request m topic).1.isShutdown = s.isShutdown := by
  unfold request
  split
  · rfl
  · split_ifs
    · rfl
    · split <;> rfl

/-- Only a shutdown raises the flag, and nothing lowers it. -/
theorem isShutdown_receive (payload : Text) :
    (s.receive settings payload).1.isShutdown = (s.isShutdown || shutsDown payload) := by
  unfold receive shutsDown
  cases Message.parse? payload with
  | none => simp
  | some m =>
    by_cases hempty : m.method = []
    · have hmethod : Method.ofText m.method ≠ .shutdown := by
        rw [hempty]
        decide
      simp [hempty] at hmethod ⊢
      simp [hmethod]
    · simp only [List.isEmpty_iff, hempty, if_false, Option.any_some, handle]
      cases Method.ofText m.method with
      | shutdown => simp [shutdown]
      | ready | exit => simp
      | setUp =>
        simp only [setUp]
        split <;> simp
      | cancel =>
        simp only [cancel_eq, cancelAll]
        simp
      | inquire topic => simp [isShutdown_request]
      | unknown => simp [isShutdown_request]
      | didOpen =>
        simp only [didOpen]
        split <;> simp [isShutdown_onDocument]
      | didChange =>
        simp only [didChange]
        split <;> simp [isShutdown_onDocument]
      | didSave =>
        simp only [didSave]
        split <;> simp [isShutdown_onDocument]
      | didClose =>
        simp only [didClose]
        split <;> simp [isShutdown_onDocument]

theorem isShutdown_complete (n : Nat) : (s.complete settings n).1.isShutdown = s.isShutdown := by
  show (s.complete settings n).1.bare.isShutdown = s.bare.isShutdown
  rw [bare_complete]

theorem isShutdown_run (es : List Event) :
    (s.run settings es).1.isShutdown = (s.isShutdown || (payloads es).any shutsDown) := by
  induction es generalizing s with
  | nil => simp [run, payloads]
  | cons e es ih =>
    cases e with
    | received payload =>
      show ((s.receive settings payload).1.run settings es).1.isShutdown = _
      rw [ih, isShutdown_receive, Bool.or_assoc]
      rfl
    | completed n =>
      show ((s.complete settings n).1.run settings es).1.isShutdown = _
      rw [ih, isShutdown_complete]
      rfl

end Flag

section Refusal

/-- A question that comes after a shutdown is refused at once. -/
theorem replies_receive_of_isShutdown (hs : s.isShutdown = true) {payload : Text} {q : Question}
    (hq : Question.ofPayload? payload = some q) :
    (s.receive settings payload).2 = [⟨some q.id, .refused .shuttingDown⟩] := by
  -- To a session that still takes questions, the same payload would be the question.
  obtain ⟨-, m, hm, hmethod, hid, -⟩ :=
    (question?_eq_some_iff { s with isShutdown := false } payload).1 hq
  have hne : m.method ≠ [] := by
    intro hempty
    rw [hempty] at hmethod
    cases hmethod
  simp [receive, hm, hne, handle, hmethod, request, hid, hs]

theorem ofPayload?_of_shutsDown {payload : Text} (h : shutsDown payload = true) :
    Question.ofPayload? payload = none := by
  unfold shutsDown at h
  unfold Question.ofPayload?
  cases hm : Message.parse? payload with
  | none => rfl
  | some m =>
    have hmethod : Method.ofText m.method = .shutdown := by simpa [hm] using h
    simp [hmethod]

theorem question?_of_isShutdown (hs : s.isShutdown = true) (payload : Text) :
    s.question? payload = none := by
  simp [question?, hs]

/-- After a shutdown nothing new is put in flight, so what is not in flight then is never
answered. -/
theorem answersTo_of_isShutdown (hs : s.isShutdown = true) {n : Nat}
    (h : ∀ r ∈ s.inFlight, r.number ≠ n) (es : List Event) : answersTo settings n s es = [] := by
  induction es generalizing s with
  | nil => rfl
  | cons e es ih =>
    cases e with
    | received payload =>
      rw [answersTo_received]
      apply ih
      · rw [isShutdown_receive, hs, Bool.true_or]
      · intro r hr
        rw [inFlight_receive, mem_inFlightAfter, requestOf?, question?_of_isShutdown hs] at hr
        obtain ⟨r', hr', rfl⟩ | hr := hr
        · exact h r' hr'
        · cases hr
    | completed m =>
      have hrest := ih (s := (s.complete settings m).1) (by rw [isShutdown_complete, hs]) (by
        intro r hr
        rw [inFlight_complete] at hr
        exact h r (List.mem_of_mem_filter hr))
      by_cases hm : m = n
      · subst hm
        rw [answersTo_completed_self, hrest, complete_of_absent settings h]
        rfl
      · rw [answersTo_completed_of_ne settings hm, hrest]

end Refusal

section Pending

theorem HasOwnId.front {es : List Event} {e : Event} {r : Request}
    (h : HasOwnId settings (es ++ [e]) r) : HasOwnId settings es r :=
  fun front hfront => h front (hfront.trans (List.prefix_append es [e]))

/-- The pending table holds every request that shares its id with no other. -/
theorem pending_of_hasOwnId {es : List Event} {r : Request}
    (hr : r ∈ (run settings {} es).1.inFlight) (h : HasOwnId settings es r) :
    (r.id, r.number) ∈ (run settings {} es).1.pending := by
  induction es using List.reverseRec generalizing r with
  | nil => cases hr
  | append_singleton es e ih =>
    have hs := isNumbered_empty.run settings es
    have hnow := h _ List.prefix_rfl
    have hbefore := h es (List.prefix_append es [e])
    have hsplit : (run settings {} (es ++ [e])).1 = ((run settings {} es).1.step settings e).1 := by
      rw [run_append]
      rfl
    rw [hsplit] at hr hnow ⊢
    cases e with
    | received payload =>
      rw [step, inFlight_receive] at hr hnow
      rw [step, pending_receive, pendingAfter]
      obtain ⟨r', hr', rfl⟩ | hnew := mem_inFlightAfter.1 hr
      · have hkept := ih hr' (h.front settings)
        cases hq : (run settings {} es).1.question? payload with
        | none => exact hkept
        | some q =>
          -- A new request under the same id would be another one, as its number is larger.
          have hne : r'.id ≠ q.id := by
            intro heq
            have hsame := hnow _ hr rfl
              ⟨(run settings {} es).1.next, q.id,
                ⟨q.topic, q.params, (run settings {} es).1.snapshot⟩, false⟩
              (mem_inFlightAfter.2 (.inr (by rw [requestOf?, hq]; rfl))) heq.symm
            have hlt := hs.lt r' hr'
            simp only [Request.number_cancelIf] at hsame
            omega
          exact List.mem_cons_of_mem _ (List.mem_filter.2 ⟨hkept, by simpa using hne⟩)
      · obtain ⟨q, hq, rfl⟩ := Option.map_eq_some_iff.1 hnew
        rw [hq]
        exact List.mem_cons_self
    | completed n =>
      rw [step, inFlight_complete, List.mem_filter] at hr
      obtain ⟨hr, hn⟩ := hr
      have hkept := ih hr (h.front settings)
      rw [step]
      by_cases hfound : ∃ r' ∈ (run settings {} es).1.inFlight, r'.number = n
      · obtain ⟨r', hr', rfl⟩ := hfound
        have hne : r.id ≠ r'.id := by
          intro heq
          have hsame := hbefore r hr rfl r' hr' heq.symm
          simp [hsame] at hn
        rw [hs.complete_of_mem settings hr']
        exact List.mem_filter.2 ⟨hkept, by simpa using hne⟩
      · rw [complete_of_absent settings (by simpa using hfound)]
        exact hkept

/-- A request in the pending table is not answered after a shutdown. -/
theorem IsNumbered.answersTo_of_pending (hs : s.IsNumbered) {payload : Text}
    (hshut : shutsDown payload = true) {r : Request} (hr : r ∈ s.inFlight)
    (h : (r.id, r.number) ∈ s.pending) (es : List Event) :
    answersTo settings r.number (s.receive settings payload).1 es = [] := by
  have hcancelled : (r.cancelIf (s.cancelledBy payload)).isCancelled = true := by
    have hnumber : r.number ∈ s.pending.map Prod.snd := List.mem_map.2 ⟨_, h, rfl⟩
    simp [Request.cancelIf, cancelledBy, hshut] at hnumber ⊢
    exact .inr hnumber
  have hlife := (hs.receive settings payload).answersTo_of_mem settings
    (mem_inFlight_receive settings hr payload) es
  rw [hcancelled] at hlife
  simpa using hlife

end Pending

section Exit

/-- The first exit finds the flag as the messages before it have left it. -/
theorem exit?_eq (es : List Event) :
    exit? settings s es =
      if (payloads es).any isExit then
        some (if s.isShutdown || ((payloads es).takeWhile fun p => !isExit p).any shutsDown
          then .exited else .exitedWithoutShutdown)
      else none := by
  induction es generalizing s with
  | nil => rfl
  | cons e es ih =>
    cases e with
    | received payload =>
      show (if isExit payload then _ else _) = if (payload :: payloads es).any isExit then
        some (if s.isShutdown || ((payload :: payloads es).takeWhile fun p => !isExit p).any shutsDown
          then Ending.exited else .exitedWithoutShutdown) else none
      by_cases hexit : isExit payload = true
      · simp [hexit, exitOf]
      · simp [hexit, ih, isShutdown_receive, Bool.or_assoc]
    | completed n =>
      show exit? settings (s.complete settings n).1 es = _
      rw [ih, isShutdown_complete]
      rfl

/-- A server that waits for each request ends as under every other schedule. -/
theorem ending_serve (e : FrameError) {es : List Event} (h : s.isShutdown = t.isShutdown) :
    (serve settings s e (payloads es)).2 = (exit? settings t es).getD (ending e) := by
  induction es generalizing s t with
  | nil => rfl
  | cons event es ih =>
    cases event with
    | completed n => exact ih (by rw [isShutdown_complete, h])
    | received payload =>
      show (serve settings s e (payload :: payloads es)).2 = _
      rw [serve, exit?]
      split_ifs with hexit
      · simp [exitOf, h]
      · refine ih ?_
        rw [settle, isShutdown_run, isShutdown_receive, isShutdown_receive, h]
        simp [payloads, List.filterMap_map]

theorem ending_ne_exited (e : FrameError) :
    ending e ≠ .exited ∧ ending e ≠ .exitedWithoutShutdown := by
  cases e <;> simp [ending]

end Exit

/-- Shutdown is final. Once it is handled the flag stays up, later questions are refused as invalid
requests, and no completion sends anything, unless it is that of a request which was in flight and
shared its id with another one. A session exits in order just if its first exit comes after a
shutdown, under every schedule as for a server that waits for each request. -/
theorem shutdown_is_final (es : List Event) (e : FrameError) :
    let before := (payloads es).takeWhile fun payload => !isExit payload
    (∀ front payload after, es = front ++ .received payload :: after →
      shutsDown payload = true →
        let s := (run settings {} front).1
        let t := (s.receive settings payload).1
        (∀ more, more <+: after → (t.run settings more).1.isShutdown = true) ∧
          (∀ x ∈ exchanges settings t after, ∀ q, Question.ofPayload? x.payload = some q →
            ∃ refusal : Refusal, refusal.code = -32600 ∧
              x.replies settings = [⟨some q.id, .refused refusal⟩]) ∧
          ∀ n, (∀ r ∈ s.inFlight, r.number = n → HasOwnId settings front r) →
            answersTo settings n t after = []) ∧
      (endingOf settings e es = .exited ↔
        (payloads es).any isExit = true ∧ before.any shutsDown = true) ∧
      (endingOf settings e es = .exitedWithoutShutdown ↔
        (payloads es).any isExit = true ∧ before.any shutsDown = false) ∧
      (serve settings {} e (payloads es)).2 = endingOf settings e es := by
  intro before
  refine ⟨?_, ?_, ?_, ending_serve settings e rfl⟩
  · rintro front payload after - hshut s t
    have hs : s.IsNumbered := isNumbered_empty.run settings front
    have ht : t.isShutdown = true := by rw [isShutdown_receive, hshut, Bool.or_true]
    refine ⟨?_, ?_, ?_⟩
    · intro more _
      rw [isShutdown_run, ht, Bool.true_or]
    · intro x hx q hq
      obtain ⟨more, -, hsession⟩ := exists_of_mem_exchanges settings hx
      have hx' : x.session.isShutdown = true := by rw [hsession, isShutdown_run, ht, Bool.true_or]
      refine ⟨.shuttingDown, rfl, ?_⟩
      rw [Exchange.replies_of_none (question?_of_isShutdown hx' x.payload),
        replies_receive_of_isShutdown settings hx' hq]
    · intro n hown
      by_cases hn : ∃ r ∈ s.inFlight, r.number = n
      · obtain ⟨r, hr, rfl⟩ := hn
        have hpending := pending_of_hasOwnId settings hr (hown r hr rfl)
        exact hs.answersTo_of_pending settings hshut hr hpending after
      · apply answersTo_of_isShutdown settings ht
        intro r hr
        rw [inFlight_receive, mem_inFlightAfter, requestOf?,
          question?_of_none s (ofPayload?_of_shutsDown hshut)] at hr
        obtain ⟨r', hr', rfl⟩ | hr := hr
        · exact fun heq => hn ⟨r', hr', heq⟩
        · cases hr
  · rw [endingOf, exit?_eq]
    have hinput := (ending_ne_exited e).1
    split_ifs <;> simp_all [before]
  · rw [endingOf, exit?_eq]
    have hinput := (ending_ne_exited e).2
    split_ifs <;> simp_all [before]

/-- A message of an editor, by its method and its other members. -/
def message (method : String) (members : List (Text × Json)) : Text :=
  Json.render (.object (("method", .string method) :: members))

/-- Two questions in flight under ids of their own when the session is shut down: neither is
answered, a third one is refused, and the session exits in order. -/
theorem shutdown_is_final_ownIds :
    let id (n : Nat) : Text × Json := ("id", .nat n)
    let front : List Event := [.received (message "textDocument/hover" [id 1]),
      .received (message "textDocument/hover" [id 2])]
    let shutdown := message "shutdown" [id 3]
    let after : List Event := [.completed 0, .received (message "textDocument/hover" [id 4]),
      .received (message "exit" []), .completed 1]
    let es := front ++ .received shutdown :: after
    let s := (run oneScript {} front).1
    (∀ r ∈ s.inFlight, HasOwnId oneScript front r) ∧ s.inFlight.map Request.number = [0, 1] ∧
      (∀ n, answersTo oneScript n (s.receive oneScript shutdown).1 after = []) ∧
      endingOf oneScript .ended es = .exited := by
  intro id front shutdown after es s
  have hown : ∀ r ∈ s.inFlight, HasOwnId oneScript front r := by
    have hall : ∀ r ∈ s.inFlight, ∀ front' ∈ front.inits,
        ∀ r₁ ∈ (run oneScript {} front').1.inFlight, r₁.number = r.number →
          ∀ r₂ ∈ (run oneScript {} front').1.inFlight, r₂.id = r.id → r₂.number = r.number := by
      decide +kernel
    exact fun r hr front' hfront => hall r hr front' ((List.mem_inits front' front).2 hfront)
  obtain ⟨hfinal, hexited, -⟩ := shutdown_is_final oneScript es .ended
  obtain ⟨-, -, hsilent⟩ := hfinal front shutdown after rfl (by decide +kernel)
  refine ⟨hown, by decide +kernel, fun n => hsilent n fun r hr _ => hown r hr, hexited.2 ?_⟩
  decide +kernel

/-- A question does not cancel anything, nor does it shut the session down. -/
theorem shutsDown_of_question {payload : Text} {q : Question}
    (h : Question.ofPayload? payload = some q) :
    shutsDown payload = false ∧ cancelledId? payload = none := by
  obtain ⟨-, m, hm, hmethod, -⟩ := (question?_eq_some_iff {} payload).1 h
  simp [shutsDown, cancelledId?, hm, hmethod]

/-- A question that is asked twice under one id: the second request takes the place of the first in
the pending table, and the first is answered after the shutdown. -/
theorem answersTo_sharedId {asking shutdown : Text} {q : Question}
    (hq : Question.ofPayload? asking = some q) (hshut : shutsDown shutdown = true) :
    let s := (run settings {} [.received asking, .received asking]).1
    answersTo settings 0 (s.receive settings shutdown).1 [.completed 0] =
      [⟨some q.id, (Inquiry.mk q.topic q.params {}).answer settings⟩] := by
  intro s
  obtain ⟨hrunning, hkeeps⟩ := shutsDown_of_question hq
  let once := (receive settings {} asking).1
  have hfirst : question? {} asking = some q := hq
  have hsecond : once.question? asking = some q := by
    simp [question?, once, isShutdown_receive, hrunning, hq]
  have hpending : s.cancelledBy shutdown = [1] := by
    show ((once.receive settings asking).1.cancelledBy shutdown) = [1]
    simp [cancelledBy, hshut, pendingAfter, hsecond, once, nextAfter, hfirst]
  have hnone : once.cancelledBy asking = [] := by simp [cancelledBy, hrunning, hkeeps]
  -- The shutdown cancels the request numbered one, and this is the other one.
  let r : Request := ⟨0, q.id, ⟨q.topic, q.params, {}⟩, false⟩
  have honce : r ∈ once.inFlight := mem_inFlight_of_question settings hfirst
  have htwice : r.cancelIf (once.cancelledBy asking) ∈ s.inFlight :=
    mem_inFlight_receive settings honce asking
  rw [hnone] at htwice
  have hrequest : (r.cancelIf []).cancelIf (s.cancelledBy shutdown) ∈ _ :=
    mem_inFlight_receive settings htwice shutdown
  rw [hpending] at hrequest
  have hnumbered : s.IsNumbered := isNumbered_empty.run settings _
  exact (hnumbered.receive settings shutdown).answersTo_of_mem settings hrequest [.completed 0]

/-- The first of two questions in flight under one id is answered after a shutdown. -/
theorem shutdown_misses_sharedId :
    let params := PositionParams.toJson "file:///a.gsc" ⟨0, 0⟩
    let asking := message "textDocument/definition" [("id", .nat 1), ("params", params)]
    let s := (run oneScript {} [.received asking, .received asking]).1
    let t := (s.receive oneScript (message "shutdown" [])).1
    let place : Json := .object [("uri", .string "file:///a.gsc"),
      ("range", Range.toJson ⟨⟨0, 0⟩, ⟨0, 1⟩⟩)]
    shutsDown (message "shutdown" []) = true ∧
      answersTo oneScript 0 t [.completed 0] =
        [⟨some (Text.ofString "1"), .result (.array [place])⟩] := by
  intro params asking s t place
  have hanswer : (Inquiry.mk .definition (some params.render) {}).answer oneScript =
      .result (.array [place]) := by
    have hparams : readParams PositionParams.read {} (some params.render) =
        some ⟨{ uri := "file:///a.gsc" }, ⟨0, 0⟩⟩ :=
      PositionParams.readParams_render (by decide) _
    rw [Inquiry.answer, hparams]
    rfl
  have hq : Question.ofPayload? asking = some ⟨"1", .definition, some params.render⟩ := by
    decide +kernel
  have hshut : shutsDown (message "shutdown" []) = true := by decide +kernel
  refine ⟨hshut, ?_⟩
  rw [answersTo_sharedId oneScript hq hshut, hanswer]

end Session
end ScriptNav.Server
