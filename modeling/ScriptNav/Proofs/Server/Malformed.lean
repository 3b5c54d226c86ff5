import ScriptNav.Proofs.Json.Sources
import ScriptNav.Proofs.Server.Shutdown

/-! Malformed messages. Every handler reads the whole of its parameters before it touches the
session, so a message that cannot be read, or that names no file, leaves the session as it is; a
question of this kind is put in flight like any other, and leaves nothing behind when it is
completed. -/
namespace ScriptNav.Server

open Text

/-- Whether a document is of no use: it could not be read, or its identifier names no file. -/
def lacksFile (cwd : Text) (document : Option DocumentItem) : Bool :=
  document.all fun d => (pathOfUri cwd d.uri).isEmpty

/-- Whether the parameters of a message are missing, or not what its method reads. The first message
may come without, and two methods do not look at them. -/
def Message.isMalformed (cwd : Text) (m : Message) : Bool :=
  match Method.ofText m.method with
  | .setUp => m.params.isSome && (readParams InitializeParams.read {} m.params).isNone
  | .cancel => (readParams (Json.Reading.record []) () m.params).isNone
  | .didOpen => lacksFile cwd ((readParams OpenParams.read {} m.params).map (·.document))
  | .didChange => lacksFile cwd ((readParams ChangeParams.read {} m.params).map (·.document))
  | .didSave => lacksFile cwd ((readParams SaveParams.read {} m.params).map (·.document))
  | .didClose => lacksFile cwd ((readParams CloseParams.read {} m.params).map (·.document))
  | .inquire _ => lacksFile cwd ((readParams PositionParams.read {} m.params).map (·.document))
  | .ready | .unknown => m.params.isNone
  | .shutdown | .exit => false

/-- Whether a payload is malformed: it is no message, it has no method, or its parameters will not
do. -/
def isMalformed (cwd payload : Text) : Bool :=
  (Message.parse? payload).all fun m => m.method.isEmpty || m.isMalformed cwd

/-- The replies to a payload are one under its id, or none. -/
def AtMostOneReply (payload : Text) (replies : List Reply) : Prop :=
  replies = [] ∨ ∃ m answer, Message.parse? payload = some m ∧ replies = [⟨m.id, answer⟩]

namespace Session

variable (settings : Settings) {s : Session}

theorem onDocument_of_lacksFile {cwd : Text} {d : DocumentItem} (h : lacksFile cwd (some d) = true)
    (f : Text → Source.Overlay → Source.Overlay) : onDocument cwd s d f = s := by
  rw [onDocument]
  exact if_pos h

/-- The parameters of a message hold a value. -/
theorem parse?_params {payload params : Text} {m : Message} (hm : Message.parse? payload = some m)
    (hparams : m.params = some params) : ∃ v, Json.parse? params = some v := by
  unfold Message.parse? at hm
  simp only [Option.bind_eq_bind, Option.bind_eq_some_iff, pure, Option.some.injEq] at hm
  obtain ⟨_, -, _, -, rfl⟩ := hm
  obtain ⟨member, hmember, rfl⟩ := Option.map_eq_some_iff.1 hparams
  have hmem : member ∈ Json.sources payload :=
    List.mem_reverse.1 (List.mem_of_find?_eq_some hmember)
  exact Option.isSome_iff_exists.1 (Json.isSome_parse?_of_mem_sources hmem)

/-- Parameters that are no object name no request. -/
theorem cancel_of_isMalformed {payload : Text} {m : Message} (hm : Message.parse? payload = some m)
    (h : (readParams (Json.Reading.record []) () m.params).isNone) : s.cancel m.params = s := by
  have hsources : Json.sources (m.params.getD []) = [] := by
    cases hparams : m.params with
    | none => rfl
    | some params =>
      obtain ⟨v, hv⟩ := parse?_params hm hparams
      refine Json.sources_of_parse? hv ?_
      rintro members rfl
      have hsome : ∀ members : List (Text × Json),
          Json.Reading.record [] (.object members) () = some () := by
        intro members
        induction members with
        | nil => rfl
        | cons _ members ih => exact ih
      simp [readParams, hparams, hv, hsome] at h
  rw [cancel, hsources]
  rfl

theorem atMostOneReply_receive {payload : Text} (hq : s.question? payload = none) :
    AtMostOneReply payload (s.receive settings payload).2 := by
  cases hm : Message.parse? payload with
  | none => exact .inl (by simp [receive, hm])
  | some m =>
    have hreplies := replies_receive_of_message settings hm hq
    split at hreplies
    · obtain ⟨answer, hanswer⟩ := hreplies
      exact .inr ⟨m, answer, hm, hanswer⟩
    · exact .inl hreplies

/-- Unless it puts a question in flight, a malformed message leaves the session as it is. -/
theorem receive_of_isMalformed {payload : Text}
    (h : isMalformed settings.disk.cwd payload = true) (hq : s.question? payload = none) :
    (s.receive settings payload).1 = s := by
  unfold receive
  cases hm : Message.parse? payload with
  | none => rfl
  | some m =>
    by_cases hempty : m.method = []
    · simp [hempty]
    have hparams : m.isMalformed settings.disk.cwd = true := by
      simpa [isMalformed, hm, hempty] using h
    unfold Message.isMalformed at hparams
    simp only [List.isEmpty_iff, hempty, if_false, handle]
    cases hmethod : Method.ofText m.method <;> simp only [hmethod] at hparams ⊢
    case shutdown => cases hparams
    case setUp =>
      obtain ⟨hsome, hnone⟩ := Bool.and_eq_true_iff.1 hparams
      obtain ⟨params, hp⟩ := Option.isSome_iff_exists.1 hsome
      rw [hp, Option.isNone_iff_eq_none] at hnone
      simp [setUp, hp, hnone]
    case cancel => exact cancel_of_isMalformed hm hparams
    case didOpen =>
      rw [didOpen]
      split
      · rfl
      · next p hp => exact onDocument_of_lacksFile (by rwa [hp] at hparams) _
    case didChange =>
      rw [didChange]
      split
      · rfl
      · next p hp => exact onDocument_of_lacksFile (by rwa [hp] at hparams) _
    case didSave =>
      rw [didSave]
      split
      · next document text hp => exact onDocument_of_lacksFile (by rwa [hp] at hparams) _
      · rfl
    case didClose =>
      rw [didClose]
      split
      · rfl
      · next p hp => exact onDocument_of_lacksFile (by rwa [hp] at hparams) _
    case unknown => cases hid : m.id <;> cases hopen : s.isShutdown <;> simp [request, hid, hopen]
    case inquire topic =>
      cases hid : m.id with
      | none => simp [request, hid]
      | some id =>
        -- A question with an id is not put in flight only because the session is shut down.
        have hshut : s.isShutdown = true := by
          simpa [question?, Question.ofPayload?, hm, hmethod, hid] using hq
        simp [request, hid, hshut]

/-- A malformed message neither shuts a session down nor ends it. -/
theorem isExit_of_isMalformed {cwd payload : Text} (h : isMalformed cwd payload = true) :
    isExit payload = false ∧ shutsDown payload = false := by
  unfold isExit shutsDown
  cases hm : Message.parse? payload with
  | none => exact ⟨rfl, rfl⟩
  | some m =>
    show (Method.ofText m.method == .exit) = false ∧ (Method.ofText m.method == .shutdown) = false
    have hcases : m.method = [] ∨ m.isMalformed cwd = true := by simpa [isMalformed, hm] using h
    obtain hempty | hparams := hcases
    · rw [hempty]
      exact ⟨rfl, rfl⟩
    · unfold Message.isMalformed at hparams
      cases hmethod : Method.ofText m.method <;> simp_all

end Session
end ScriptNav.Server
