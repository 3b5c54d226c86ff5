import Mathlib.Tactic.SplitIfs
import ScriptNav.Proofs.Source.Overlay
import ScriptNav.Server.Session

/-! What messages tell about documents. The open documents of a session change with these notices and
with nothing else: no other message, and no completion of a request, touches them. -/
namespace ScriptNav.Server

open Text Source

/-- What an editor tells about one of its documents. -/
inductive Notice where
  | opened (uri text : Text)
  | changed (uri : Text) (changes : List Change)
  | saved (uri text : Text)
  | closed (uri : Text)

namespace Notice

def uri : Notice → Text
  | opened uri _ | changed uri _ | saved uri _ | closed uri => uri

/-- The notice in a message, if the message is about a document and its parameters can be read. -/
def ofMessage? (m : Message) : Option Notice :=
  match Method.ofText m.method with
  | .didOpen => (readParams OpenParams.read {} m.params).map fun p =>
      opened p.document.uri p.document.text
  | .didChange => (readParams ChangeParams.read {} m.params).map fun p =>
      changed p.document.uri p.changes.used
  | .didSave => (readParams SaveParams.read {} m.params).bind fun p =>
      p.text.map (saved p.document.uri)
  | .didClose => (readParams CloseParams.read {} m.params).map fun p => closed p.document.uri
  | _ => none

def ofPayload? (payload : Text) : Option Notice := (Message.parse? payload).bind ofMessage?

/-- The notice in an event of a session. -/
def ofEvent? : Session.Event → Option Notice
  | .received payload => ofPayload? payload
  | .completed _ => none

/-- What a notice makes of the buffer of its document. -/
def update (key : Text) : Notice → Overlay → Overlay
  | opened _ text, buffers => buffers.set key text
  | changed _ changes, buffers =>
    buffers.set key (Change.applyAll ((buffers.get? key).getD []) changes)
  | saved _ text, buffers => buffers.set key text
  | closed _, buffers => buffers.erase key

/-- The open documents after a notice. One whose identifier names no file changes nothing. -/
def apply (cwd : Text) (n : Notice) (buffers : Overlay) : Overlay :=
  if (pathOfUri cwd n.uri).isEmpty then buffers
  else n.update (key cwd (pathOfUri cwd n.uri)) buffers

/-- A notice leaves the buffers of other documents alone. -/
theorem get?_update_of_ne (n : Notice) (buffers : Overlay) {key other : Text} (h : other ≠ key) :
    (n.update key buffers).get? other = buffers.get? other := by
  cases n with
  | opened _ _ | changed _ _ | saved _ _ => exact buffers.get?_set_of_ne _ _ h
  | closed _ => exact buffers.get?_erase_of_ne _ h

end Notice

namespace Session

variable (settings : Settings) (s : Session)

theorem buffers_onDocument (cwd : Text) (d : DocumentItem) (f : Text → Overlay → Overlay) :
    (onDocument cwd s d f).snapshot.buffers =
      if (pathOfUri cwd d.uri).isEmpty then s.snapshot.buffers
      else f (key cwd (pathOfUri cwd d.uri)) s.snapshot.buffers := by
  rw [onDocument]
  split_ifs <;> rfl

theorem snapshot_cancel (params : Option Text) : (s.cancel params).snapshot = s.snapshot := by
  rw [cancel]
  split <;> rfl

theorem snapshot_request (m : Message) (topic : Option Topic) :
    (s.request m topic).1.snapshot = s.snapshot := by
  rw [request]
  split
  · rfl
  · split_ifs
    · rfl
    · split <;> rfl

theorem buffers_setUp (m : Message) :
    (s.setUp settings m).1.snapshot.buffers = s.snapshot.buffers := by
  rw [setUp]
  split <;> rfl

/-- Handling a message does to the open documents what its notice says. -/
theorem buffers_handle (m : Message) :
    (s.handle settings m).1.snapshot.buffers =
      match Notice.ofMessage? m with
      | none => s.snapshot.buffers
      | some n => n.apply settings.disk.cwd s.snapshot.buffers := by
  rw [handle, Notice.ofMessage?]
  cases Method.ofText m.method with
  | setUp => exact buffers_setUp settings s m
  | ready | shutdown | exit => rfl
  | cancel => exact congrArg _ (snapshot_cancel s m.params)
  | inquire topic => exact congrArg _ (snapshot_request s m _)
  | unknown => exact congrArg _ (snapshot_request s m _)
  | didOpen =>
    simp only [didOpen]
    cases readParams OpenParams.read {} m.params with
    | none => rfl
    | some p => exact buffers_onDocument s _ _ _
  | didChange =>
    simp only [didChange]
    cases readParams ChangeParams.read {} m.params with
    | none => rfl
    | some p => exact buffers_onDocument s _ _ _
  | didSave =>
    simp only [didSave]
    rcases readParams SaveParams.read {} m.params with _ | ⟨document, _ | text⟩
    · rfl
    · rfl
    · exact buffers_onDocument s _ _ _
  | didClose =>
    simp only [didClose]
    cases readParams CloseParams.read {} m.params with
    | none => rfl
    | some p => exact buffers_onDocument s _ _ _

theorem buffers_receive (payload : Text) :
    (s.receive settings payload).1.snapshot.buffers =
      match Notice.ofPayload? payload with
      | none => s.snapshot.buffers
      | some n => n.apply settings.disk.cwd s.snapshot.buffers := by
  rw [receive, Notice.ofPayload?]
  cases Message.parse? payload with
  | none => rfl
  | some m =>
    rw [Option.bind_some]
    by_cases hm : m.method = []
    · have hnone : Notice.ofMessage? m = none := by
        rw [Notice.ofMessage?, hm]
        rfl
      simp [hm, hnone]
    · have hne : m.method.isEmpty = false := by simpa using hm
      simp only [hne, Bool.false_eq_true, ↓reduceIte]
      exact buffers_handle settings s m

/-- Every event of a session does to the open documents what its notice says. -/
theorem buffers_step (e : Event) :
    (s.step settings e).1.snapshot.buffers =
      match Notice.ofEvent? e with
      | none => s.snapshot.buffers
      | some n => n.apply settings.disk.cwd s.snapshot.buffers := by
  cases e with
  | received payload => exact buffers_receive settings s payload
  | completed number =>
    rw [step, complete]
    split <;> rfl

variable {settings s}

theorem buffers_step_received {payload : Text} {n : Notice} (h : Notice.ofPayload? payload = some n) :
    (s.step settings (.received payload)).1.snapshot.buffers =
      n.apply settings.disk.cwd s.snapshot.buffers := by
  rw [buffers_step, Notice.ofEvent?, h]

theorem buffers_step_of_none {e : Event} (h : Notice.ofEvent? e = none) :
    (s.step settings e).1.snapshot.buffers = s.snapshot.buffers := by
  rw [buffers_step, h]

end Session
end ScriptNav.Server
