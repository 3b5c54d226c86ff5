import ScriptNav.Server.Frame
import ScriptNav.Server.Inquiry

/-! A session of the server with an editor. Messages and completions of requests are the events of a
session. A request is in flight from its dispatch to its completion, and an event in between may
cancel it; completions never touch the documents. -/
namespace ScriptNav.Server

open Text

/-- A question in flight. Its number tells apart requests that share an id. -/
structure Request where
  number : Nat
  id : Text
  inquiry : Inquiry
  isCancelled : Bool := false

structure Session where
  snapshot : Snapshot := {}
  isShutdown : Bool := false
  inFlight : List Request := []
  /-- The request that an id cancels. -/
  pending : List (Text × Nat) := []
  next : Nat := 0

inductive Method where
  | setUp
  | ready
  | shutdown
  | exit
  | cancel
  | didOpen
  | didChange
  | didSave
  | didClose
  | inquire (topic : Topic)
  | unknown
deriving DecidableEq, Repr

namespace Method

def names : List (Text × Method) := [
  ("initialize", setUp), ("initialized", ready), ("shutdown", shutdown), ("exit", exit),
  ("$/cancelRequest", cancel), ("textDocument/didOpen", didOpen),
  ("textDocument/didChange", didChange), ("textDocument/didSave", didSave),
  ("textDocument/didClose", didClose), ("textDocument/definition", inquire .definition),
  ("textDocument/hover", inquire .hover)]

def ofText (name : Text) : Method := (names.lookup name).getD unknown

end Method

namespace Session

/-- The root directory that an editor gives, in one of three ways. -/
def rootOf (cwd : Text) (p : InitializeParams) : Text :=
  let named := pathOfUri cwd p.rootUri
  let root :=
    if !named.isEmpty then named
    else if !p.rootPath.isEmpty then p.rootPath
    else ((p.folders.used.head?.map fun f => pathOfUri cwd f.uri)).getD []
  if root.isEmpty then [] else Path.absolute cwd root

/-- What the server is able to do. -/
def greeting (version : Text) : Json :=
  .object [
    ("capabilities", .object [
      ("textDocumentSync", .object [
        ("openClose", .bool true), ("change", .nat 2),
        ("save", .object [("includeText", .bool true)])]),
      ("hoverProvider", .bool true), ("definitionProvider", .bool true)]),
    ("serverInfo", .object (("name", .string "gscnav") :: Json.unlessEmpty "version" version))]

def setUp (settings : Settings) (s : Session) (m : Message) : Session × List Reply :=
  let params : Option InitializeParams := match m.params with
    | none => some {}
    | some _ => readParams InitializeParams.read {} m.params
  match params with
  | none => (s, [⟨m.id, .refused .invalidParams⟩])
  | some params =>
    let root := rootOf settings.disk.cwd params
    let workspace := if root.isEmpty then none else some (settings.workspace root)
    ({ s with snapshot := { s.snapshot with root := root, workspace := workspace } },
      [⟨m.id, .result (greeting settings.version)⟩])

/-- Marks requests as cancelled. -/
def cancelAll (s : Session) (numbers : List Nat) : Session :=
  { s with inFlight := s.inFlight.map fun r =>
      { r with isCancelled := r.isCancelled || numbers.contains r.number } }

/-- Cancels the request that the parameters name by its id. -/
def cancel (s : Session) (params : Option Text) : Session :=
  let id := Message.source? (Json.sources (params.getD [])) "id"
  match id.bind fun id => s.pending.lookup id with
  | some number => s.cancelAll [number]
  | none => s

def shutdown (s : Session) : Session :=
  { s.cancelAll (s.pending.map Prod.snd) with isShutdown := true }

/-- Changes the open documents. -/
def withBuffers (s : Session) (f : Source.Overlay → Source.Overlay) : Session :=
  { s with snapshot := { s.snapshot with buffers := f s.snapshot.buffers } }

/-- Does something to the buffer of a document, if its identifier names a file. -/
def onDocument (cwd : Text) (s : Session) (d : DocumentItem)
    (f : Text → Source.Overlay → Source.Overlay) : Session :=
  let path := pathOfUri cwd d.uri
  if path.isEmpty then s else s.withBuffers (f (Source.key cwd path))

def didOpen (cwd : Text) (s : Session) (params : Option Text) : Session :=
  match readParams OpenParams.read {} params with
  | none => s
  | some p => onDocument cwd s p.document fun key buffers => buffers.set key p.document.text

/-- Changes a document; one that is not open is taken to be empty. -/
def didChange (cwd : Text) (s : Session) (params : Option Text) : Session :=
  match readParams ChangeParams.read {} params with
  | none => s
  | some p => onDocument cwd s p.document fun key buffers =>
      buffers.set key (Change.applyAll ((buffers.get? key).getD []) p.changes.used)

def didSave (cwd : Text) (s : Session) (params : Option Text) : Session :=
  match readParams SaveParams.read {} params with
  | some { document := document, text := some text } =>
    onDocument cwd s document fun key buffers => buffers.set key text
  | _ => s

def didClose (cwd : Text) (s : Session) (params : Option Text) : Session :=
  match readParams CloseParams.read {} params with
  | none => s
  | some p => onDocument cwd s p.document fun key buffers => buffers.erase key

/-- Puts a question in flight, with what the session holds now. -/
def dispatch (s : Session) (id : Text) (topic : Topic) (params : Option Text) : Session :=
  { s with
    inFlight := s.inFlight ++ [⟨s.next, id, ⟨topic, params, s.snapshot⟩, false⟩]
    pending := (id, s.next) :: s.pending.filter (·.1 != id)
    next := s.next + 1 }

/-- A request of the editor; without an id there is nothing to answer. -/
def request (s : Session) (m : Message) (topic : Option Topic) : Session × List Reply :=
  match m.id with
  | none => (s, [])
  | some id =>
    if s.isShutdown then (s, [⟨m.id, .refused .shuttingDown⟩])
    else
      match topic with
      | none => (s, [⟨m.id, .refused .unknownMethod⟩])
      | some topic => (s.dispatch id topic m.params, [])

def handle (settings : Settings) (s : Session) (m : Message) : Session × List Reply :=
  let cwd := settings.disk.cwd
  match Method.ofText m.method with
  | .setUp => s.setUp settings m
  | .ready => (s, [])
  | .shutdown => (s.shutdown, [⟨m.id, .result .null⟩])
  | .exit => (s, [])
  | .cancel => (s.cancel m.params, [])
  | .didOpen => (s.didOpen cwd m.params, [])
  | .didChange => (s.didChange cwd m.params, [])
  | .didSave => (s.didSave cwd m.params, [])
  | .didClose => (s.didClose cwd m.params, [])
  | .inquire topic => s.request m (some topic)
  | .unknown => s.request m none

/-- Handles a payload. What is no message, or has no method, is passed over. -/
def receive (settings : Settings) (s : Session) (payload : Text) : Session × List Reply :=
  match Message.parse? payload with
  | none => (s, [])
  | some m => if m.method.isEmpty then (s, []) else s.handle settings m

/-- Answers a request in flight, unless it was cancelled. Its id then cancels nothing any more. -/
def complete (settings : Settings) (s : Session) (number : Nat) : Session × List Reply :=
  match s.inFlight.find? (·.number == number) with
  | none => (s, [])
  | some r =>
    ({ s with
        inFlight := s.inFlight.filter (·.number != number)
        pending := s.pending.filter (·.1 != r.id) },
      if r.isCancelled then [] else [⟨some r.id, r.inquiry.answer settings⟩])

inductive Event where
  | received (payload : Text)
  | completed (number : Nat)
deriving DecidableEq, Repr

def step (settings : Settings) (s : Session) : Event → Session × List Reply
  | .received payload => s.receive settings payload
  | .completed number => s.complete settings number

/-- Runs events one after another, and collects the replies. -/
def run (settings : Settings) (s : Session) : List Event → Session × List Reply
  | [] => (s, [])
  | e :: es =>
    let (s, replies) := s.step settings e
    let (s, more) := s.run settings es
    (s, replies ++ more)

/-- Whether a payload asks the server to exit. -/
def isExit (payload : Text) : Bool :=
  match Message.parse? payload with
  | none => false
  | some m => Method.ofText m.method == .exit

/-- How a session ends. -/
inductive Ending where
  | inputEnded
  | exited
  | exitedWithoutShutdown
  | broken (error : FrameError)
deriving DecidableEq, Repr

def ending : FrameError → Ending
  | .ended => .inputEnded
  | error => .broken error

def exitOf (s : Session) : Ending := if s.isShutdown then .exited else .exitedWithoutShutdown

/-- Completes the requests for which a condition holds. -/
def settle (settings : Settings) (s : Session) (isDone : Request → Bool) : Session × List Reply :=
  s.run settings ((s.inFlight.filter isDone).map fun r => .completed r.number)

/-- Serves payloads, each request being completed before the next payload is handled. -/
def serve (settings : Settings) (s : Session) (e : FrameError) : List Text → List Reply × Ending
  | [] => ([], ending e)
  | payload :: payloads =>
    if isExit payload then ([], s.exitOf)
    else
      let (s, replies) := s.receive settings payload
      let (s, answers) := s.settle settings fun _ => true
      let (more, ending) := serve settings s e payloads
      (replies ++ answers ++ more, ending)

/-- Serves a stream of messages to its end. -/
def serveStream (settings : Settings) (input : Text) : List Reply × Ending :=
  let (payloads, e) := readFrames input
  serve settings {} e payloads

end Session
end ScriptNav.Server
