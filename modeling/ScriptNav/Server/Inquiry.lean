import ScriptNav.Catalog.Basic
import ScriptNav.Resolver
import ScriptNav.Script.Signature
import ScriptNav.Server.Message
import ScriptNav.Server.Reply
import ScriptNav.Server.Uri

/-! The two questions that an editor asks about a position: where the function there is defined, and
what it is. They are answered from a snapshot of the session, whatever happens to the session since.
-/
namespace ScriptNav.Server

open Text

/-- What a server works with all along. -/
structure Settings where
  disk : Disk
  git : Git := Git.absent
  /-- The workspace of an editor's root directory. -/
  workspace : Text → Workspace
  extension : Text := ".gsc"
  maxFileSize : Int := 0
  catalog : List Catalog.Entry := []
  version : Text := []

/-- What a request works with: the open documents, the root and the workspace at its dispatch. -/
structure Snapshot where
  buffers : Source.Overlay := []
  root : Text := []
  workspace : Option Workspace := none

inductive Topic where
  | definition
  | hover
deriving DecidableEq, Repr

/-- A question about a position, with its parameters as they were written. -/
structure Inquiry where
  topic : Topic
  params : Option Text
  snapshot : Snapshot

namespace Inquiry

def reader (settings : Settings) (q : Inquiry) : Source.Reader :=
  Source.reader settings.disk q.snapshot.buffers settings.maxFileSize

def resolver (settings : Settings) (q : Inquiry) : Resolver :=
  Resolver.make settings.disk.cwd (some (q.reader settings))
    (q.snapshot.workspace.map fun w => w.locator settings.disk settings.git) settings.extension

/-- The document and the offset that a question is about; nothing if there is no such document. -/
def target? (settings : Settings) (q : Inquiry) (params : PositionParams) :
    Option (Document × Nat) := do
  let path := pathOfUri settings.disk.cwd params.document.uri
  if path.isEmpty then none
  else
    let text ← (q.reader settings path).toOption
    return (⟨path, text⟩, offsetOf text params.position)

/-- The place of a definition, if its file can still be read. -/
def location? (settings : Settings) (q : Inquiry) (doc : Document) (name : Text) (d : Definition) :
    Option Json := do
  let text ← if d.file == doc.path then some doc.text else (q.reader settings d.file).toOption
  let range := rangeBetween text d.site.offset (d.site.offset + name.length)
  return .object [("uri", .string (uriOfPath settings.disk.cwd d.file)), ("range", range.toJson)]

/-- A text as a block of script code. -/
def codeBlock (t : Text) : Text := "```gsc\n" ++ t ++ "\n```"

/-- The documentation of a function that the engine provides. -/
def builtinText (e : Catalog.Entry) : Text :=
  codeBlock e.signature ++
    (if e.summary.isEmpty then [] else newline :: e.summary) ++
    if e.usage.isEmpty then [] else ("\n\nExample:\n" : Text) ++ codeBlock e.usage

/-- What is shown about a reference: its one definition, or else what the catalog says. -/
def hoverText (settings : Settings) (q : Inquiry) (r : Resolution) : Option Text :=
  match r.metadata? with
  | some m =>
    some (codeBlock (Script.signature m.name m.params) ++ "\nDefined in `" ++
      Path.relative q.snapshot.root m.file ++ "`")
  | none =>
    if r.mayBeBuiltin then
      (Catalog.lookup? settings.catalog r.reference.name).map builtinText
    else none

def hover (settings : Settings) (q : Inquiry) (doc : Document) (r : Resolution) : Json :=
  match hoverText settings q r with
  | none => .null
  | some value =>
    let range := rangeBetween doc.text r.reference.start r.reference.stop
    .object [("contents", .object [("kind", .string "markdown"), ("value", .string value)]),
      ("range", range.toJson)]

/-- What a question is answered about a resolved position. -/
def describe (settings : Settings) (q : Inquiry) (doc : Document) : Option Resolution → Json
  | none => match q.topic with
    | .definition => .array []
    | .hover => .null
  | some r => match q.topic with
    | .definition => .array (r.definitions.filterMap (q.location? settings doc r.reference.name))
    | .hover => hover settings q doc r

def answer (settings : Settings) (q : Inquiry) : Answer :=
  match readParams PositionParams.read {} q.params with
  | none => .refused .invalidParams
  | some params =>
    match q.target? settings params with
    | none => .result .null
    | some (doc, offset) =>
      match (q.resolver settings).lookup false doc offset with
      | .cancelled => .result .null
      | .resolved r => .result (q.describe settings doc r)

/-- Whether answering a question asks the workspace for a module. -/
def searches (settings : Settings) (q : Inquiry) : Bool :=
  let found := do
    let (doc, offset) ← q.target? settings (← readParams PositionParams.read {} q.params)
    let reference ← Script.referenceAt doc.text offset
    return (q.resolver settings).patterns doc reference
  !(found.getD []).isEmpty

end Inquiry
end ScriptNav.Server
