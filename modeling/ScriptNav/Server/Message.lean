import ScriptNav.Json.Parser
import ScriptNav.Json.Reading
import ScriptNav.Server.Position

/-! The messages of an editor, and the parameters of their methods. -/
namespace ScriptNav.Server

open Json

/-- A message: a request if it has an id, and a notification otherwise. Ids and parameters are kept
as they were written. -/
structure Message where
  id : Option Text := none
  method : Text := []
  params : Option Text := none
deriving DecidableEq, Repr

namespace Message

/-- The error in an answer; its kind is checked, and nothing else. -/
structure Fault where
  code : Int := 0
  message : Text := []

/-- The parts of a message that have a fixed kind. -/
structure Envelope where
  version : Text := []
  method : Text := []
  error : Option Fault := none

def readFault : Reading Fault :=
  Reading.record [
    ("code", Reading.part (·.code) (fun f n => { f with code := n }) Reading.int64),
    ("message", Reading.part (·.message) (fun f t => { f with message := t }) Reading.text)]

def readEnvelope : Reading Envelope :=
  Reading.record [
    ("jsonrpc", Reading.part (·.version) (fun e t => { e with version := t }) Reading.text),
    ("method", Reading.part (·.method) (fun e t => { e with method := t }) Reading.text),
    ("error", Reading.part (·.error) (fun e f => { e with error := f })
      (Reading.optional {} readFault))]

/-- The source of the last member of a name, in any letter case. -/
def source? (members : List (Text × Text)) (name : Text) : Option Text :=
  (members.reverse.find? fun member => Text.equalFold member.1 name).map Prod.snd

/-- The message of a payload, if it is one. -/
def parse? (payload : Text) : Option Message := do
  let envelope ← readEnvelope (← Json.parse? payload) {}
  let members := Json.sources payload
  return ⟨source? members "id", envelope.method, source? members "params"⟩

end Message

/-- Reads parameters, which must not be missing. -/
def readParams {α : Type} (read : Reading α) (zero : α) (params : Option Text) : Option α := do
  read (← Json.parse? (← params)) zero

structure Folder where
  uri : Text := []
  name : Text := []

/-- Where an editor has its workspace. -/
structure InitializeParams where
  rootUri : Text := []
  rootPath : Text := []
  folders : Reading.Items Folder := {}

/-- A document that an editor names, with the fields that come along in one message or another. -/
structure DocumentItem where
  uri : Text := []
  language : Text := []
  version : Int := 0
  text : Text := []

structure OpenParams where
  document : DocumentItem := {}

structure ChangeParams where
  document : DocumentItem := {}
  changes : Reading.Items Change := {}

structure SaveParams where
  document : DocumentItem := {}
  text : Option Text := none

structure CloseParams where
  document : DocumentItem := {}

structure PositionParams where
  document : DocumentItem := {}
  position : Point := ⟨0, 0⟩

namespace Folder

def read : Reading Folder :=
  Reading.record [
    ("uri", Reading.part (·.uri) (fun f t => { f with uri := t }) Reading.text),
    ("name", Reading.part (·.name) (fun f t => { f with name := t }) Reading.text)]

end Folder

namespace Point

def read : Reading Point :=
  Reading.record [
    ("line", Reading.part (·.line) (fun p n => { p with line := n }) Reading.word),
    ("character", Reading.part (·.character) (fun p n => { p with character := n }) Reading.word)]

end Point

namespace Range

def read : Reading Range :=
  Reading.record [
    ("start", Reading.part (·.start) (fun r p => { r with start := p }) Point.read),
    ("end", Reading.part (·.stop) (fun r p => { r with stop := p }) Point.read)]

end Range

namespace Change

def read : Reading Change :=
  Reading.record [
    ("range", Reading.part (·.range) (fun c r => { c with range := r })
      (Reading.optional ⟨⟨0, 0⟩, ⟨0, 0⟩⟩ Range.read)),
    ("text", Reading.part (·.text) (fun c t => { c with text := t }) Reading.text)]

def readAll : Reading (Reading.Items Change) := Reading.items ⟨none, []⟩ read

end Change

namespace DocumentItem

def uriField : Text × Reading DocumentItem :=
  ("uri", Reading.part (·.uri) (fun d t => { d with uri := t }) Reading.text)

def versionField : Text × Reading DocumentItem :=
  ("version", Reading.part (·.version) (fun d n => { d with version := n }) Reading.int64)

/-- A document by its identifier. -/
def readName : Reading DocumentItem := Reading.record [uriField]

/-- A document by its identifier and version. -/
def readVersion : Reading DocumentItem := Reading.record [uriField, versionField]

/-- A document with its text. -/
def read : Reading DocumentItem :=
  Reading.record [uriField, versionField,
    ("languageId", Reading.part (·.language) (fun d t => { d with language := t }) Reading.text),
    ("text", Reading.part (·.text) (fun d t => { d with text := t }) Reading.text)]

end DocumentItem

namespace InitializeParams

def read : Reading InitializeParams :=
  Reading.record [
    ("rootUri", Reading.part (·.rootUri) (fun p t => { p with rootUri := t }) Reading.text),
    ("rootPath", Reading.part (·.rootPath) (fun p t => { p with rootPath := t }) Reading.text),
    ("workspaceFolders", Reading.part (·.folders) (fun p fs => { p with folders := fs })
      (Reading.items {} Folder.read))]

end InitializeParams

namespace OpenParams

def read : Reading OpenParams :=
  Reading.record [
    ("textDocument", Reading.part (·.document) (fun p d => { p with document := d })
      DocumentItem.read)]

end OpenParams

namespace ChangeParams

def read : Reading ChangeParams :=
  Reading.record [
    ("textDocument", Reading.part (·.document) (fun p d => { p with document := d })
      DocumentItem.readVersion),
    ("contentChanges", Reading.part (·.changes) (fun p cs => { p with changes := cs })
      Change.readAll)]

end ChangeParams

namespace SaveParams

def read : Reading SaveParams :=
  Reading.record [
    ("textDocument", Reading.part (·.document) (fun p d => { p with document := d })
      DocumentItem.readName),
    ("text", Reading.part (·.text) (fun p t => { p with text := t })
      (Reading.optional [] Reading.text))]

end SaveParams

namespace CloseParams

def read : Reading CloseParams :=
  Reading.record [
    ("textDocument", Reading.part (·.document) (fun p d => { p with document := d })
      DocumentItem.readName)]

end CloseParams

namespace PositionParams

def read : Reading PositionParams :=
  Reading.record [
    ("textDocument", Reading.part (·.document) (fun p d => { p with document := d })
      DocumentItem.readName),
    ("position", Reading.part (·.position) (fun p q => { p with position := q }) Point.read)]

end PositionParams
end ScriptNav.Server
