import ScriptNav.Json.Printer
import ScriptNav.Server.Position

/-! What the server sends. A reply carries the id of its request as it was written, or null. -/
namespace ScriptNav.Server

open Text

/-- Why a request is refused. -/
inductive Refusal where
  | shuttingDown
  | unknownMethod
  | invalidParams
deriving DecidableEq, Repr

namespace Refusal

def code : Refusal → Int
  | shuttingDown => -32600
  | unknownMethod => -32601
  | invalidParams => -32602

def message : Refusal → Text
  | shuttingDown => "server is shutting down"
  | unknownMethod => "method not found"
  | invalidParams => "invalid params"

end Refusal

/-- What a request is answered. -/
inductive Answer where
  | result (value : Json)
  | refused (refusal : Refusal)

structure Reply where
  id : Option Text
  answer : Answer

namespace Reply

/-- The text of a reply; its members stand in the order of their names. -/
def toText (r : Reply) : Text :=
  let id := ("\"id\":" : Text) ++ Json.compact (r.id.getD "null")
  let version : Text := "\"jsonrpc\":\"2.0\""
  let members := match r.answer with
    | .result value => [id, version, "\"result\":" ++ value.render]
    | .refused refusal =>
      let error := Json.object [("code", .int refusal.code), ("message", .string refusal.message)]
      ["\"error\":" ++ error.render, id, version]
  openBrace :: join [comma] members ++ [closeBrace]

end Reply

namespace Point

def toJson (p : Point) : Json :=
  .object [("line", .nat p.line.toNat), ("character", .nat p.character.toNat)]

end Point

namespace Range

def toJson (r : Range) : Json := .object [("start", r.start.toJson), ("end", r.stop.toJson)]

end Range
end ScriptNav.Server
