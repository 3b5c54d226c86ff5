import ScriptNav.Text.Utf8

/-! JSON values. A number keeps its numeral, and an object keeps its members in the order written,
duplicates included, because both show in what a reader makes of them. -/
namespace ScriptNav

inductive Json where
  | null
  | bool (value : Bool)
  | number (numeral : Text)
  | string (value : Text)
  | array (items : List Json)
  | object (members : List (Text × Json))

namespace Json

def int (n : Int) : Json := .number (Text.ofInt n)

def nat (n : Nat) : Json := .number (Text.ofNat n)

/-- The blanks between the parts of a value. -/
def isBlank (b : UInt8) : Bool :=
  b == Text.blank || b == Text.tab || b == Text.newline || b == Text.carriage

def texts (ts : List Text) : Json := .array (ts.map .string)

def member (key : Text) (value : Json) : List (Text × Json) := [(key, value)]

/-- A member that is left out when its text is empty. -/
def unlessEmpty (key value : Text) : List (Text × Json) :=
  if value.isEmpty then [] else [(key, .string value)]

end Json
end ScriptNav
