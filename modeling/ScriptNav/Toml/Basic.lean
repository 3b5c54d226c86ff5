import ScriptNav.Text.Letter

/-! TOML documents as trees, with the keys in the order in which the text names them. -/
namespace ScriptNav.Toml

open Text

/-- A value. What floats and dates stand for is never asked, only that they are written properly. -/
inductive Value where
  | string (value : Text)
  | integer (value : Int)
  | boolean (value : Bool)
  | float
  | datetime
  | array (items : List Value)
  | tables (items : List (List (Text × Value)))
  | table (entries : List (Text × Value))

abbrev Table := List (Text × Value)

abbrev Key := List Text

/-- A finished document. -/
structure Document where
  root : Table
  keys : List Key

def isBareByte (b : UInt8) : Bool := isWord b || b == minus

/-- One part of a key as messages show it: in quotes unless it is a bare word. -/
def Key.part (name : Text) : Text :=
  if !name.isEmpty && name.all isBareByte then name
  else
    let escape := fun (b : UInt8) =>
      if b == quote then ("\\\"" : Text)
      else if b == backslash then "\\\\"
      else if b == 8 then "\\b"
      else if b == tab then "\\t"
      else if b == newline then "\\n"
      else if b == formFeed then "\\f"
      else if b == carriage then "\\r"
      else if b < 32 || b == 127 then
        "\\u00" ++ [48 + b / 16, if b % 16 < 10 then 48 + b % 16 else 87 + b % 16]
      else [b]
    quote :: name.flatMap escape ++ [quote]

def Key.toText (key : Key) : Text := join [dot] (key.map Key.part)

/-- Whether a table holds a value under a key, spelled exactly so. -/
def defines (entries : Table) : Key → Bool
  | [] => false
  | [name] => (entries.lookup name).isSome
  | name :: rest =>
    match entries.lookup name with
    | some (.table inner) => defines inner rest
    | _ => false

/-- The field that a key names: the one spelled so, or else the first one that letter case alone
sets apart. -/
def field? (fields : List Text) (name : Text) : Option Text :=
  (fields.find? (· == name)).or (fields.find? (equalFold · name))

/-- The values that a table gives a field, under all spellings of its key. -/
def Table.values (entries : Table) (fields : List Text) (name : Text) : List Value :=
  (entries.filter fun entry => field? fields entry.1 == some name).map Prod.snd

/-- What a table's value of a field is read as, the last one counting, or a default where it has
none; nothing if a value has the wrong type. -/
def Table.getOr {α : Type} (entries : Table) (fields : List Text) (name : Text)
    (read : Value → Option α) (fallback : α) : Option α :=
  ((entries.values fields name).mapM read).map (·.getLastD fallback)

namespace Value

def asString? : Value → Option Text
  | string value => some value
  | _ => none

def asInteger? : Value → Option Int
  | integer value => some value
  | _ => none

def asBoolean? : Value → Option Bool
  | boolean value => some value
  | _ => none

def asTable? : Value → Option Table
  | table entries => some entries
  | _ => none

def asList? : Value → Option (List Value)
  | array items => some items
  | tables items => some (items.map table)
  | _ => none

def asStrings? (v : Value) : Option (List Text) := v.asList?.bind (·.mapM asString?)

end Value
end ScriptNav.Toml
