import ScriptNav.Text.Blank
import ScriptNav.Text.Letter
import ScriptNav.Toml.Parser

/-! The documentation of the functions that the engine itself provides, by name in any letter case.
-/
namespace ScriptNav.Catalog

open Text

structure Param where
  name : Text := []
  isOptional : Bool := false
deriving DecidableEq, Repr

structure Entry where
  name : Text
  /-- What the function is called on, or nothing. -/
  callOn : Text := []
  summary : Text := []
  usage : Text := []
  games : List Text := []
  params : List Param := []
deriving DecidableEq, Repr

namespace Param

def toText (p : Param) : Text := if p.isOptional then "[" ++ p.name ++ "]" else "<" ++ p.name ++ ">"

end Param

namespace Entry

def signature (e : Entry) : Text :=
  let call := e.name ++ "(" ++ join ", " (e.params.map Param.toText) ++ ")"
  if e.callOn.isEmpty then call else "<" ++ e.callOn ++ "> " ++ call

end Entry

inductive Error where
  | malformed
  | nameless
deriving DecidableEq, Repr

namespace Error

def message : Error → Text
  | malformed => "parsing catalog"
  | nameless => "parsing catalog: function without a name"

end Error

/-- Whether a name is more than white space. -/
def isName (name : Text) : Bool := !(trim name).isEmpty

/-- The later of two entries of one name counts. -/
def add (entries : List Entry) (e : Entry) : List Entry :=
  entries.filter (·.name.toLower != e.name.toLower) ++ [e]

/-- Entries with one name each. -/
def ofEntries (entries : List Entry) : List Entry := entries.foldl add []

/-- The entry of a function. -/
def lookup? (entries : List Entry) (name : Text) : Option Entry :=
  entries.find? (·.name.toLower == name.toLower)

def paramFields : List Text := ["name", "optional"]

def entryFields : List Text := ["name", "callon", "summary", "example", "games", "param"]

def param? (value : Toml.Value) : Option Param := do
  let entries ← value.asTable?
  return {
    name := ← entries.getOr paramFields "name" Toml.Value.asString? []
    isOptional := ← entries.getOr paramFields "optional" Toml.Value.asBoolean? false }

def entry? (value : Toml.Value) : Option Entry := do
  let entries ← value.asTable?
  let text := fun (name : Text) => entries.getOr entryFields name Toml.Value.asString? []
  return {
    name := ← text "name"
    callOn := ← text "callon"
    summary := ← text "summary"
    usage := ← text "example"
    games := ← entries.getOr entryFields "games" Toml.Value.asStrings? []
    params := ← entries.getOr entryFields "param"
      (fun value => value.asList?.bind (·.mapM param?)) [] }

/-- Reads a catalog, whose functions are an array of tables. -/
def parse (t : Text) : Except Error (List Entry) :=
  let functions := (Toml.parse? t).bind fun document =>
    document.root.getOr ["function"] "function" (fun value => value.asList?.bind (·.mapM entry?)) []
  match functions with
  | none => .error .malformed
  | some entries =>
    if entries.all (isName ·.name) then .ok (ofEntries entries) else .error .nameless

end ScriptNav.Catalog
