import ScriptNav.Text.Integer
import ScriptNav.Text.Position

/-! Positions as users write them: a line and a column counted from one, with a colon between. -/
namespace ScriptNav.Command

open Text

inductive LocationError where
  | malformed (location : Text)
  | badLine (line : Text)
  | badColumn (column : Text)
deriving DecidableEq, Repr

namespace LocationError

def message : LocationError → Text
  | malformed location => "invalid position " ++ quoted location ++ ": want LINE:COL"
  | badLine line => "invalid line " ++ quoted line
  | badColumn column => "invalid column " ++ quoted column

end LocationError

/-- A number that counts from one. -/
def parseCount? (t : Text) : Option Int :=
  match parseInteger t with
  | .ok n => if 1 ≤ n then some n else none
  | .error _ => none

def parseLocation (t : Text) : Except LocationError Position :=
  match cut? colon t with
  | none => .error (.malformed t)
  | some (line, column) =>
    match parseCount? line, parseCount? column with
    | none, _ => .error (.badLine line)
    | some _, none => .error (.badColumn column)
    | some l, some c => .ok ⟨l - 1, c - 1⟩

/-- A position as users write it. -/
def showLocation (p : Position) : Text := ofInt (p.line + 1) ++ ":" ++ ofInt (p.column + 1)

end ScriptNav.Command
