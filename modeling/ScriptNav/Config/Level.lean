import ScriptNav.Text.Integer
import ScriptNav.Text.Position

/-! Log levels: a name in any letter case, and a number of steps above or below it. -/
namespace ScriptNav.Config

open Text

inductive LevelFault where
  | unknownName
  | badOffset (error : IntegerError)
deriving DecidableEq, Repr

structure LevelError where
  level : Text
  fault : LevelFault
deriving DecidableEq, Repr

namespace LevelError

def message (e : LevelError) : Text :=
  "slog: level string " ++ quoted e.level ++ ": " ++
    match e.fault with
    | .unknownName => "unknown name"
    | .badOffset error => error.message

end LevelError

/-- Capital letters, among them that of the dotless i. -/
def upperCode (code : Nat) : Nat :=
  if 97 ≤ code && code ≤ 122 then code - 32 else if code == 0x131 then 73 else code

def baseLevel? (name : Text) : Option Int :=
  let name := Utf8.ofCodes ((Utf8.codes name).map upperCode)
  [(("DEBUG" : Text), (-4 : Int)), ("INFO", 0), ("WARN", 4), ("ERROR", 8)].lookup name

def parseLevel (t : Text) : Except LevelError Int :=
  let isSign := fun b => b == plus || b == minus
  let name := t.takeWhile (!isSign ·)
  let steps := t.drop name.length
  match (if steps.isEmpty then .ok 0 else parseInteger steps), baseLevel? name with
  | .error error, _ => .error ⟨t, .badOffset error⟩
  | .ok _, none => .error ⟨t, .unknownName⟩
  | .ok n, some base => .ok (wrap (base + n))

end ScriptNav.Config
