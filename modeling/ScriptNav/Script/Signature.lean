import ScriptNav.Text.Blank

/-! A function and its parameters on one line. -/
namespace ScriptNav.Script

open Text

/-- Writes each run of blanks as one blank. -/
def collapse (t : Text) : Text := go [] false t
where
  go (out : Text) (inRun : Bool) : Text → Text
    | [] => out.reverse
    | b :: rest =>
      if isSpace b then go (if inRun then out else blank :: out) true rest
      else go (b :: out) false rest

def signature (name params : Text) : Text :=
  name ++ openParen :: trim (collapse params) ++ [closeParen]

end ScriptNav.Script
