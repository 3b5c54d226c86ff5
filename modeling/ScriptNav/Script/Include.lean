import ScriptNav.Script.ModulePath

/-! Include directives. -/
namespace ScriptNav.Script

open Text

/-- The module path of a directive, after its keyword. -/
def directive? (t : Text) : Option Text :=
  let (path, rest) := leadingPath (t.dropWhile isSpace)
  if !path.isEmpty && startsWith [semicolon] (rest.dropWhile isSpace) then some path else none

def includeKeyword : Text := "#include"

/-- The module path of every include directive, in the order of the text, duplicates kept. -/
def includes (t : Text) : List Text := go [] t
where
  go (found : List Text) : Text → List Text
    | [] => found.reverse
    | b :: rest =>
      match (after? includeKeyword (b :: rest)).bind directive? with
      | some path => go (path :: found) rest
      | none => go found rest

end ScriptNav.Script
