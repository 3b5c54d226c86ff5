import ScriptNav.Ignore.Parser

/-! Lists of ignored files. Each line stands for a regular expression on relative paths, and the
last line that matches a path decides. -/
namespace ScriptNav.Ignore

open Text

structure Rule where
  pattern : Pattern
  isNegated : Bool

/-- Replaces every occurrence of a text, from left to right. -/
def replaceFrom (old new : Text) (out : Text) : Nat → Text → Text
  | _, [] => out.reverse
  | skip + 1, _ :: t => replaceFrom old new out skip t
  | 0, b :: t =>
    if startsWith old (b :: t) then replaceFrom old new (new.reverse ++ out) (old.length - 1) t
    else replaceFrom old new (b :: out) 0 t

def replace (old new t : Text) : Text := replaceFrom old new [] 0 t

/-- Whether a star before a dot stands on the same line. -/
def hasStarDot : Text → Bool
  | b :: c :: t => (b == asterisk && c == dot) || (b != newline && hasStarDot (c :: t))
  | _ => false

/-- Whether a line names files by a star and an extension in a directory. -/
def namesInDirectory : Text → Bool
  | b :: c :: t =>
    (b != slash && b != plus && c == slash && hasStarDot t) || namesInDirectory (c :: t)
  | _ => false

/-- Stands for a star of the regular expression while the stars of the line are worked out. -/
def starMark : Text := "#$~"

/-- The regular expression of a line without its negation. -/
def expression (line : Text) : Text :=
  let line := if namesInDirectory line && !startsWith "/" line then slash :: line else line
  let line := replace "." "\\." line
  let line := if startsWith "/**/" line then line.drop 1 else line
  let line := replace "/**/" "(/|/.+/)" line
  let line := replace "**/" ("(|." ++ starMark ++ "/)") line
  let line := replace "/**" ("(|/." ++ starMark ++ ")") line
  let line := replace "\\*" ("\\" ++ starMark) line
  let line := replace "*" "([^/]*)" line
  let line := replace "?" "\\?" line
  let line := replace starMark "*" line
  let tail : Text := if endsWith "/" line then "(|.*)$" else "(|/.*)$"
  match line ++ tail with
  | first :: rest => if first == slash then "^(|/)" ++ rest else "^(|.*/)" ++ first :: rest
  | [] => "^(|.*/)"

/-- The rule of a line, unless it is a comment, blank, or no regular expression. -/
def rule? (line : Text) : Option Rule :=
  let line := line.dropEndWhile (· == carriage)
  if startsWith "#" line then none
  else
    let line := line.strip (· == blank)
    if line.isEmpty then none
    else
      let (isNegated, line) := match after? "!" line with
        | some rest => (true, rest)
        | none => (false, line)
      let line := ((after? "#" line).or (after? "!" line)).getD line
      (Pattern.parse? (expression line)).map fun pattern => ⟨pattern, isNegated⟩

/-- The rules of lines. -/
def rules (lines : List Text) : List Rule := lines.filterMap rule?

/-- Whether rules ignore a path. -/
def isIgnored (rules : List Rule) (path : Text) : Bool :=
  rules.foldl (fun ignored rule =>
    if rule.pattern.occursIn path then !rule.isNegated else ignored) false

end ScriptNav.Ignore
