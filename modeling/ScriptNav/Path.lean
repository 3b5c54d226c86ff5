import ScriptNav.Text.Basic

/-! Slash paths, taken apart into names with `.` and `..` worked out by their spelling alone. -/
namespace ScriptNav.Path

open Text

def here : Text := "."
def up : Text := ".."

/-- A path as its names; a relative path may begin with steps up, a rooted one holds none. -/
structure Parts where
  rooted : Bool
  names : List Text
deriving DecidableEq, Repr

def isRooted (path : Text) : Bool := path.head? == some slash

/-- Puts one more name on the names gathered so far, the last one first. -/
def push (rooted : Bool) (stack : List Text) (name : Text) : List Text :=
  if name.isEmpty || name == here then stack
  else if name == up then
    match stack with
    | [] => if rooted then [] else [up]
    | top :: below => if top == up then up :: top :: below else below
  else name :: stack

def parts (path : Text) : Parts :=
  let rooted := isRooted path
  ⟨rooted, ((path.split slash).foldl (push rooted) []).reverse⟩

namespace Parts

def toText (p : Parts) : Text :=
  if p.rooted then slash :: join [slash] p.names
  else if p.names.isEmpty then here
  else join [slash] p.names

end Parts

/-- The shortest spelling of a path. -/
def clean (path : Text) : Text := (parts path).toText

/-- Two paths one after the other; an empty one does not count. -/
def append (base path : Text) : Text :=
  if base.isEmpty then (if path.isEmpty then [] else clean path)
  else clean (base ++ slash :: path)

/-- The rooted form of a path that is meant from `cwd`. -/
def absolute (cwd path : Text) : Text :=
  if isRooted path then clean path else append cwd path

/-- The directory that holds what a path names. -/
def parent (path : Text) : Text := clean (path.dropEndWhile (· != slash))

/-- The last name of a path. -/
def baseName (path : Text) : Text := (parts path).names.getLastD []

/-- From the last dot of the last name on. -/
def extension (path : Text) : Text :=
  let last := path.reverse.takeWhile (· != slash)
  if last.contains dot then (last.takeWhile (· != dot)).reverse.cons dot else []

/-- The names by which `path` lies beneath `root`, if it does. -/
def beneath? (root path : Text) : Option (List Text) :=
  let r := parts root
  let p := parts path
  if r.rooted == p.rooted then
    (r.names.isPrefixOf? p.names).bind fun rest => if rest.contains up then none else some rest
  else none

/-- A path as seen from `root` when it lies beneath it, and as it is otherwise. -/
def relative (root path : Text) : Text :=
  if root.isEmpty then path
  else
    match beneath? root path with
    | some names => (Parts.mk false names).toText
    | none => path

end ScriptNav.Path
