import ScriptNav.Text.Letter

/-! Module paths: words that slashes of either kind divide, and the files they denote. -/
namespace ScriptNav.Script

open Text

def isSeparator (b : UInt8) : Bool := b == backslash || b == slash

/-- The longest module path that begins a text. Paths read the same both ways, so on a reversed text
this is the reverse of the longest path that ends it. -/
def pathRun : Text → Text
  | [] => []
  | b :: t =>
    if isWord b then
      match t with
      | c :: d :: more =>
        if isSeparator c && isWord d then b :: c :: pathRun (d :: more)
        else b :: pathRun (c :: d :: more)
      | rest => b :: pathRun rest
    else []

/-- The longest module path that ends a text. -/
def trailingPath (t : Text) : Text := (pathRun t.reverse).reverse

/-- The longest module path that begins a text, and the rest. -/
def leadingPath (t : Text) : Text × Text :=
  let path := pathRun t
  (path, t.drop path.length)

/-- The non-empty pieces of a module path. -/
def segments (path : Text) : List Text := (path.splitBy isSeparator).filter (!·.isEmpty)

/-- The relative file name that a module path denotes. -/
def moduleFile (path extension : Text) : Text := join [slash] (segments path) ++ extension

/-- Whether a relative path names the file `pattern` in some directory, letter case aside. -/
def namesFile (path pattern : Text) : Bool :=
  if path.length < pattern.length then false
  else if path.length == pattern.length then path.equalFold pattern
  else
    let start := path.length - pattern.length
    path[start - 1]? == some slash && equalFold (path.drop start) pattern

end ScriptNav.Script
