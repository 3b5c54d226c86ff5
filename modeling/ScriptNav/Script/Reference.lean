import ScriptNav.Script.ModulePath
import ScriptNav.Text.Position

/-! The function reference under a cursor: an identifier that is called, or that follows the
separator `::` with or without a module path before it. -/
namespace ScriptNav.Script

open Text

/-- How a reference is used. -/
inductive Shape where
  | call
  | pointer
deriving DecidableEq, Repr

structure Reference where
  name : Text
  /-- The module path before the separator, or nothing. -/
  namespacePath : Text
  shape : Shape
  start : Nat
  stop : Nat
deriving DecidableEq, Repr

namespace Reference

def isNamespaced (r : Reference) : Bool := !r.namespacePath.isEmpty

end Reference

/-- The module path before a separator `::` at the end of a line's front part, if the separator is
there; blanks may stand behind it and before it. -/
def qualifier? (front : Text) : Option Text :=
  (before? [colon, colon] (front.dropEndWhile isSpace)).map fun rest =>
    trailingPath (rest.dropEndWhile isSpace)

/-- Whether an argument list opens after blanks. -/
def opensCall (back : Text) : Bool := startsWith [openParen] (back.dropWhile isSpace)

/-- The longest run of identifier bytes that touches an offset. -/
def identifierAt (t : Text) (offset : Nat) : Nat × Nat :=
  let back := ((t.take offset).reverse.takeWhile isWord).length
  let ahead := ((t.drop offset).takeWhile isWord).length
  (offset - back, offset + ahead)

/-- The reference at an offset of a text, with the offset anywhere from the first byte of the
identifier to just behind its last. -/
def referenceAt (t : Text) (offset : Int) : Option Reference :=
  if offset < 0 || t.length < offset then none
  else
    let (start, stop) := identifierAt t offset.toNat
    if start == stop then none
    else
      let name := (t.take stop).drop start
      let called := opensCall (firstLine (t.drop stop))
      match qualifier? (lastLine (t.take start)), called with
      | none, false => none
      | none, true => some ⟨name, [], .call, start, stop⟩
      | some path, called => some ⟨name, path, if called then .call else .pointer, start, stop⟩

end ScriptNav.Script
