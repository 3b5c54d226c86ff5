import ScriptNav.Text.Position
import ScriptNav.Text.Utf8

/-! Positions as editors count them: lines, and UTF-16 units within a line, in words of 32 bits. -/
namespace ScriptNav.Server

open Text

structure Point where
  line : UInt32
  character : UInt32
deriving DecidableEq, Repr

structure Range where
  start : Point
  stop : Point
deriving DecidableEq, Repr

/-- One change of a document: a new text for a range, or for the whole document. -/
structure Change where
  range : Option Range
  text : Text
deriving DecidableEq, Repr

/-- The UTF-16 units of a code point. -/
def units (code : Nat) : UInt32 := if 0xFFFF < code then 2 else 1

/-- How many bytes of a line lie before the UTF-16 column `limit`, when `done` units lie behind. A
column inside a character is the beginning of that character. -/
def columnLength (limit : UInt32) : UInt32 → Nat → Text → Nat
  | _, _, [] => 0
  | done, skip + 1, _ :: t => columnLength limit done skip t + 1
  | done, 0, b :: t =>
    if limit ≤ done then 0
    else if b == newline || (b == carriage && t.head? == some newline) then 0
    else
      let (code, width) := Utf8.decode b t
      if limit < done + units code then 0
      else columnLength limit (done + units code) (width - 1) t + 1

/-- The offset of a point. -/
def offsetOf (t : Text) (p : Point) : Nat :=
  match fromLine? p.line.toNat t with
  | none => t.length
  | some rest => t.length - rest.length + columnLength p.character 0 0 rest

/-- The nearest word of 32 bits. -/
def word (n : Int) : UInt32 := if n < 0 then 0 else UInt32.ofNat (min n.toNat 0xFFFFFFFF)

/-- The length of a text in UTF-16 units. -/
def unitLength (t : Text) : Nat := (Utf8.codes t).foldr (fun code n => (units code).toNat + n) 0

/-- The point at an offset. -/
def pointAt (t : Text) (offset : Int) : Point :=
  let front := t.take (t.clamp offset)
  ⟨word (front.count newline), word (unitLength (lastLine front))⟩

def rangeBetween (t : Text) (start stop : Int) : Range := ⟨pointAt t start, pointAt t stop⟩

namespace Change

/-- The text after a change. A range whose end lies before its beginning is empty. -/
def apply (t : Text) (c : Change) : Text :=
  match c.range with
  | none => c.text
  | some r =>
    let start := offsetOf t r.start
    let stop := max start (offsetOf t r.stop)
    t.take start ++ c.text ++ t.drop stop

/-- The text after changes, each made on what the one before it left. -/
def applyAll (t : Text) (changes : List Change) : Text := changes.foldl apply t

end Change
end ScriptNav.Server
