import ScriptNav.Text.Basic

/-! Lines and byte columns, both counted from zero. A line ends before its line feed, and before the
carriage return that precedes it. -/
namespace ScriptNav

structure Position where
  line : Int
  column : Int
deriving DecidableEq, Repr

namespace Text

/-- Integers are machine words of 64 bits, whose sums wrap around. -/
def wrap (n : Int) : Int := n.bmod 0x10000000000000000

/-- An offset brought into the text. -/
def clamp (t : Text) (offset : Int) : Nat := min offset.toNat t.length

/-- The part of the last line of a text. -/
def lastLine (t : Text) : Text := (t.reverse.takeWhile (· != newline)).reverse

/-- The first line of a text, its line break excluded. -/
def firstLine (t : Text) : Text :=
  let line := t.takeWhile (· != newline)
  (before? [carriage] line).getD line

def positionAt (t : Text) (offset : Int) : Position :=
  let front := t.take (t.clamp offset)
  ⟨front.count newline, (lastLine front).length⟩

/-- What stands from the first byte of line `n` on, if there is such a line. -/
def fromLine? : Nat → Text → Option Text
  | 0, t => some t
  | _ + 1, [] => none
  | n + 1, b :: t => if b == newline then fromLine? n t else fromLine? (n + 1) t

/-- The offset of a position. A column past the end of its line is the end of the line, and a line
past the last one is the end of the text. -/
def offsetAt (t : Text) (p : Position) : Int :=
  if p.line < 0 || p.column < 0 then 0
  else
    match fromLine? p.line.toNat t with
    | none => t.length
    | some rest =>
      let start : Int := (t.length - rest.length : Nat)
      let stop := start + (firstLine rest).length
      let target := wrap (start + p.column)
      if stop < target then stop else target

/-- The offset of the first byte of the line that holds `offset`. -/
def lineStart (t : Text) (offset : Nat) : Nat := offset - (lastLine (t.take offset)).length

/-- The offset behind the last byte of the line that holds `offset`, its line break excluded. -/
def lineEnd (t : Text) (offset : Nat) : Nat := offset + (firstLine (t.drop offset)).length

end Text
end ScriptNav
