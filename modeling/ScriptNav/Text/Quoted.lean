import ScriptNav.Text.PrintableTable
import ScriptNav.Text.Utf8

/-! Quoted texts in messages: what does not print is written as an escape. -/
namespace ScriptNav.Text

def isPrintable (code : Nat) : Bool :=
  if code < 0x80 then 32 ≤ code && code < 127
  else inRanges printableRanges code

/-- The last `places` hexadecimal digits of a number. -/
def hex : Nat → Nat → Text
  | 0, _ => []
  | places + 1, n => hex places (n / 16) ++ [hexDigit (n % 16)]

/-- The letter that names a control character after a backslash. -/
def controlName? (code : Nat) : Option UInt8 :=
  [(7, 97), (8, 98), (12, 102), (10, 110), (13, 114), (9, 116), (11, 118)].lookup code

/-- A code point between marks `mark`. -/
def quotedRune (mark : Nat) : Nat × Text → Text
  | (code, bytes) =>
    if code == mark || code == 92 then backslash :: bytes
    else if code == Utf8.replacement && bytes.length == 1 then
      "\\x" ++ hex 2 ((bytes.headD 0).toNat)
    else if isPrintable code then bytes
    else
      match controlName? code with
      | some letter => [backslash, letter]
      | none =>
        if code < 32 || code == 127 then "\\x" ++ hex 2 code
        else if code < 0x10000 then "\\u" ++ hex 4 code
        else "\\U" ++ hex 8 code

def quoted (t : Text) : Text := quote :: (Utf8.runes t).flatMap (quotedRune 34) ++ [quote]

/-- One code point between apostrophes. -/
def quotedChar (code : Nat) : Text :=
  apostrophe :: quotedRune 39 (code, Utf8.encode code) ++ [apostrophe]

end ScriptNav.Text
