import ScriptNav.Text.Utf8
import ScriptNav.Text.LetterTable

/-! Letter case over code points, one to one: lower case, and equality up to case. -/
namespace ScriptNav

namespace Letter

/-- The lower-case form of a code point. -/
def lower (code : Nat) : Nat :=
  if code < 0x80 then (if 65 ≤ code && code ≤ 90 then code + 32 else code)
  else
    match lowerRanges.find? fun r =>
        r.first ≤ code && code ≤ r.last && (code - r.first) % r.step == 0 with
    | some r => (code + r.shift).toNat
    | none => code

/-- One letter for each class of letters that are equal up to case. The capital I with a dot is in a
class of its own. -/
def fold (code : Nat) : Nat :=
  if code == 0x130 then code
  else
    let small := lower code
    if small < 0x80 then small else (variants.lookup small).getD small

end Letter

namespace Text

def toLower (t : Text) : Text := Utf8.ofCodes ((Utf8.codes t).map Letter.lower)

/-- Equality up to letter case, code point by code point. -/
def equalFold (s t : Text) : Bool :=
  (Utf8.codes s).map Letter.fold == (Utf8.codes t).map Letter.fold

end Text
end ScriptNav
