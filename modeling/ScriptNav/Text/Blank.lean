import ScriptNav.Text.Utf8

/-! White space of Unicode, and trimming it. -/
namespace ScriptNav.Text

def isBlankCode (code : Nat) : Bool :=
  (9 ≤ code && code ≤ 13) || code == 32 || code == 0x85 || code == 0xA0 || code == 0x1680 ||
  (0x2000 ≤ code && code ≤ 0x200A) || code == 0x2028 || code == 0x2029 || code == 0x202F ||
  code == 0x205F || code == 0x3000

/-- The text without white space at either end. -/
def trim (t : Text) : Text :=
  let isBlankRune := fun (r : Nat × Text) => isBlankCode r.1
  let back := ((Utf8.runes t).dropWhile isBlankRune).reverse.dropWhile isBlankRune
  (back.reverse.map Prod.snd).flatten

end ScriptNav.Text
