/-! Texts are sequences of bytes. Offsets, columns and lengths all count the bytes of this form;
code points and UTF-16 units are measures on it. -/
namespace ScriptNav

abbrev Text := List UInt8

namespace Text

/-- The bytes of the UTF-8 form of a string. -/
def ofString (s : String) : Text := s.toUTF8.data.toList

instance : Coe String Text := ⟨ofString⟩

abbrev tab : UInt8 := 9
abbrev newline : UInt8 := 10
abbrev formFeed : UInt8 := 12
abbrev carriage : UInt8 := 13
abbrev blank : UInt8 := 32
abbrev quote : UInt8 := 34
abbrev hashSign : UInt8 := 35
abbrev apostrophe : UInt8 := 39
abbrev openParen : UInt8 := 40
abbrev closeParen : UInt8 := 41
abbrev asterisk : UInt8 := 42
abbrev plus : UInt8 := 43
abbrev comma : UInt8 := 44
abbrev minus : UInt8 := 45
abbrev dot : UInt8 := 46
abbrev slash : UInt8 := 47
abbrev colon : UInt8 := 58
abbrev semicolon : UInt8 := 59
abbrev equals : UInt8 := 61
abbrev openBracket : UInt8 := 91
abbrev backslash : UInt8 := 92
abbrev closeBracket : UInt8 := 93
abbrev underscore : UInt8 := 95
abbrev openBrace : UInt8 := 123
abbrev closeBrace : UInt8 := 125

def isDigit (b : UInt8) : Bool := 48 ≤ b && b ≤ 57

def isLower (b : UInt8) : Bool := 97 ≤ b && b ≤ 122

def isUpper (b : UInt8) : Bool := 65 ≤ b && b ≤ 90

/-- The bytes of identifiers and of module path segments. -/
def isWord (b : UInt8) : Bool := isLower b || isUpper b || isDigit b || b == underscore

/-- The blanks of the script grammar: no vertical tab, and nothing outside ASCII. -/
def isSpace (b : UInt8) : Bool :=
  b == blank || b == tab || b == newline || b == formFeed || b == carriage

/-- The decimal numeral of a number. -/
def ofNat (n : Nat) : Text := (Nat.toDigits 10 n).map fun c => c.toNat.toUInt8

def ofInt : Int → Text
  | .ofNat n => ofNat n
  | .negSucc n => minus :: ofNat (n + 1)

/-- Drops the bytes at the end that satisfy `p`. -/
def dropEndWhile (p : UInt8 → Bool) (t : Text) : Text := (t.reverse.dropWhile p).reverse

/-- Drops the bytes at either end that satisfy `p`. -/
def strip (p : UInt8 → Bool) (t : Text) : Text := dropEndWhile p (t.dropWhile p)

/-- What follows `lead`, if the text begins with it. -/
def after? (lead t : Text) : Option Text := lead.isPrefixOf? t

/-- What precedes `tail`, if the text ends with it. -/
def before? (tail t : Text) : Option Text := (tail.reverse.isPrefixOf? t.reverse).map List.reverse

def startsWith (lead t : Text) : Bool := lead.isPrefixOf t

def endsWith (tail t : Text) : Bool := tail.isSuffixOf t

/-- The parts around the first occurrence of `pattern`. -/
def find? (pattern : Text) : Text → Option (Text × Text)
  | [] => if pattern.isEmpty then some ([], []) else none
  | b :: t =>
    match after? pattern (b :: t) with
    | some rest => some ([], rest)
    | none => (find? pattern t).map fun (front, rest) => (b :: front, rest)

/-- The parts around the first byte `sep`. -/
def cut? (sep : UInt8) (t : Text) : Option (Text × Text) :=
  match t.dropWhile (· != sep) with
  | [] => none
  | _ :: rest => some (t.takeWhile (· != sep), rest)

/-- The pieces between the bytes that satisfy `p`; there is one more of them than such bytes. -/
def splitBy (p : UInt8 → Bool) (t : Text) : List Text :=
  t.foldr (fun b pieces =>
    if p b then [] :: pieces
    else match pieces with
      | [] => [[b]]
      | piece :: rest => (b :: piece) :: rest) [[]]

def split (sep : UInt8) (t : Text) : List Text := splitBy (· == sep) t

def join (sep : Text) (pieces : List Text) : Text := sep.intercalate pieces

/-- Replaces each byte by a text of its own. -/
def expand (f : UInt8 → Text) (t : Text) : Text := t.flatMap f

/-- Repeats a text. -/
def times (n : Nat) (t : Text) : Text := (List.replicate n t).flatten

/-- The hexadecimal digit of a number below sixteen. -/
def hexDigit (n : Nat) : UInt8 := if n < 10 then (48 + n).toUInt8 else (87 + n).toUInt8

/-- The value of a hexadecimal digit in either case. -/
def hexValue? (b : UInt8) : Option Nat :=
  if isDigit b then some (b.toNat - 48)
  else if 97 ≤ b && b ≤ 102 then some (b.toNat - 87)
  else if 65 ≤ b && b ≤ 70 then some (b.toNat - 55)
  else none

/-- Whether a number lies in one of the ranges, which are given by their first and last numbers. -/
def inRanges (ranges : List (Nat × Nat)) (n : Nat) : Bool :=
  ranges.any fun (first, last) => first ≤ n && n ≤ last

def lowerByte (b : UInt8) : UInt8 := if isUpper b then b + 32 else b

end Text
end ScriptNav
