import ScriptNav.Json.Basic

/-! Writing JSON, on one line or indented by two blanks a level. Strings are safe inside markup:
angle brackets, ampersands and the two line separators of Unicode are written as escapes. -/
namespace ScriptNav.Json

open Text

/-- The escape of a code point below `0x10000`. -/
def unicodeEscape (code : Nat) : Text :=
  [backslash, 117, hexDigit (code / 4096 % 16), hexDigit (code / 256 % 16),
    hexDigit (code / 16 % 16), hexDigit (code % 16)]

/-- Code points that markup or scripts would read as their own. -/
def isUnsafe (code : Nat) : Bool :=
  code == 60 || code == 62 || code == 38 || code == 0x2028 || code == 0x2029

def escapeRune : Nat × Text → Text
  | (code, bytes) =>
    if code == 34 then "\\\""
    else if code == 92 then "\\\\"
    else if code == 8 then "\\b"
    else if code == 12 then "\\f"
    else if code == 10 then "\\n"
    else if code == 13 then "\\r"
    else if code == 9 then "\\t"
    else if code < 32 || isUnsafe code then unicodeEscape code
    else if code == Utf8.replacement && bytes.length == 1 then "\\ufffd"
    else bytes

def quoted (t : Text) : Text := quote :: (Utf8.runes t).flatMap escapeRune ++ [quote]

mutual

def render : Json → Text
  | .null => "null"
  | .bool b => if b then "true" else "false"
  | .number numeral => numeral
  | .string value => quoted value
  | .array items => openBracket :: join [comma] (renderItems items) ++ [closeBracket]
  | .object members => openBrace :: join [comma] (renderMembers members) ++ [closeBrace]

def renderItems : List Json → List Text
  | [] => []
  | item :: items => render item :: renderItems items

def renderMembers : List (Text × Json) → List Text
  | [] => []
  | (key, value) :: members => (quoted key ++ colon :: render value) :: renderMembers members

end

/-- The source of a value without the blanks outside strings, with the same escapes. -/
def compactFrom (inString : Bool) : List (Nat × Text) → Text
  | [] => []
  | (code, bytes) :: rest =>
    if isBlank code.toUInt8 && code < 128 && !inString then compactFrom false rest
    else if code == 92 then
      match rest with
      | [] => bytes
      | (_, escaped) :: rest => bytes ++ escaped ++ compactFrom inString rest
    else
      (if isUnsafe code then unicodeEscape code else bytes) ++
        compactFrom (if code == 34 then !inString else inString) rest

def compact (t : Text) : Text := compactFrom false (Utf8.runes t)

/-- Pieces on lines of their own, one level deeper than their brackets. -/
def bracketed (left right : UInt8) (depth : Nat) (pieces : List Text) : Text :=
  if pieces.isEmpty then [left, right]
  else
    let margin (n : Nat) : Text := newline :: List.replicate (2 * n) blank
    left :: margin (depth + 1) ++ join (comma :: margin (depth + 1)) pieces ++
      margin depth ++ [right]

mutual

def indented (depth : Nat) : Json → Text
  | .array items => bracketed openBracket closeBracket depth (indentedItems (depth + 1) items)
  | .object members => bracketed openBrace closeBrace depth (indentedMembers (depth + 1) members)
  | .null => "null"
  | .bool b => if b then "true" else "false"
  | .number numeral => numeral
  | .string value => quoted value

def indentedItems (depth : Nat) : List Json → List Text
  | [] => []
  | item :: items => indented depth item :: indentedItems depth items

def indentedMembers (depth : Nat) : List (Text × Json) → List Text
  | [] => []
  | (key, value) :: members =>
    (quoted key ++ colon :: blank :: indented depth value) :: indentedMembers depth members

end

end ScriptNav.Json
