import ScriptNav.Json.Basic

/-! Reading JSON. The readers take the text after the point reached and give back what is left, so
the source of a value is what lies between. -/
namespace ScriptNav.Json

open Text

def skipBlanks (t : Text) : Text := t.dropWhile isBlank

/-- The value of the first four hexadecimal digits. -/
def hex4? (t : Text) : Option Nat :=
  match (t.take 4).mapM hexValue? with
  | some [a, b, c, d] => some (((a * 16 + b) * 16 + c) * 16 + d)
  | _ => none

/-- The code point of an escape `\u` by its digits, and how many bytes it takes after the `u`; two
escapes make one character when they are the halves of a surrogate pair. -/
def unicodeEscape? (t : Text) : Option (Nat × Nat) :=
  (hex4? t).map fun high =>
    let low := (after? "\\u" (t.drop 4)).bind hex4?
    match low with
    | some low =>
      if 0xD800 ≤ high && high < 0xDC00 && 0xDC00 ≤ low && low < 0xE000 then
        (0x10000 + (high - 0xD800) * 0x400 + (low - 0xDC00), 10)
      else (high, 4)
    | none => (high, 4)

def simpleEscape? (b : UInt8) : Option UInt8 :=
  if b == quote || b == backslash || b == slash then some b
  else if b == 98 then some 8
  else if b == 102 then some formFeed
  else if b == 110 then some newline
  else if b == 114 then some carriage
  else if b == 116 then some tab
  else none

/-- The value of a string up to its closing quote, after `skip` bytes, and the rest. -/
def stringFrom (out : Text) : Nat → Text → Option (Text × Text)
  | _, [] => none
  | skip + 1, _ :: t => stringFrom out skip t
  | 0, b :: t =>
    if b == quote then some (out.reverse, t)
    else if b == backslash then
      match t with
      | [] => none
      | c :: more =>
        if c == 117 then
          match unicodeEscape? more with
          | some (code, width) => stringFrom ((Utf8.encode code).reverse ++ out) (width + 1) t
          | none => none
        else
          match simpleEscape? c with
          | some byte => stringFrom (byte :: out) 1 t
          | none => none
    else if b < 32 then none
    else stringFrom (b :: out) 0 t

/-- A string after its opening quote. -/
def string? (t : Text) : Option (Text × Text) :=
  (stringFrom [] 0 t).map fun (value, rest) =>
    (if Utf8.valid value then value else Utf8.ofCodes (Utf8.codes value), rest)

/-- One digit or more, and the rest. -/
def digits? (t : Text) : Option (Text × Text) :=
  let run := t.takeWhile isDigit
  if run.isEmpty then none else some (run, t.drop run.length)

/-- A numeral: no leading zeros, and digits on both sides of a point. -/
def number? (t : Text) : Option (Text × Text) := do
  let (sign, t) := match after? "-" t with
    | some rest => (("-" : Text), rest)
    | none => ([], t)
  let (whole, t) ← match after? "0" t with
    | some rest => some (("0" : Text), rest)
    | none => digits? t
  let (fraction, t) ← match after? "." t with
    | some rest => (digits? rest).map fun (ds, rest) => (dot :: ds, rest)
    | none => some ([], t)
  let (exponent, t) ← match t with
    | e :: rest =>
      if e == 101 || e == 69 then
        let (mark, rest) := match rest with
          | s :: more => if s == plus || s == minus then ([s], more) else ([], rest)
          | [] => ([], rest)
        (digits? rest).map fun (ds, rest) => (e :: mark ++ ds, rest)
      else some ([], t)
    | [] => some ([], t)
  return (sign ++ whole ++ fraction ++ exponent, t)

mutual

/-- A value after blanks, and the rest. -/
def value? : Nat → Text → Option (Json × Text)
  | 0, _ => none
  | fuel + 1, t =>
    match skipBlanks t with
    | [] => none
    | b :: rest =>
      if b == quote then (string? rest).map fun (value, rest) => (.string value, rest)
      else if b == openBracket then
        match skipBlanks rest with
        | [] => none
        | c :: more =>
          if c == closeBracket then some (.array [], more)
          else (items? fuel rest).map fun (items, rest) => (.array items, rest)
      else if b == openBrace then
        match skipBlanks rest with
        | [] => none
        | c :: more =>
          if c == closeBrace then some (.object [], more)
          else (members? fuel rest).map fun (members, rest) => (.object members, rest)
      else
        match after? "null" (b :: rest), after? "true" (b :: rest), after? "false" (b :: rest) with
        | some rest, _, _ => some (.null, rest)
        | _, some rest, _ => some (.bool true, rest)
        | _, _, some rest => some (.bool false, rest)
        | _, _, _ => (number? (b :: rest)).map fun (numeral, rest) => (.number numeral, rest)

/-- The items of an array up to its closing bracket. -/
def items? : Nat → Text → Option (List Json × Text)
  | 0, _ => none
  | fuel + 1, t => do
    let (item, t) ← value? fuel t
    match skipBlanks t with
    | [] => none
    | b :: rest =>
      if b == comma then (items? fuel rest).map fun (items, rest) => (item :: items, rest)
      else if b == closeBracket then some ([item], rest)
      else none

/-- The members of an object up to its closing brace. -/
def members? : Nat → Text → Option (List (Text × Json) × Text)
  | 0, _ => none
  | fuel + 1, t => do
    let (key, t) ← (after? [quote] (skipBlanks t)).bind string?
    let t ← after? [colon] (skipBlanks t)
    let (value, t) ← value? fuel t
    match skipBlanks t with
    | [] => none
    | b :: rest =>
      if b == comma then (members? fuel rest).map fun (more, rest) => ((key, value) :: more, rest)
      else if b == closeBrace then some ([(key, value)], rest)
      else none

end

/-- Room for every value of a text: each of them takes at least one byte. -/
def room (t : Text) : Nat := 2 * t.length + 2

/-- Reads a text that holds one value and nothing else but blanks. -/
def parse? (t : Text) : Option Json :=
  match value? (room t) t with
  | some (value, rest) => if (skipBlanks rest).isEmpty then some value else none
  | none => none

/-- The members of an object up to its closing brace, with the source of each value. -/
def sourcesFrom (room : Nat) : Nat → Text → List (Text × Text)
  | 0, _ => []
  | fuel + 1, t =>
    let member := do
      let (key, t) ← (after? [quote] (skipBlanks t)).bind string?
      let t ← after? [colon] (skipBlanks t)
      let (_, rest) ← value? room t
      return (key, skipBlanks t, rest)
    match member with
    | none => []
    | some (key, start, rest) =>
      (key, start.take (start.length - rest.length)) ::
        match after? [comma] (skipBlanks rest) with
        | some rest => sourcesFrom room fuel rest
        | none => []

/-- The members of the object that a text holds, with the source of each value in place of the
value; an id has to be given back as it was written. -/
def sources (t : Text) : List (Text × Text) :=
  match after? [openBrace] (skipBlanks t) with
  | some rest => sourcesFrom (room t) (room t) rest
  | none => []

end ScriptNav.Json
