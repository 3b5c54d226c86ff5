import ScriptNav.Toml.Draft
import ScriptNav.Toml.Scalar

/-! Reading TOML documents. -/
namespace ScriptNav.Toml

open Text

def isMargin (b : UInt8) : Bool := b == blank || b == tab

def skipMargin (t : Text) : Text := t.dropWhile isMargin

/-- One part of a key, and the rest. -/
def keyPart? (t : Text) : Option (Text × Text) :=
  match t with
  | [] => none
  | b :: rest =>
    if b == quote then basicFrom [] 0 rest
    else if b == apostrophe then literal? rest
    else
      let name := t.takeWhile isBareByte
      if name.isEmpty then none else some (name, t.drop name.length)

/-- The parts of a key, with dots between them, and the rest after blanks. -/
def key? : Nat → Text → Option (Key × Text)
  | 0, _ => none
  | fuel + 1, t => do
    let (name, t) ← keyPart? (skipMargin t)
    let t := skipMargin t
    match after? [dot] t with
    | some rest =>
      let (names, rest) ← key? fuel rest
      return (name :: names, rest)
    | none => return ([name], t)

/-- Skips blanks, line breaks and comments, from inside a comment or not. -/
def skipLinesFrom (inComment : Bool) : Text → Text
  | [] => []
  | b :: t =>
    if inComment then skipLinesFrom (b != newline) t
    else if b == hashSign then skipLinesFrom true t
    else if isMargin b || b == newline || b == carriage then skipLinesFrom false t
    else b :: t

def skipLines (t : Text) : Text := skipLinesFrom false t

mutual

/-- The value of the key `name` in the current context. -/
def value? (fuel : Nat) (d : Draft) (name : Text) (inArray : Bool) (t : Text) :
    Option (Value × Draft × Text) :=
  match fuel with
  | 0 => none
  | fuel + 1 =>
    let t := skipMargin t
    match t with
    | [] => none
    | b :: rest =>
      if b == quote || b == apostrophe then
        (string? t).map fun (value, rest) => (.string value, d, rest)
      else if b == openBracket then do
        let d := d.markArray (d.context ++ [name]) true
        let (items, d, rest) ← items? fuel d name rest
        return (.array items, d, rest)
      else if b == openBrace then do
        let outer := d.context
        let key := outer ++ [name]
        let d ← (d.addImplicit key).openTable key inArray
        let rest := skipMargin rest
        let (entries, d, rest) ←
          match after? [closeBrace] rest with
          | some more => some ([], d, more)
          | none => entries? fuel d key rest
        return (.table entries, { d with context := outer }, rest)
      else
        match after? "true" t, after? "false" t, (after? "inf" t).or (after? "nan" t) with
        | some rest, _, _ => some (.boolean true, d, rest)
        | _, some rest, _ => some (.boolean false, d, rest)
        | _, _, some rest => some (.float, d, rest)
        | _, _, _ => (numeric? t).map fun (value, rest) => (value, d, rest)

/-- The items of an array up to its closing bracket. -/
def items? (fuel : Nat) (d : Draft) (name : Text) (t : Text) :
    Option (List Value × Draft × Text) :=
  match fuel with
  | 0 => none
  | fuel + 1 =>
    let t := skipLines t
    match after? [closeBracket] t with
    | some rest => some ([], d, rest)
    | none => do
      let (item, d, t) ← value? fuel d name true t
      let t := skipLines t
      match after? [comma] t, after? [closeBracket] t with
      | some rest, _ =>
        let (items, d, rest) ← items? fuel d name rest
        return (item :: items, d, rest)
      | _, some rest => return ([item], d, rest)
      | none, none => none

/-- The entries of an inline table up to its closing brace, by the last parts of their keys. -/
def entries? (fuel : Nat) (d : Draft) (key : Key) (t : Text) : Option (Table × Draft × Text) :=
  match fuel with
  | 0 => none
  | fuel + 1 => do
    let (name, value, d, t) ← assignment? fuel d t
    let d := { d with context := key }
    let t := skipMargin t
    match after? [comma] t, after? [closeBrace] t with
    | some rest, _ =>
      let (entries, d, rest) ← entries? fuel d key rest
      return (if (entries.lookup name).isSome then entries else (name, value) :: entries, d, rest)
    | _, some rest => return ([(name, value)], d, rest)
    | none, none => none

/-- A key with its value, which the draft takes up. -/
def assignment? (fuel : Nat) (d : Draft) (t : Text) : Option (Text × Value × Draft × Text) :=
  match fuel with
  | 0 => none
  | fuel + 1 => do
    let (key, t) ← key? t.length t
    let t ← after? [equals] t
    let name ← key.getLast?
    let d ← d.openDotted key.dropLast
    let full := d.context ++ [name]
    let (value, d, t) ← value? fuel (d.addKey full) name false t
    let d ← d.define name value
    let isArray := match value with
      | .array _ => true
      | _ => false
    return (name, value, d.markArray full isArray, t)

end

/-- What follows the end of a line, after blanks and a comment. -/
def lineEnd? (t : Text) : Option Text :=
  let t := skipMargin t
  match t with
  | [] => some []
  | b :: rest =>
    if b == newline then some rest
    else if b == carriage || b == hashSign then some (t.dropWhile (· != newline))
    else none

/-- The header of a table after its opening bracket. -/
def header? (d : Draft) (t : Text) : Option (Draft × Text) := do
  let (asArray, t) := match after? [openBracket] t with
    | some rest => (true, rest)
    | none => (false, t)
  let (key, t) ← key? t.length t
  let t ← after? (if asArray then [closeBracket, closeBracket] else [closeBracket]) t
  let d ← d.openTable key asArray
  return ((d.markArray key false).addKey key, t)

def lines? : Nat → Draft → Text → Option Draft
  | 0, d, _ => some d
  | fuel + 1, d, t =>
    let t := skipLines t
    match t with
    | [] => some d
    | b :: rest => do
      let (d, t) ←
        if b == openBracket then header? d rest
        else do
          let outer := d.context
          let (_, _, d, t) ← assignment? (2 * t.length + 2) d t
          pure ({ d with context := outer }, t)
      let t ← lineEnd? t
      lines? fuel d t

/-- Control characters have no place in a document, and a carriage return only before a line feed.
-/
def isClean : Text → Bool
  | [] => true
  | b :: t =>
    if b == carriage then t.head? == some newline && isClean t
    else (b == tab || b == newline || (32 ≤ b && b != 127)) && isClean t

def dropMark (t : Text) : Text :=
  (((after? [0xFF, 0xFE] t).or (after? [0xFE, 0xFF] t)).or (after? [0xEF, 0xBB, 0xBF] t)).getD t

/-- Reads a document; nothing if the text is none. -/
def parse? (t : Text) : Option Document :=
  let t := dropMark t
  if Utf8.valid t && isClean t then (lines? (t.length + 1) {} t).map Draft.finish else none

end ScriptNav.Toml
