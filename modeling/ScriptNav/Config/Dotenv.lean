import ScriptNav.Text.Blank

/-! Files of environment variables: lines `NAME=value`, with comments, quotes, and references to
variables set further up. -/
namespace ScriptNav.Config

open Text

abbrev Environment := List (Text × Text)

namespace Environment

def get? (env : Environment) (name : Text) : Option Text := env.lookup name

/-- A variable's value, empty if it is not set. -/
def value (env : Environment) (name : Text) : Text := (env.get? name).getD []

def set (env : Environment) (name value : Text) : Environment :=
  (name, value) :: env.filter (·.1 != name)

end Environment

namespace Dotenv

/-- Blanks within a line. -/
def isMarginCode (code : Nat) : Bool := [9, 11, 12, 13, 32, 0x85, 0xA0].contains code

/-- Drops leading code points that satisfy `p`. -/
def dropCodes (p : Nat → Bool) (t : Text) : Text :=
  (((Utf8.runes t).dropWhile fun r => p r.1).map Prod.snd).flatten

/-- Bytes of names; a byte beyond ASCII counts as the code point of the same value. -/
def isNameByte (b : UInt8) : Bool :=
  isWord b || b == dot || [0xAA, 0xB2, 0xB3, 0xB5, 0xB9, 0xBA, 0xBC, 0xBD, 0xBE].contains b ||
    (0xC0 ≤ b && b != 0xD7 && b != 0xF7)

/-- The name of a statement and what follows its sign. Without a sign the whole text is the value of
no name. -/
def name? (t : Text) : Option (Text × Text) :=
  let t := dropCodes isMarginCode t
  let t := match after? "export" t with
    | some rest =>
      let trimmed := dropCodes isMarginCode rest
      if trimmed.length < rest.length then trimmed else t
    | none => t
  let isName := fun b => isNameByte b || isMarginCode b.toNat
  let front := t.takeWhile isName
  match t.drop front.length with
  | [] => if t.isEmpty then none else some ([], t)
  | b :: rest =>
    if b == equals || b == colon then
      some ((trim (64 :: front)).drop 1, dropCodes isMarginCode rest)
    else none

def isReferenceByte (b : UInt8) : Bool := isUpper b || isDigit b || b == underscore

/-- Puts in the values of variables for references `$NAME` and `$` with braces. A backslash before
the sign takes the reference literally. -/
def expandFrom (vars : Environment) (out : Text) : Nat → Text → Text
  | _, [] => out.reverse
  | skip + 1, _ :: t => expandFrom vars out skip t
  | 0, b :: t =>
    let escaped := b == backslash && t.head? == some 36
    if b == 36 || escaped then
      let sign := if escaped then 2 else 1
      let rest := (b :: t).drop sign
      let paren := if rest.head? == some openParen then 1 else 0
      let brace := if (rest.drop paren).head? == some openBrace then 1 else 0
      let name := (rest.drop (paren + brace)).takeWhile isReferenceByte
      let after := rest.drop (paren + brace + name.length)
      let close := if after.head? == some closeBrace then 1 else 0
      let width := sign + paren + brace + name.length + close
      let value :=
        if escaped then t.take (width - 1)
        else if name.isEmpty then (b :: t).take width
        else vars.value name
      expandFrom vars (value.reverse ++ out) (width - 1) t
    else expandFrom vars (b :: out) 0 t

def expand (vars : Environment) (t : Text) : Text := expandFrom vars [] 0 t

/-- Writes the escapes for line breaks out. -/
def unescapeBreaks (out : Text) : Text → Text
  | b :: c :: t =>
    if b != backslash then unescapeBreaks (b :: out) (c :: t)
    else if c == 110 then unescapeBreaks (newline :: out) t
    else if c == 114 then unescapeBreaks (carriage :: out) t
    else unescapeBreaks (c :: b :: out) t
  | rest => out.reverse ++ rest

/-- Drops backslashes, except before a dollar sign. -/
def dropEscapes (out : Text) : Text → Text
  | b :: c :: t =>
    if b != backslash then dropEscapes (b :: out) (c :: t)
    else if c == 36 then dropEscapes (c :: b :: out) t
    else dropEscapes (c :: out) t
  | rest => out.reverse ++ rest

/-- The bytes up to the closing mark, which no backslash may precede, and the rest. -/
def closing? (mark : UInt8) (out : Text) (previous : UInt8) : Text → Option (Text × Text)
  | [] => none
  | b :: t =>
    if b == mark && previous != backslash then some (out.reverse, t)
    else closing? mark (b :: out) b t

/-- What precedes the last hash sign behind a blank, with the code points last first. -/
def beforeComment : List (Nat × Text) → List (Nat × Text)
  | sign :: before :: rest =>
    if sign.1 == 35 && isMarginCode before.1 then before :: rest else beforeComment (before :: rest)
  | _ => []

/-- The value up to the end of the line, or to the last blank before a hash sign. Bytes that belong to
no character are replaced. -/
def plainValue (vars : Environment) (line : Text) : Text :=
  let runes := Utf8.runes line
  let front := match beforeComment runes.reverse with
    | [] => runes
    | kept => kept.reverse
  let isMarginRune := fun (r : Nat × Text) => isMarginCode r.1
  let trimmed := (front.dropWhile isMarginRune).reverse.dropWhile isMarginRune
  expand vars (Utf8.ofCodes (trimmed.reverse.map Prod.fst))

/-- The value at the beginning of a text, and the rest. -/
def value? (vars : Environment) (t : Text) : Option (Text × Text) :=
  match t with
  | [] => some ([], [])
  | mark :: rest =>
    if mark == quote || mark == apostrophe then
      (closing? mark [] mark rest).map fun (body, rest) =>
        let body := strip (· == mark) body
        if mark == quote then (expand vars (dropEscapes [] (unescapeBreaks [] body)), rest)
        else (body, rest)
    else
      let line := t.takeWhile fun b => b != newline && b != carriage
      some (plainValue vars line, t.drop line.length)

/-- Skips white space and comment lines. -/
def statementStart : Nat → Text → Text
  | 0, t => t
  | fuel + 1, t =>
    let t := dropCodes isBlankCode t
    if t.head? == some hashSign then statementStart fuel (t.dropWhile (· != newline)) else t

def statements? (vars : Environment) : Nat → Text → Option Environment
  | 0, _ => none
  | fuel + 1, t =>
    let t := statementStart (t.length + 1) t
    if t.isEmpty then some vars
    else do
      let (name, rest) ← name? t
      let (value, rest) ← value? vars rest
      statements? (vars.set name value) fuel rest

/-- The text with line feeds for its line breaks. -/
def unifyBreaks : Text → Text
  | [] => []
  | b :: t =>
    match t with
    | c :: _ => if b == carriage && c == newline then unifyBreaks t else b :: unifyBreaks t
    | [] => [b]

/-- The variables that a file sets; nothing if it is malformed anywhere. -/
def parse? (t : Text) : Option Environment :=
  let t := unifyBreaks t
  statements? [] (t.length + 1) t

/-- An environment together with the variables of a file, which change none that is there. -/
def load (env : Environment) (t : Text) : Environment :=
  match parse? t with
  | none => env
  | some vars => env ++ vars.filter fun (name, value) =>
      (env.get? name).isNone && !name.isEmpty && !value.contains 0

end Dotenv
end ScriptNav.Config
