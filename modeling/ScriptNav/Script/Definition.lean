import ScriptNav.Text.Position
import ScriptNav.Text.Utf8

/-! Function definitions, found by their form alone: a name, a parenthesised list of words, blanks,
commas and comments, and an opening brace. Comments and string literals in front are skipped as
wholes. Names are compared character by character, so a name that is ill-formed is defined nowhere,
and a byte that belongs to no character compares as the replacement character. Inside the phrase a
comment may be cut short or drawn out if only that completes the phrase, so every reading of it is
tried, and rows filled from the end of the text keep that linear. -/
namespace ScriptNav.Script

open Text

/-- Where a definition stands, and the text between its parentheses. -/
structure Site where
  offset : Nat
  position : Position
  params : Text
deriving DecidableEq, Repr

/-- What is reached from one point of a text, when it is read as code, as the inside of a line
comment, or as the inside of a block comment. -/
structure Reach (α : Type) where
  code : Option α
  line : Option α
  block : Option α

namespace Reach

variable {α : Type}

def nothing : Reach α := ⟨none, none, none⟩

/-- What is reached from a byte, by what is reached from the next point and the one after it. A
line comment prefers to go on to the end of its line, a block comment to end as soon as it can. -/
def step (isFiller : UInt8 → Bool) (b : UInt8) (next : Option UInt8) (goal : Option α)
    (first second : Reach α) : Reach α :=
  let code :=
    if b == slash && next == some slash then second.line
    else if b == slash && next == some asterisk then second.block
    else if isFiller b then first.code
    else goal
  { code := code
    line := if b == newline then code else first.line.or code
    block :=
      if b == asterisk && next == some slash then second.code.or first.block else first.block }

end Reach

/-- What can follow at one point of a text: the brace that opens a body, and the parenthesis, given
by the text from it on, that ends the parameters of a definition. -/
structure Prospect where
  body : Reach Unit
  params : Reach Text

namespace Prospect

def nothing : Prospect := ⟨.nothing, .nothing⟩

end Prospect

def isParam (b : UInt8) : Bool := isWord b || isSpace b || b == comma

/-- The prospect of a byte before the text `rest`, whose own prospects are known. -/
def prospect (b : UInt8) (rest : Text) (known : List Prospect) : Prospect :=
  let first := known.headD .nothing
  let second := known.tail.headD .nothing
  let next := rest.head?
  let opened := if b == openBrace then some () else none
  let closed := if b == closeParen && first.body.code.isSome then some (b :: rest) else none
  { body := .step isSpace b next opened first.body second.body
    params := .step isParam b next closed first.params second.params }

/-- The prospects of all points of a text. -/
def prospects (t : Text) : List Prospect :=
  (t.foldr (fun b (rest, known) => (b :: rest, prospect b rest known :: known)) ([], [])).2

/-- The length of a block comment after its opening, if it ends. -/
def blockLength? (length : Nat) : Text → Option Nat
  | b :: c :: t =>
    if b == asterisk && c == slash then some (length + 2) else blockLength? (length + 1) (c :: t)
  | _ => none

/-- The length of a string literal after its opening quote, if it ends on its line. -/
def literalLength? (length : Nat) : Text → Option Nat
  | [] => none
  | b :: t =>
    if b == quote then some (length + 1)
    else if b == newline then none
    else if b == backslash then
      match t with
      | [] => none
      | c :: more => if c == newline then none else literalLength? (length + 2) more
    else literalLength? (length + 1) t

/-- The length of the comment or string literal at the beginning of a text. -/
def skippedLength? : Text → Option Nat
  | b :: c :: t =>
    if b == slash && c == slash then some (2 + (t.takeWhile (· != newline)).length)
    else if b == slash && c == asterisk then blockLength? 2 t
    else if b == quote then literalLength? 1 (c :: t)
    else none
  | _ => none

/-- The parameters of a definition at the beginning of a text, after a byte that is part of a word or
not. The name is given by its characters. -/
def paramsOf? (name : List Nat) (inWord : Bool) (t : Text) (known : List Prospect) :
    Option Text := do
  let rest ← Utf8.afterCodes? name t
  let atWord := (t.head?.map isWord).getD false
  if inWord == atWord then none
  else
    let gap := rest.takeWhile isSpace
    let list ← after? [openParen] (rest.drop gap.length)
    let row ← (known.drop (t.length - rest.length + gap.length + 1)).head?
    let closing ← row.params.code
    return list.take (list.length - closing.length)

/-- The text from the first definition of `name` on, and the parameters of that definition. A point
that begins neither a definition nor what is skipped is passed over with its character. -/
def search (name : List Nat) : Nat → Bool → Text → List Prospect → Option (Text × Text)
  | _, _, [], _ => none
  | skip + 1, _, b :: t, known => search name skip (isWord b) t known.tail
  | 0, inWord, b :: t, known =>
    match skippedLength? (b :: t) with
    | some length => search name (length - 1) (isWord b) t known.tail
    | none =>
      match paramsOf? name inWord (b :: t) known with
      | some params => some (b :: t, params)
      | none => search name ((Utf8.decode b t).2 - 1) (isWord b) t known.tail

/-- The first definition of a function in a text. -/
def definition? (t name : Text) : Option Site :=
  if name.isEmpty || !Utf8.valid name then none
  else
    (search (Utf8.codes name) 0 false t (prospects t)).map fun (rest, params) =>
      let offset := t.length - rest.length
      ⟨offset, t.positionAt offset, params⟩

end ScriptNav.Script
