import ScriptNav.Text.Basic

/-! UTF-8 over byte texts. A code point is a natural number, since texts may hold bytes that
belong to no character; such a byte reads as the replacement character of width one. -/
namespace ScriptNav.Utf8

def replacement : Nat := 0xFFFD

/-- The length a sequence announces by its first byte, or zero if none begins with that byte. -/
def announced (b : UInt8) : Nat :=
  if b < 0x80 then 1
  else if b < 0xC2 then 0
  else if b < 0xE0 then 2
  else if b < 0xF0 then 3
  else if b < 0xF5 then 4
  else 0

def isContinuation (b : UInt8) : Bool := 0x80 ≤ b && b < 0xC0

/-- The second byte excludes overlong forms, surrogates and values above the last code point. -/
def isSecond (lead b : UInt8) : Bool :=
  isContinuation b &&
    (if lead == 0xE0 then 0xA0 ≤ b
     else if lead == 0xED then b < 0xA0
     else if lead == 0xF0 then 0x90 ≤ b
     else if lead == 0xF4 then b < 0x90
     else true)

/-- How many bytes after the first continue the sequence it announces. -/
def continued (lead : UInt8) (rest : Text) : Nat :=
  match announced lead, rest with
  | n + 2, b :: more =>
    if isSecond lead b then 1 + ((more.take n).takeWhile isContinuation).length else 0
  | _, _ => 0

/-- Whether a well-formed sequence stands at the beginning. -/
def completes (lead : UInt8) (rest : Text) : Bool := announced lead == continued lead rest + 1

/-- The code point of a sequence. -/
def assemble (lead : UInt8) (rest : Text) : Nat :=
  let top := match announced lead with
    | 2 => lead.toNat - 0xC0
    | 3 => lead.toNat - 0xE0
    | 4 => lead.toNat - 0xF0
    | _ => lead.toNat
  rest.foldl (fun n b => n * 64 + (b.toNat - 0x80)) top

/-- The first code point and its width. -/
def decode (lead : UInt8) (rest : Text) : Nat × Nat :=
  if completes lead rest then
    (assemble lead (rest.take (continued lead rest)), continued lead rest + 1)
  else (replacement, 1)

/-- The code points of a text after its first `skip` bytes, each with its own bytes. -/
def runesFrom (out : List (Nat × Text)) : Nat → Text → List (Nat × Text)
  | _, [] => out.reverse
  | skip + 1, _ :: t => runesFrom out skip t
  | 0, b :: t =>
    let (code, width) := decode b t
    runesFrom ((code, (b :: t).take width) :: out) (width - 1) t

def runes (t : Text) : List (Nat × Text) := runesFrom [] 0 t

def codes (t : Text) : List Nat := (runes t).map Prod.fst

/-- What follows the given code points at the beginning of a text. -/
def afterCodes? : List Nat → Text → Option Text
  | [], t => some t
  | _ :: _, [] => none
  | code :: codes, b :: t =>
    let (first, width) := decode b t
    if first == code then afterCodes? codes (t.drop (width - 1)) else none

/-- The sequence of a code point; what is no character is written as the replacement. -/
def encode (code : Nat) : Text :=
  if code < 0x80 then [code.toUInt8]
  else if code < 0x800 then [(0xC0 + code / 64).toUInt8, (0x80 + code % 64).toUInt8]
  else if code < 0xD800 || (0xE000 ≤ code && code < 0x10000) then
    [(0xE0 + code / 4096).toUInt8, (0x80 + code / 64 % 64).toUInt8, (0x80 + code % 64).toUInt8]
  else if 0x10000 ≤ code && code < 0x110000 then
    [(0xF0 + code / 262144).toUInt8, (0x80 + code / 4096 % 64).toUInt8,
      (0x80 + code / 64 % 64).toUInt8, (0x80 + code % 64).toUInt8]
  else [0xEF, 0xBF, 0xBD]

def ofCodes (codes : List Nat) : Text := codes.flatMap encode

/-- Whether the bytes after the first `skip` are a sequence of well-formed characters. -/
def validFrom : Nat → Text → Bool
  | _, [] => true
  | skip + 1, _ :: t => validFrom skip t
  | 0, b :: t => completes b t && validFrom (continued b t) t

def valid (t : Text) : Bool := validFrom 0 t

/-- Writes one replacement character for each maximal part of an ill-formed sequence. -/
def repairFrom (out : Text) : Nat → Text → Text
  | _, [] => out.reverse
  | skip + 1, _ :: t => repairFrom out skip t
  | 0, b :: t =>
    let n := continued b t
    if completes b t then repairFrom ((t.take n).reverse ++ b :: out) n t
    else repairFrom (0xBD :: 0xBF :: 0xEF :: out) n t

def repair (t : Text) : Text := repairFrom [] 0 t

/-- Reads stored bytes as text: one leading byte order mark is dropped, and ill-formed sequences
are repaired. -/
def read (t : Text) : Text := repair ((Text.after? [0xEF, 0xBB, 0xBF] t).getD t)

end ScriptNav.Utf8
