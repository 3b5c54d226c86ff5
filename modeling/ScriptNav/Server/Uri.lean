import ScriptNav.Path
import ScriptNav.Text.Letter

/-! Uniform resource identifiers, as far as they name files. An identifier is taken apart into
scheme, authority and path; authorities are checked and then dropped. -/
namespace ScriptNav.Server

open Text

/-- The part of an identifier, by which the bytes that may stand in it differ. -/
inductive UriPart where
  | path
  | fragment
  | user
  | host
  | zone
deriving DecidableEq, Repr

def isAlphanumeric (b : UInt8) : Bool := isLower b || isUpper b || isDigit b

/-- Bytes that stand for themselves in every part. -/
def isUnreserved (b : UInt8) : Bool := isAlphanumeric b || ("-_.~" : Text).contains b

/-- Bytes that stand for themselves in a host. -/
def isHostByte (b : UInt8) : Bool :=
  isUnreserved b || ("!$&'()*+,;=:[]<>\"" : Text).contains b

/-- Bytes that stand for themselves in a path. -/
def isPathByte (b : UInt8) : Bool := isUnreserved b || ("$&+,/:;=@" : Text).contains b

/-- Whether a byte may be given by its hexadecimal value. In a host this is for bytes beyond ASCII
and for the percent sign. -/
def mayEscape (part : UriPart) (value : Nat) : Bool :=
  match part with
  | .host => 0x80 ≤ value || value == 0x25
  | .zone => value == 0x25 || value == 0x20 || isHostByte value.toUInt8
  | _ => true

def mayStand (part : UriPart) (b : UInt8) : Bool :=
  match part with
  | .host | .zone => 0x80 ≤ b || isHostByte b
  | _ => true

/-- The bytes that a part of an identifier stands for, after its first `skip` bytes. -/
def unescapeFrom (part : UriPart) : Nat → Text → Option Text
  | _, [] => some []
  | skip + 1, _ :: t => unescapeFrom part skip t
  | 0, b :: t =>
    if b == 37 then
      match t with
      | high :: low :: _ =>
        match hexValue? high, hexValue? low with
        | some h, some l =>
          if mayEscape part (h * 16 + l) then
            (unescapeFrom part 2 t).map ((h * 16 + l).toUInt8 :: ·)
          else none
        | _, _ => none
      | _ => none
    else if mayStand part b then (unescapeFrom part 0 t).map (b :: ·)
    else none

def unescape? (part : UriPart) (t : Text) : Option Text := unescapeFrom part 0 t

def upperHexDigit (n : Nat) : UInt8 := if n < 10 then (48 + n).toUInt8 else (55 + n).toUInt8

def escapeByte (b : UInt8) : Text :=
  if isPathByte b then [b] else [37, upperHexDigit (b.toNat / 16), upperHexDigit (b.toNat % 16)]

def escapePath (path : Text) : Text := path.flatMap escapeByte

/-- The scheme before the first colon, and the rest. Without a proper scheme all is rest; nothing
before the colon is an error. -/
def scheme? (t : Text) : Option (Text × Text) :=
  let isSchemeByte := fun b => isAlphanumeric b || b == plus || b == minus || b == dot
  let name := t.takeWhile isSchemeByte
  match t.drop name.length, name with
  | c :: rest, first :: _ =>
    if c == colon && (isLower first || isUpper first) then some (name.map lowerByte, rest)
    else some ([], t)
  | c :: _, [] => if c == colon then none else some ([], t)
  | [], _ => some ([], t)

/-- Whether a text is empty or a colon with digits. -/
def isService (t : Text) : Bool :=
  match t with
  | [] => true
  | b :: digits => b == colon && digits.all isDigit

/-- The parts around the last byte `sep`. -/
def cutLast? (sep : UInt8) (t : Text) : Option (Text × Text) :=
  (cut? sep t.reverse).map fun (back, front) => (front.reverse, back.reverse)

/-- A group of an address of version 6: one to four hexadecimal digits. -/
def isAddressGroup (t : Text) : Bool :=
  !t.isEmpty && t.length ≤ 4 && t.all fun b => (hexValue? b).isSome

/-- Four decimal bytes with dots between them. -/
def isDotted (t : Text) : Bool :=
  let isByte := fun (f : Text) =>
    !f.isEmpty && f.length ≤ 3 && f.all isDigit && (f.length == 1 || f.head? != some 48) &&
      f.foldl (fun n b => n * 10 + (b.toNat - 48)) 0 ≤ 255
  (t.split dot).length == 4 && (t.split dot).all isByte

/-- How many groups of an address a run of groups with colons stands for; the last one may be dotted
if `tail` says so. -/
def groupCount? (tail : Bool) (t : Text) : Option Nat :=
  if t.isEmpty then some 0
  else
    let groups := t.split colon
    match groups.reverse with
    | last :: front =>
      if !front.all isAddressGroup then none
      else if isAddressGroup last then some groups.length
      else if tail && isDotted last then some (groups.length + 1)
      else none
    | [] => none

/-- Whether a text is an address of version 6, with a zone or without. -/
def isAddress (t : Text) : Bool :=
  let (address, zoned) := match cut? 37 t with
    | some (address, zone) => (address, !zone.isEmpty)
    | none => (t, true)
  let counted := match find? "::" address with
    | some (front, back) =>
      match groupCount? false front, groupCount? true back with
      | some m, some n => m + n < 8
      | _, _ => false
    | none => groupCount? true address == some 8
  zoned && counted

/-- The bytes between the brackets of a host, its zone's percent sign worked out with the rest. -/
def bracketed? (inner : Text) : Option Text :=
  match find? "%25" inner with
  | some (address, _) => do
    let front ← unescape? .host address
    let zone ← unescape? .zone (inner.drop address.length)
    return front ++ zone
  | none => unescape? .host inner

/-- Whether a host, with its service number, is proper. Brackets stand around addresses only. -/
def isHost (t : Text) : Bool :=
  match t with
  | first :: rest =>
    if first == openBracket then
      match cutLast? closeBracket rest with
      | some (inner, service) =>
        isService service && !inner.contains openBracket &&
          ((bracketed? inner).map isAddress).getD false
      | none => false
    else
      let service := match cutLast? colon t with
        | some (_, digits) => colon :: digits
        | none => []
      isService service && !t.contains openBracket && (unescape? .host t).isSome
  | [] => true

def isUserByte (b : UInt8) : Bool := isUnreserved b || ("!$&'()*+,;=:%@" : Text).contains b

def isAuthority (t : Text) : Bool :=
  match cutLast? 64 t with
  | none => isHost t
  | some (user, host) =>
    isHost host && user.all isUserByte && (unescape? .user user).isSome

/-- A scheme, empty if there is none, and a path. -/
structure Uri where
  scheme : Text
  path : Text
deriving DecidableEq, Repr

namespace Uri

def isControl (b : UInt8) : Bool := b < 32 || b == 127

/-- The path behind an authority, if `t` begins with a proper one. -/
def hierarchy? (scheme t : Text) : Option Uri :=
  let hasAuthority := startsWith "//" t && (!scheme.isEmpty || !startsWith "///" t)
  let rest :=
    if hasAuthority then
      let authority := (t.drop 2).takeWhile (· != slash)
      if isAuthority authority then some (t.drop (2 + authority.length)) else none
    else some t
  rest.bind fun rest => (unescape? .path rest).map fun path => ⟨scheme, path⟩

def parse? (t : Text) : Option Uri := do
  let (main, fragment) := (t.cut? hashSign).getD (t, [])
  if main.any isControl then none
  else if main == "*" then some ⟨[], "*"⟩
  else
    let (scheme, rest) ← scheme? main
    let rest := rest.takeWhile (· != 63)
    let uri ←
      if startsWith [slash] rest then hierarchy? scheme rest
      else if !scheme.isEmpty then some ⟨scheme, []⟩
      else if (rest.takeWhile (· != slash)).contains colon then none
      else hierarchy? scheme rest
    let _ ← unescape? .fragment fragment
    return uri

end Uri

/-- The rooted path that an identifier names, or nothing if it names no file. The escapes of a path
are worked out once more if they can be. -/
def pathOfUri (cwd uri : Text) : Text :=
  if uri.isEmpty then []
  else
    match Uri.parse? uri with
    | none => []
    | some parsed =>
      if parsed.scheme.isEmpty then Path.absolute cwd uri
      else if parsed.scheme == "file" then
        Path.absolute cwd ((unescape? .path parsed.path).getD parsed.path)
      else []

def uriOfPath (cwd path : Text) : Text :=
  if path.isEmpty then [] else "file://" ++ escapePath (Path.absolute cwd path)

end ScriptNav.Server
