import ScriptNav.Text.Utf8
import ScriptNav.Text.WidthTable

/-! How many columns a text takes on a terminal. Code points are gathered into the characters that a
reader sees, and each of these is as wide as the first of its code points that takes room. -/
namespace ScriptNav.Text

/-- The columns of a code point. -/
def codeWidth (code : Nat) : Nat :=
  if code < 0x300 then (if inRanges [(0, 0x1F), (0x7F, 0x9F), (0xAD, 0xAD)] code then 0 else 1)
  else if inRanges emptyRanges code then 0
  else if inRanges wideRanges code then 2
  else 1

def isControlCode (code : Nat) : Bool :=
  inRanges [(0, 0x1F), (0x7F, 0x9F), (0xAD, 0xAD), (0x61C, 0x61C), (0x180E, 0x180E),
    (0x200B, 0x200B), (0x200E, 0x200F), (0x2028, 0x202E), (0x2060, 0x206F), (0xFEFF, 0xFEFF),
    (0xFFF0, 0xFFFB),
    (0x1BCA0, 0x1BCA3), (0x1D173, 0x1D17A), (0xE0000, 0xE001F), (0xE0080, 0xE00FF),
    (0xE01F0, 0xE0FFF)] code

def isRegional (code : Nat) : Bool := 0x1F1E6 ≤ code && code ≤ 0x1F1FF

/-- The letters that make up a syllable: leading, vowel and trailing ones, and whole syllables
without and with a trailing one. -/
inductive Syllabic where
  | leading
  | vowel
  | trailing
  | bare
  | closed
deriving DecidableEq, Repr

def syllabic? (code : Nat) : Option Syllabic :=
  if inRanges [(0x1100, 0x115F), (0xA960, 0xA97C)] code then some .leading
  else if inRanges [(0x1160, 0x11A7), (0xD7B0, 0xD7C6)] code then some .vowel
  else if inRanges [(0x11A8, 0x11FF), (0xD7CB, 0xD7FB)] code then some .trailing
  else if 0xAC00 ≤ code && code ≤ 0xD7A3 then
    some (if (code - 0xAC00) % 28 == 0 then .bare else .closed)
  else none

/-- Whether a letter goes on with the syllable of the letter before it. -/
def Syllabic.continues : Syllabic → Syllabic → Bool
  | leading, trailing => false
  | leading, _ => true
  | vowel, next => next == .vowel || next == .trailing
  | bare, next => next == .vowel || next == .trailing
  | trailing, next => next == .trailing
  | closed, next => next == .trailing

/-- What the code points of a character so far say about the next one. -/
structure CharacterState where
  last : Option Nat := none
  /-- Whether the last code point is the first half of a flag. -/
  isHalfFlag : Bool := false
  /-- Whether a pictograph with its marks stands last. -/
  endsInPictograph : Bool := false
  /-- Whether a joiner follows such a pictograph. -/
  endsInJoiner : Bool := false

namespace CharacterState

/-- Whether a code point belongs to the same character as those before it. -/
def takes (s : CharacterState) (code : Nat) : Bool :=
  match s.last with
  | none => false
  | some last =>
    if last == 13 && code == 10 then true
    else if isControlCode last || isControlCode code then false
    else if inRanges joiningRanges code || inRanges leadingRanges last then true
    else if s.endsInJoiner && inRanges pictographRanges code then true
    else if s.isHalfFlag && isRegional code then true
    else
      match syllabic? last, syllabic? code with
      | some a, some b => a.continues b
      | _, _ => false

def next (s : CharacterState) (code : Nat) : CharacterState :=
  { last := some code
    isHalfFlag := isRegional code && !s.isHalfFlag
    endsInPictograph := inRanges pictographRanges code ||
      (s.endsInPictograph && code != 0x200D && inRanges joiningRanges code)
    endsInJoiner := s.endsInPictograph && code == 0x200D }

end CharacterState

/-- The columns of code points, after a character of which `room` columns are taken. -/
def widthFrom (s : CharacterState) (room : Nat) : List Nat → Nat
  | [] => room
  | code :: codes =>
    if s.takes code then
      widthFrom (s.next code) (if room == 0 then codeWidth code else room) codes
    else room + widthFrom (s.next code) (codeWidth code) codes

/-- The columns that a text takes. -/
def width (t : Text) : Nat := widthFrom {} 0 (Utf8.codes t)

/-- The blanks that bring a text to a width. -/
def padding (columns : Nat) (t : Text) : Text := List.replicate (columns - width t) blank

end ScriptNav.Text
