import ScriptNav.Ignore.Pattern

/-! Reading regular expressions. Alternatives, groups, classes, counted repetitions and escapes are
known; what is malformed gives nothing. -/
namespace ScriptNav.Ignore

/-- A text as its code points. -/
abbrev Codes := List Nat

namespace Pattern

def isDigitCode (code : Nat) : Bool := 48 ≤ code && code ≤ 57

def hexCode? (code : Nat) : Option Nat :=
  if isDigitCode code then some (code - 48)
  else if 97 ≤ code && code ≤ 102 then some (code - 87)
  else if 65 ≤ code && code ≤ 70 then some (code - 55)
  else none

def digitRanges : List (Nat × Nat) := [(48, 57)]
def spaceRanges : List (Nat × Nat) := [(9, 10), (12, 13), (32, 32)]
def wordRanges : List (Nat × Nat) := [(48, 57), (65, 90), (95, 95), (97, 122)]

/-- The code points outside ranges that are in order and apart. -/
def complement (ranges : List (Nat × Nat)) : List (Nat × Nat) :=
  let rec go (next : Nat) : List (Nat × Nat) → List (Nat × Nat)
    | [] => [(next, 0x10FFFF)]
    | (first, last) :: rest =>
      if next < first then (next, first - 1) :: go (last + 1) rest else go (last + 1) rest
  go 0 ranges

/-- The ranges of the class escapes. -/
def classEscape? (letter : Nat) : Option (List (Nat × Nat)) :=
  if letter == 100 then some digitRanges
  else if letter == 68 then some (complement digitRanges)
  else if letter == 115 then some spaceRanges
  else if letter == 83 then some (complement spaceRanges)
  else if letter == 119 then some wordRanges
  else if letter == 87 then some (complement wordRanges)
  else none

/-- The ranges of the named classes. -/
def namedClass? (name : Text) : Option (List (Nat × Nat)) :=
  let known : List (Text × List (Nat × Nat)) := [
    ("alnum", [(48, 57), (65, 90), (97, 122)]), ("alpha", [(65, 90), (97, 122)]),
    ("ascii", [(0, 127)]), ("blank", [(9, 9), (32, 32)]), ("cntrl", [(0, 31), (127, 127)]),
    ("digit", [(48, 57)]), ("graph", [(33, 126)]), ("lower", [(97, 122)]), ("print", [(32, 126)]),
    ("punct", [(33, 47), (58, 64), (91, 96), (123, 126)]), ("space", [(9, 13), (32, 32)]),
    ("upper", [(65, 90)]), ("word", wordRanges), ("xdigit", [(48, 57), (65, 70), (97, 102)])]
  match name with
  | 94 :: rest => (known.lookup rest).map complement
  | _ => known.lookup name

/-- The value of hexadecimal digits up to a closing brace, and the rest. -/
def bracedHex? (value : Nat) (count : Nat) : Codes → Option (Nat × Codes)
  | [] => none
  | code :: rest =>
    if code == 125 then (if count == 0 then none else some (value, rest))
    else
      match hexCode? code with
      | some digit =>
        if 0x10FFFF < value * 16 + digit then none
        else bracedHex? (value * 16 + digit) (count + 1) rest
      | none => none

def isOctal (code : Nat) : Bool := 48 ≤ code && code ≤ 55

/-- The character of an escape after its backslash, and the rest. -/
def escape? : Codes → Option (Nat × Codes)
  | [] => none
  | code :: rest =>
    let more := (rest.take 2).takeWhile isOctal
    if code == 48 || (isOctal code && !more.isEmpty) then
      some (more.foldl (fun n d => n * 8 + (d - 48)) (code - 48), rest.drop more.length)
    else if code == 120 then
      match rest with
      | 123 :: digits => bracedHex? 0 0 digits
      | high :: low :: rest =>
        match hexCode? high, hexCode? low with
        | some h, some l => some (h * 16 + l, rest)
        | _, _ => none
      | _ => none
    else
      match [(97, 7), (102, 12), (110, 10), (114, 13), (116, 9), (118, 11)].lookup code with
      | some control => some (control, rest)
      | none =>
        let isLetter := (65 ≤ code && code ≤ 90) || (97 ≤ code && code ≤ 122)
        if code < 128 && !isLetter && !isDigitCode code then some (code, rest) else none

/-- One character of a class, and the rest. -/
def classChar? : Codes → Option (Nat × Codes)
  | [] => none
  | 92 :: rest => escape? rest
  | code :: rest => some (code, rest)

/-- The name of a class `[:name:]` after its opening, and the rest. -/
def className? (name : Codes) : Codes → Option (Codes × Codes)
  | 58 :: 93 :: rest => some (name.reverse, rest)
  | code :: rest => className? (code :: name) rest
  | [] => none

/-- The ranges of a class up to its closing bracket, which may also stand first as itself. -/
def classItems? (fuel : Nat) (first : Bool) (found : List (Nat × Nat)) (t : Codes) :
    Option (List (Nat × Nat) × Codes) :=
  match fuel with
  | 0 => none
  | fuel + 1 =>
    match t with
    | [] => none
    | code :: rest =>
      if code == 93 && !first then some (found, rest)
      else
        let named := match t with
          | 91 :: 58 :: rest => className? [] rest
          | _ => none
        let escaped := match t with
          | 92 :: letter :: rest => (classEscape? letter).map fun ranges => (ranges, rest)
          | _ => none
        match named, escaped with
        | some (name, rest), _ => do
          let ranges ← namedClass? (name.map Nat.toUInt8)
          classItems? fuel false (found ++ ranges) rest
        | none, some (ranges, rest) => classItems? fuel false (found ++ ranges) rest
        | none, none => do
          let (low, rest) ← classChar? t
          match rest with
          | 45 :: next :: more =>
            if next == 93 then classItems? fuel false (found ++ [(low, low)]) rest
            else
              let (high, rest) ← classChar? (next :: more)
              if high < low then none else classItems? fuel false (found ++ [(low, high)]) rest
          | _ => classItems? fuel false (found ++ [(low, low)]) rest

/-- A class after its opening bracket. -/
def class? (t : Codes) : Option (Pattern × Codes) :=
  let (negated, t) := match t with
    | 94 :: rest => (true, rest)
    | _ => (false, t)
  (classItems? (t.length + 1) true [] t).map fun (ranges, rest) => (.set negated ranges, rest)

/-- A number without leading zeros, and the rest. -/
def count? (t : Codes) : Option (Nat × Codes) :=
  let digits := t.takeWhile isDigitCode
  match digits with
  | [] => none
  | [_] => some (digits.foldl (fun n d => n * 10 + (d - 48)) 0, t.drop digits.length)
  | first :: _ =>
    if first == 48 then none
    else some ((digits.take 10).foldl (fun n d => n * 10 + (d - 48)) 0, t.drop digits.length)

/-- The bounds of a counted repetition after its opening brace, and the rest. -/
def bounds? (t : Codes) : Option (Nat × Option Nat × Codes) := do
  let (least, t) ← count? t
  match t with
  | 125 :: rest => some (least, some least, rest)
  | 44 :: 125 :: rest => some (least, none, rest)
  | 44 :: t =>
    let (most, t) ← count? t
    match t with
    | 125 :: rest => some (least, some most, rest)
    | _ => none
  | _ => none

/-- The largest count of a repetition. -/
def countLimit : Nat := 1000

/-- The part of a pattern that is being read: the alternatives before it, the sequence before its
last item, and its last item. -/
structure Draft where
  alternatives : Option Pattern := none
  front : Pattern := .empty
  item : Option Pattern := none
  /-- Whether the last item is a repetition. -/
  isRepeated : Bool := false

namespace Draft

def sequence (p : Draft) : Pattern :=
  match p.item with
  | some item => .seq p.front item
  | none => p.front

def finish (p : Draft) : Pattern :=
  match p.alternatives with
  | some alternatives => .alt alternatives p.sequence
  | none => p.sequence

def push (p : Draft) (item : Pattern) : Draft :=
  { p with front := p.sequence, item := some item, isRepeated := false }

def divide (p : Draft) : Draft := { alternatives := some p.finish }

/-- Repeats the last item, which has to be there and must not be a repetition itself. -/
def repeatItem (p : Draft) (least : Nat) (most : Option Nat) : Option Draft :=
  match p.item with
  | none => none
  | some item =>
    let repeated := Pattern.repeated item least most
    let counted := 2 ≤ least || 2 ≤ most.getD 0
    if p.isRepeated || (counted && !repeated.isBounded countLimit) then none
    else some { p with item := some repeated, isRepeated := true }

end Draft

/-- The code points up to the end of a quotation, and the rest. -/
def quotation (found : Codes) : Codes → Codes × Codes
  | 92 :: 69 :: rest => (found.reverse, rest)
  | code :: rest => quotation (code :: found) rest
  | [] => (found.reverse, [])

/-- Reads on to the end of the text, or of the innermost group; `outer` holds the groups around it.
-/
def read? : Nat → List Draft → Draft → Codes → Option Pattern
  | 0, _, _, _ => none
  | _ + 1, [], p, [] => some p.finish
  | _ + 1, _ :: _, _, [] => none
  | fuel + 1, outer, p, code :: rest =>
    if code == 40 then read? fuel (p :: outer) {} rest
    else if code == 41 then
      match outer with
      | around :: outer => read? fuel outer (around.push p.finish) rest
      | [] => none
    else if code == 124 then read? fuel outer p.divide rest
    else if code == 94 then read? fuel outer (p.push .textStart) rest
    else if code == 36 then read? fuel outer (p.push .textEnd) rest
    else if code == 46 then read? fuel outer (p.push any) rest
    else if code == 91 then do
      let (item, rest) ← class? rest
      read? fuel outer (p.push item) rest
    else if code == 42 then do read? fuel outer (← p.repeatItem 0 none) rest
    else if code == 43 then do read? fuel outer (← p.repeatItem 1 none) rest
    else if code == 63 then do read? fuel outer (← p.repeatItem 0 (some 1)) rest
    else if code == 123 then
      match bounds? rest with
      | none => read? fuel outer (p.push (literal code)) rest
      | some (least, most, rest) => do
        if countLimit < least || countLimit < most.getD 0 || (most.any fun m => m < least) then none
        else read? fuel outer (← p.repeatItem least most) rest
    else if code == 92 then
      match rest with
      | 65 :: rest => read? fuel outer (p.push .textStart) rest
      | 98 :: rest => read? fuel outer (p.push (.wordEdge true)) rest
      | 66 :: rest => read? fuel outer (p.push (.wordEdge false)) rest
      | 122 :: rest => read? fuel outer (p.push .textEnd) rest
      | 81 :: rest =>
        let (quoted, rest) := quotation [] rest
        read? fuel outer (quoted.foldl (fun p code => p.push (literal code)) p) rest
      | letter :: more =>
        match classEscape? letter with
        | some ranges => read? fuel outer (p.push (.set false ranges)) more
        | none => do
          let (code, rest) ← escape? rest
          read? fuel outer (p.push (literal code)) rest
      | [] => none
    else read? fuel outer (p.push (literal code)) rest

/-- The pattern of a text, if it is well formed. -/
def parse? (t : Text) : Option Pattern :=
  if Utf8.valid t then read? (t.length + 1) [] {} (Utf8.codes t) else none

end Pattern
end ScriptNav.Ignore
