import ScriptNav.Toml.Basic
import ScriptNav.Text.Utf8

/-! Numbers, dates and strings of TOML. Each reader gives a value and the rest of the text. -/
namespace ScriptNav.Toml

open Text

/-- Whether each underscore stands between digits, and a digit stands last. -/
def underscoresOk (t : Text) : Bool :=
  let step := fun (state : Bool × Bool) (b : UInt8) =>
    (state.1 && (b != underscore || state.2), (hexValue? b).isSome)
  let (ok, last) := t.foldl step (true, false)
  ok && last

/-- Whether a numeral begins with a zero that says nothing. -/
def hasLeadingZero (t : Text) : Bool :=
  match t with
  | a :: b :: rest =>
    (a == 48 && !(b == 98 || b == 111 || b == 120)) ||
      ((a == minus || a == plus) && b == 48 && !rest.isEmpty)
  | _ => false

def valueIn (base : Nat) (digits : Text) : Nat :=
  (digits.filter (· != underscore)).foldl (fun n b => n * base + (hexValue? b).getD 0) 0

/-- An integer of 64 bits. -/
def integer? (t : Text) : Option Value :=
  if !underscoresOk t || hasLeadingZero t then none
  else
    let (sign, digits) := match t with
      | b :: rest =>
        if b == minus then ((-1 : Int), rest) else if b == plus then (1, rest) else (1, t)
      | [] => (1, t)
    let magnitude := match digits with
      | _ :: mark :: rest =>
        if mark == 120 then valueIn 16 rest
        else if mark == 111 then valueIn 8 rest
        else if mark == 98 then valueIn 2 rest
        else valueIn 10 digits
      | _ => valueIn 10 digits
    let n := sign * magnitude
    if -0x8000000000000000 ≤ n && n < 0x8000000000000000 then some (.integer n) else none

/-- Whether a decimal with this mantissa and exponent rounds to a finite double. -/
def isFinite (mantissa : Nat) (exponent : Int) : Bool :=
  let bound := Nat.pow 2 1024 - Nat.pow 2 970
  if mantissa == 0 then true
  else if exponent < 0 then
    mantissa < bound || (exponent.natAbs < 5000 && mantissa < bound * Nat.pow 10 exponent.natAbs)
  else exponent < 400 && mantissa * Nat.pow 10 exponent.toNat < bound

/-- One digit or more, all of them. -/
def isDigits (t : Text) : Bool := !t.isEmpty && t.all isDigit

def unsigned (t : Text) : Text :=
  match t with
  | b :: rest => if b == minus || b == plus then rest else t
  | [] => t

/-- A float, from a text that holds bytes of floats only. -/
def float? (t : Text) : Option Value :=
  let isMark := fun b => b == dot || b == 101 || b == 69
  let parts := (t.splitBy isMark).filter (!·.isEmpty)
  let plain := t.filter (· != underscore)
  let (mantissa, exponent) := (plain.takeWhile fun b => b != 101 && b != 69,
    plain.dropWhile fun b => b != 101 && b != 69)
  let (whole, fraction) := match (unsigned mantissa).cut? dot with
    | some (whole, fraction) => (whole, some fraction)
    | none => (unsigned mantissa, none)
  let power := match exponent with
    | [] => some (0 : Int)
    | _ :: digits =>
      if isDigits (unsigned digits) then
        let n : Int := valueIn 10 ((unsigned digits).take 8)
        some (if digits.head? == some minus then -n else n)
      else none
  let decimals := fraction.getD []
  match power with
  | none => none
  | some power =>
    if parts.all underscoresOk && !hasLeadingZero (parts.headD []) && isDigits whole &&
        fraction.all isDigits &&
        isFinite (valueIn 10 (whole ++ decimals)) (power - decimals.length) then
      some .float
    else none

/-- The number of two digits at the beginning, and the rest. -/
def twoDigits? : Text → Option (Nat × Text)
  | a :: b :: rest => if isDigit a && isDigit b then some (valueIn 10 [a, b], rest) else none
  | _ => none

def daysIn (year month : Nat) : Nat :=
  if month == 2 then
    if (year % 4 == 0 && year % 100 != 0) || year % 400 == 0 then 29 else 28
  else if [4, 6, 9, 11].contains month then 30
  else 31

/-- What follows a date. -/
def date? (t : Text) : Option Text := do
  let (century, t) ← twoDigits? t
  let (years, t) ← twoDigits? t
  let t ← after? [minus] t
  let (month, t) ← twoDigits? t
  let t ← after? [minus] t
  let (day, t) ← twoDigits? t
  if 1 ≤ month && month ≤ 12 && 1 ≤ day && day ≤ daysIn (century * 100 + years) month then some t
  else none

/-- What follows a time of day; the hour may have one digit. -/
def time? (t : Text) : Option Text := do
  let (hour, t) ← (twoDigits? t).or (match t with
    | a :: rest => if isDigit a then some (a.toNat - 48, rest) else none
    | [] => none)
  let t ← after? [colon] t
  let (minute, t) ← twoDigits? t
  let t ← after? [colon] t
  let (second, t) ← twoDigits? t
  if 24 ≤ hour || 60 ≤ minute || 60 ≤ second then none
  else
    match after? [dot] t with
    | some rest =>
      let digits := rest.takeWhile isDigit
      if digits.isEmpty then some t else some (rest.drop digits.length)
    | none => some t

/-- Whether a text is an offset from universal time, or none. -/
def isZone (t : Text) : Bool :=
  match t with
  | [] => true
  | b :: rest =>
    if b == 90 then rest.isEmpty
    else if b == plus || b == minus then
      match twoDigits? rest with
      | some (hour, more) =>
        match (after? [colon] more).bind twoDigits? with
        | some (minute, []) => hour ≤ 24 && minute < 60
        | _ => false
      | none => false
    else false

/-- A date, a time of day, or both, with a zone or without. -/
def datetime? (t : Text) : Option Value :=
  let t := t.map fun b => if b == 122 then 90 else if b == 116 || b == blank then 84 else b
  let ok := match date? t with
    | some [] => true
    | some (mark :: rest) => mark == 84 && ((time? rest).map isZone).getD false
    | none => time? t == some []
  if ok then some .datetime else none

/-- A number or a date at the beginning of a text. -/
def numeric? (t : Text) : Option (Value × Text) :=
  let isFloatByte := fun b => isDigit b || ("_.-+eE" : Text).contains b
  let isDateByte := fun b => isDigit b || ("-:Tt .Zz+" : Text).contains b
  let isFloatMark := fun (b : Option UInt8) => b == some dot || b == some 101 || b == some 69
  let take := fun (isPart : UInt8 → Bool) (read : Text → Option Value) =>
    let run := t.takeWhile isPart
    (read run).map fun value => (value, t.drop run.length)
  let decimal := fun (sign : Nat) =>
    let run := (t.drop sign).takeWhile fun b => isDigit b || b == underscore
    let length := sign + run.length
    if isFloatMark (t.drop length).head? then
      let more := (t.drop length).takeWhile isFloatByte
      let whole := length + more.length
      (float? (t.take whole)).map fun value => (value, t.drop whole)
    else (integer? (t.take length)).map fun value => (value, t.drop length)
  match t with
  | [] => none
  | first :: rest =>
    if first == minus || first == plus then
      match (after? "inf" rest).or (after? "nan" rest) with
      | some more => some (.float, more)
      | none =>
        match rest with
        | [] => none
        | digit :: more =>
          let isBase := fun b => b == 98 || b == 111 || b == 120
          let isBased := digit == 48 && (more.head?.map isBase).getD false
          if !isDigit digit || isBased then none else decimal 1
    else
      let base := fun (isPart : UInt8 → Bool) =>
        if ((rest.drop 1).head?.map isPart).getD false then
          let run := (rest.drop 1).takeWhile fun b => isPart b || b == underscore
          (integer? (t.take (2 + run.length))).map fun value => (value, t.drop (2 + run.length))
        else none
      let digits := t.takeWhile isDigit
      let next := (t.drop digits.length).head?
      if first == 48 && rest.head? == some 120 then base fun b => (hexValue? b).isSome
      else if first == 48 && rest.head? == some 111 then base fun b => 48 ≤ b && b ≤ 55
      else if first == 48 && rest.head? == some 98 then base fun b => b == 48 || b == 49
      else if 1 < digits.length || first != 48 then
        if next == some minus || next == some colon then
          take isDateByte fun run => datetime? (run.dropEndWhile (· == blank))
        else decimal 0
      else decimal 0

/-- The value of the escape after a backslash, and how many bytes it takes. -/
def escape? (t : Text) : Option (Text × Nat) :=
  match t with
  | [] => none
  | b :: rest =>
    let code := fun (places : Nat) =>
      let digits := rest.take places
      let n := valueIn 16 digits
      let isScalar := n < 0xD800 || (0xE000 ≤ n && n < 0x110000)
      if digits.length == places && digits.all (fun b => (hexValue? b).isSome) && isScalar then
        some (Utf8.encode n, places + 1)
      else none
    if b == 117 then code 4
    else if b == 85 then code 8
    else if b == quote || b == backslash then some ([b], 1)
    else if b == 98 then some ([8], 1)
    else if b == 116 then some ([tab], 1)
    else if b == 110 then some ([newline], 1)
    else if b == 102 then some ([formFeed], 1)
    else if b == 114 then some ([carriage], 1)
    else none

/-- A string on one line after its opening quote, after `skip` bytes. -/
def basicFrom (out : Text) : Nat → Text → Option (Text × Text)
  | _, [] => none
  | skip + 1, _ :: t => basicFrom out skip t
  | 0, b :: t =>
    if b == quote then some (out.reverse, t)
    else if b == newline || b == carriage then none
    else if b == backslash then
      match escape? t with
      | some (value, width) => basicFrom (value.reverse ++ out) width t
      | none => none
    else basicFrom (b :: out) 0 t

/-- A literal string on one line after its opening apostrophe. -/
def literal? (t : Text) : Option (Text × Text) :=
  let run := t.takeWhile fun b => b != apostrophe && b != newline && b != carriage
  (after? [apostrophe] (t.drop run.length)).map fun rest => (run, rest)

/-- The text without the line break it begins with. -/
def dropBreak (t : Text) : Text := ((after? "\n" t).or (after? "\r\n" t)).getD t

/-- A string of several lines up to three closing marks, after `skip` bytes. Up to two more marks
may stand before the closing ones. -/
def multilineFrom (mark : UInt8) (out : Text) : Nat → Text → Option (Text × Text)
  | _, [] => none
  | skip + 1, _ :: t => multilineFrom mark out skip t
  | 0, b :: t =>
    if b == mark then
      let run := ((b :: t).takeWhile (· == mark)).length
      if run < 3 then multilineFrom mark (List.replicate run mark ++ out) (run - 1) t
      else if 5 < run then none
      else some ((List.replicate (run - 3) mark ++ out).reverse, (b :: t).drop run)
    else if b == backslash && mark == quote then
      let blanks := t.takeWhile fun c => c == blank || c == tab || c == newline || c == carriage
      if blanks.contains newline then multilineFrom mark out blanks.length t
      else
        match escape? t with
        | some (value, width) => multilineFrom mark (value.reverse ++ out) width t
        | none => none
    else multilineFrom mark (b :: out) 0 t

/-- A string of any of the four kinds. -/
def string? (t : Text) : Option (Text × Text) :=
  match after? "\"\"\"" t, after? "'''" t with
  | some rest, _ => multilineFrom quote [] 0 (dropBreak rest)
  | _, some rest => multilineFrom apostrophe [] 0 (dropBreak rest)
  | none, none =>
    match t with
    | b :: rest =>
      if b == quote then basicFrom [] 0 rest
      else if b == apostrophe then literal? rest
      else none
    | [] => none

end ScriptNav.Toml
