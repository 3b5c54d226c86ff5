import ScriptNav.Text.Quoted

/-! Decimal integers of 64 bits as users write them: an optional sign and digits. -/
namespace ScriptNav.Text

inductive IntegerFault where
  | malformed
  | outOfRange
deriving DecidableEq, Repr

structure IntegerError where
  numeral : Text
  fault : IntegerFault
deriving DecidableEq, Repr

namespace IntegerError

def message (e : IntegerError) : Text :=
  "strconv.Atoi: parsing " ++ quoted e.numeral ++
    match e.fault with
    | .malformed => ": invalid syntax"
    | .outOfRange => ": value out of range"

end IntegerError

/-- The value of digits. Reading stops with the first digit that leaves the range of unsigned words,
whatever stands behind it. -/
def magnitude (n : Nat) : Text → Except IntegerFault Nat
  | [] => .ok n
  | b :: t =>
    if !isDigit b then .error .malformed
    else
      let next := n * 10 + (b.toNat - 48)
      if 0x10000000000000000 ≤ next then .error .outOfRange else magnitude next t

def parseInteger (t : Text) : Except IntegerError Int :=
  let refuse := fun fault => Except.error (IntegerError.mk t fault)
  let (negative, digits) := match t with
    | b :: rest =>
      if b == minus then (true, rest) else if b == plus then (false, rest) else (false, t)
    | [] => (false, t)
  if digits.isEmpty then refuse .malformed
  else
    match magnitude 0 digits with
    | .error fault => refuse fault
    | .ok n =>
      if negative then (if n ≤ 0x8000000000000000 then .ok (-n) else refuse .outOfRange)
      else if n < 0x8000000000000000 then .ok n else refuse .outOfRange

end ScriptNav.Text
