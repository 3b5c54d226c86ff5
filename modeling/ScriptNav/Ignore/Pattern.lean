import ScriptNav.Text.Utf8

/-! Regular expressions over code points, and whether one occurs in a text. The ends that a pattern
can reach are kept as a set of positions in the bits of a number, so a match takes no more steps
than the pattern is large, times the length of the text for each repetition. -/
namespace ScriptNav.Ignore

inductive Pattern where
  | empty
  | set (negated : Bool) (ranges : List (Nat × Nat))
  | seq (first second : Pattern)
  | alt (first second : Pattern)
  | repeated (body : Pattern) (least : Nat) (most : Option Nat)
  | textStart
  | textEnd
  | wordEdge (present : Bool)

namespace Pattern

def literal (code : Nat) : Pattern := set false [(code, code)]

/-- Any code point but a line feed. -/
def any : Pattern := set true [(10, 10)]

def isWordCode (code : Nat) : Bool := Text.inRanges [(48, 57), (65, 90), (95, 95), (97, 122)] code

/-- The positions, as bits, at which a property of the code points holds. -/
def positions (holds : Nat → Bool) (codes : List Nat) : Nat :=
  codes.foldr (fun code bits => 2 * bits + if holds code then 1 else 0) 0

/-- The positions between code points where a word begins or ends. -/
def edges (codes : List Nat) : Nat :=
  let words := positions isWordCode codes
  words ^^^ (words <<< 1)

/-- Applies a step `n` times. -/
def iterate (step : Nat → Nat) : Nat → Nat → Nat
  | 0, bits => bits
  | n + 1, bits => iterate step n (step bits)

/-- Adds what a step reaches, `n` times over. -/
def close (step : Nat → Nat) : Nat → Nat → Nat
  | 0, bits => bits
  | n + 1, bits =>
    let next := bits ||| step bits
    if next == bits then bits else close step n next

/-- The positions that a pattern reaches from positions. -/
def reach (codes : List Nat) : Pattern → Nat → Nat
  | empty, bits => bits
  | set negated ranges, bits =>
    (bits &&& positions (fun code => Text.inRanges ranges code != negated) codes) <<< 1
  | seq first second, bits => reach codes second (reach codes first bits)
  | alt first second, bits => reach codes first bits ||| reach codes second bits
  | repeated body least most, bits =>
    let start := iterate (reach codes body) least bits
    match most with
    | none => close (reach codes body) (codes.length + 1) start
    | some most => close (reach codes body) (most - least) start
  | textStart, bits => bits &&& 1
  | textEnd, bits => bits &&& (1 <<< codes.length)
  | wordEdge present, bits =>
    let all := (1 <<< (codes.length + 1)) - 1
    bits &&& (if present then edges codes else all ^^^ edges codes)

/-- Whether a pattern matches somewhere in a text. -/
def occursIn (p : Pattern) (t : Text) : Bool :=
  let codes := Utf8.codes t
  reach codes p ((1 <<< (codes.length + 1)) - 1) != 0

/-- Whether bounded repetitions, multiplied where they are nested, stay within a limit. -/
def isBounded : Nat → Pattern → Bool
  | limit, repeated body least most =>
    let times := most.getD least
    if times == 0 then isBounded limit body
    else times ≤ limit && isBounded (limit / times) body
  | limit, seq first second => isBounded limit first && isBounded limit second
  | limit, alt first second => isBounded limit first && isBounded limit second
  | _, _ => true

end Pattern
end ScriptNav.Ignore
