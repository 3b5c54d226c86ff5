import ScriptNav.Text.Blank
import ScriptNav.Text.Integer
import ScriptNav.Text.Letter

/-! Messages on a stream of bytes: header lines, an empty line, and as many bytes as the header
says. -/
namespace ScriptNav.Server

open Text

inductive FrameError where
  | ended
  | cutShort
  | noLength
  | badNumber (error : IntegerError)
  | badLength (length : Int)
deriving DecidableEq, Repr

namespace FrameError

def message : FrameError → Text
  | ended => "EOF"
  | cutShort => "unexpected EOF"
  | noLength => "missing Content-Length header"
  | badNumber error => "invalid Content-Length: " ++ error.message
  | badLength length => "invalid Content-Length: " ++ ofInt length

end FrameError

/-- The longest payload that is read. -/
def payloadLimit : Int := 67108864

/-- The length that one header line gives, if it is about the length. -/
def lengthIn (line : Text) : Except FrameError (Option Nat) :=
  match line.cut? colon with
  | none => .ok none
  | some (name, value) =>
    if equalFold (trim name) "Content-Length" then
      match parseInteger (trim value) with
      | .error error => .error (.badNumber error)
      | .ok n => if n < 0 || payloadLimit < n then .error (.badLength n) else .ok (some n.toNat)
    else .ok none

/-- The length that the header lines give, the last one counting, and what follows the empty line.
The bytes of the line at hand stand last first in `line`. -/
def readHeader (line : Text) (length : Option Nat) : Text → Except FrameError (Option Nat × Text)
  | [] => .error .ended
  | b :: t =>
    if b != newline then readHeader (b :: line) length t
    else
      let content := (line.dropWhile (· == carriage)).reverse
      if content.isEmpty then .ok (length, t)
      else
        match lengthIn content with
        | .error e => .error e
        | .ok found => readHeader [] (found.or length) t

/-- The first payload of a stream, and the rest. -/
def readFrame (t : Text) : Except FrameError (Text × Text) :=
  match readHeader [] none t with
  | .error e => .error e
  | .ok (none, _) => .error .noLength
  | .ok (some length, rest) =>
    if length ≤ rest.length then .ok (rest.take length, rest.drop length)
    else if rest.isEmpty then .error .ended
    else .error .cutShort

theorem readHeader_length {line t rest : Text} {length found : Option Nat}
    (h : readHeader line length t = .ok (found, rest)) : rest.length < t.length := by
  induction t generalizing line length with
  | nil => simp [readHeader] at h
  | cons b t ih =>
    unfold readHeader at h
    split at h
    · exact Nat.lt_succ_of_lt (ih h)
    · dsimp only at h
      split at h
      · cases h
        exact Nat.lt_succ_self _
      · split at h
        · cases h
        · exact Nat.lt_succ_of_lt (ih h)

theorem readFrame_length {t payload rest : Text} (h : readFrame t = .ok (payload, rest)) :
    rest.length < t.length := by
  unfold readFrame at h
  split at h
  · cases h
  · cases h
  · next found =>
    split at h
    · cases h
      exact Nat.lt_of_le_of_lt (by simp) (readHeader_length found)
    · split at h <;> cases h

/-- All payloads of a stream, and what ended the reading. -/
def readFrames (t : Text) : List Text × FrameError :=
  match h : readFrame t with
  | .error e => ([], e)
  | .ok (payload, rest) =>
    have := readFrame_length h
    let (payloads, e) := readFrames rest
    (payload :: payloads, e)
termination_by t.length

/-- A payload as it goes on the stream. -/
def frame (payload : Text) : Text :=
  "Content-Length: " ++ ofNat payload.length ++ "\r\n\r\n" ++ payload

end ScriptNav.Server
