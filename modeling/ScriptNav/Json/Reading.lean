import ScriptNav.Json.Basic
import ScriptNav.Text.Integer
import ScriptNav.Text.Letter

/-! Reading JSON into records. A value is read onto one that is there already, so that members which
are missing or null keep what they had, and repeated members add up. -/
namespace ScriptNav.Json

open Text

/-- Reads a value onto another; nothing if it is of the wrong kind. -/
abbrev Reading (α : Type) := Json → α → Option α

namespace Reading

def text : Reading Text
  | .string t, _ => some t
  | .null, old => some old
  | _, _ => none

/-- Integers from `low` to `high`, written without point and exponent. -/
def integer (low high : Int) : Reading Int
  | .number numeral, _ =>
    match parseInteger numeral with
    | .ok n => if low ≤ n && n ≤ high then some n else none
    | .error _ => none
  | .null, old => some old
  | _, _ => none

def int64 : Reading Int := integer (-0x8000000000000000) 0x7FFFFFFFFFFFFFFF

/-- Words of 32 bits, written without a sign. -/
def word : Reading UInt32
  | .number numeral, _ =>
    match magnitude 0 numeral with
    | .ok n => if n < 0x100000000 then some (UInt32.ofNat n) else none
    | .error _ => none
  | .null, old => some old
  | _, _ => none

/-- A value that may be missing; null takes it away. -/
def optional {α : Type} (zero : α) (read : Reading α) : Reading (Option α)
  | .null, _ => some none
  | j, old => (read j (old.getD zero)).map some

/-- Items, with those of an earlier and longer list that are not in use. -/
structure Items (α : Type) where
  used : List α := []
  spare : List α := []

/-- Reads items onto those in the same places. -/
def itemsOnto {α : Type} (zero : α) (read : Reading α) : List Json → List α → Option (Items α)
  | [], old => some ⟨[], old⟩
  | j :: js, old => do
    let item ← read j (old.headD zero)
    let rest ← itemsOnto zero read js old.tail
    return { rest with used := item :: rest.used }

def items {α : Type} (zero : α) (read : Reading α) : Reading (Items α)
  | .null, _ => some {}
  | .array [], _ => some {}
  | .array js, old => itemsOnto zero read js (old.used ++ old.spare)
  | _, _ => none

/-- Reads a part of a record. -/
def part {α β : Type} (get : α → β) (put : α → β → α) (read : Reading β) : Reading α :=
  fun j a => (read j (get a)).map (put a)

/-- Reads the members of an object by their names, in any letter case. Others are left aside. -/
def record {α : Type} (fields : List (Text × Reading α)) : Reading α
  | .object members, a =>
    members.foldlM (fun a (key, value) =>
      match fields.find? fun field => equalFold key field.1 with
      | some (_, read) => read value a
      | none => some a) a
  | .null, a => some a
  | _, _ => none

end Reading
end ScriptNav.Json
