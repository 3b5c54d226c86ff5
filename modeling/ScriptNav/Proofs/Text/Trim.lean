import Mathlib.Data.List.TakeWhile
import ScriptNav.Proofs.Text.Utf8
import ScriptNav.Text.Blank

/-! Trimming texts of ASCII alone, where every byte is a character and blanks are seen byte by
byte. -/
namespace ScriptNav.Text

open Utf8

def isBlankByte (b : UInt8) : Bool := isBlankCode b.toNat

theorem isCharacter_ascii {b : UInt8} (h : b < 0x80) : IsCharacter b [] where
  length := by rw [announced, if_pos h]; rfl
  second := nofun
  others := nofun

theorem decode_ascii {b : UInt8} (h : b < 0x80) (t : Text) : decode b t = (b.toNat, 1) := by
  have hcode : assemble b [] = b.toNat := by simp [assemble, announced, h]
  rw [← hcode]
  exact (isCharacter_ascii h).decode_append t

theorem runes_ascii {t : Text} (h : ∀ b ∈ t, b < 0x80) :
    runes t = t.map fun b => (b.toNat, [b]) := by
  induction t with
  | nil => rfl
  | cons b t ih =>
    have hb : b < 0x80 := h b (by simp)
    have hcode : assemble b [] = b.toNat := by simp [assemble, announced, hb]
    have hrunes : runes (b :: ([] ++ t)) = _ := runes_character (isCharacter_ascii hb)
    rw [List.nil_append, hcode, ih fun c hc => h c (List.mem_cons_of_mem _ hc)] at hrunes
    exact hrunes

theorem trim_ascii {t : Text} (h : ∀ b ∈ t, b < 0x80) : trim t = strip isBlankByte t := by
  have hblank : ((fun r : Nat × Text => isBlankCode r.1) ∘ fun b : UInt8 => (b.toNat, [b])) =
      isBlankByte := rfl
  have hsnd : (Prod.snd ∘ fun b : UInt8 => (b.toNat, [b])) = fun b => [b] := rfl
  simp only [trim, runes_ascii h, List.dropWhile_map, ← List.map_reverse, List.map_map, hblank,
    hsnd]
  rw [← List.flatMap_def, List.flatMap_singleton']
  rfl

/-- A text of ASCII that neither begins nor ends with a blank stays as it is. -/
theorem trim_eq_self {t : Text} (h : ∀ b ∈ t, b < 0x80) (hblank : ∀ b ∈ t, isBlankByte b = false) :
    trim t = t := by
  have hkeep : ∀ u : Text, (∀ b ∈ u, isBlankByte b = false) → u.dropWhile isBlankByte = u := by
    intro u hu
    cases u with
    | nil => rfl
    | cons b u => rw [List.dropWhile_cons_of_neg (by simp [hu b (by simp)])]
  rw [trim_ascii h, strip, hkeep t hblank, dropEndWhile,
    hkeep _ fun b hb => hblank b (List.mem_reverse.1 hb), List.reverse_reverse]

theorem trim_cons_blank {b : UInt8} {t : Text} (hb : isBlankByte b = true)
    (h : ∀ c ∈ b :: t, c < 0x80) : trim (b :: t) = trim t := by
  rw [trim_ascii h, trim_ascii fun c hc => h c (List.mem_cons_of_mem _ hc), strip, strip,
    List.dropWhile_cons_of_pos hb]

end ScriptNav.Text
