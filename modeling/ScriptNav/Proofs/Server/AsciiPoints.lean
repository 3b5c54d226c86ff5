import ScriptNav.Proofs.Server.PointOffsets
import ScriptNav.Proofs.Text.PositionOffsets
import ScriptNav.Proofs.Text.Trim

/-! Points and positions of texts in ASCII. Every byte is a character of one unit there, so a scan that
counts units up to a column comes to the offset that a position reaches by adding its column to the
beginning of its line. The two differ in what they take for a line break at the end of a text, and in
sums that are no words. -/
namespace ScriptNav.Server

open Text Utf8

section Columns
variable {t : Text}

theorem units_byte (b : UInt8) : units b.toNat = 1 := by
  have hlt := b.toNat_lt
  rw [units, if_neg (by omega)]

/-- A scan over ASCII goes on to its column or to the end of the line. -/
theorem columnLength_ascii (hascii : ∀ b ∈ t, b < 0x80) (hlast : t.getLast? ≠ some carriage)
    (limit done : UInt32) :
    columnLength limit done 0 t = min (limit.toNat - done.toNat) (firstLine t).length := by
  induction t generalizing done with
  | nil => exact (Nat.min_zero _).symm
  | cons b t ih =>
    have hb : b < 0x80 := hascii b List.mem_cons_self
    have hnext : t.getLast? ≠ some carriage := by
      intro hnext
      rw [List.getLast?_cons, hnext] at hlast
      exact hlast rfl
    rw [columnLength_cons, decode_ascii hb, units_byte]
    by_cases hlimit : limit ≤ done
    · rw [if_pos hlimit]
      rw [UInt32.le_iff_toNat_le] at hlimit
      omega
    have hone : (done + 1).toNat = done.toNat + 1 := by
      have hmax := limit.toNat_lt
      rw [UInt32.le_iff_toNat_le] at hlimit
      rw [UInt32.toNat_add, UInt32.toNat_one, Nat.mod_eq_of_lt (by omega)]
    have hfits : ¬ limit < done + 1 := by
      rw [UInt32.le_iff_toNat_le] at hlimit
      rw [UInt32.lt_iff_toNat_lt, hone]
      omega
    by_cases hbreak : b = newline ∨ b = carriage ∧ t.head? = some newline
    · have hfirst : firstLine (b :: t) = [] := by
        rw [firstLine_cons, if_pos (hbreak.imp_right fun h => ⟨h.1, .inr h.2⟩)]
      rw [if_neg hlimit, if_pos (by simpa using hbreak), hfirst]
      exact (Nat.min_zero _).symm
    · -- A carriage return that ends the text would end its line too.
      have hfirst : firstLine (b :: t) = b :: firstLine t := by
        rw [firstLine_cons, if_neg]
        rintro (hfeed | ⟨rfl, rfl | hhead⟩)
        · exact hbreak (.inl hfeed)
        · exact hlast rfl
        · exact hbreak (.inr ⟨rfl, hhead⟩)
      rw [if_neg hlimit, if_neg (by simpa using hbreak), if_neg hfits, hfirst, List.length_cons,
        List.drop_succ_cons, List.drop_zero,
        ih (fun c hc => hascii c (List.mem_cons_of_mem b hc)) hnext, hone]
      rw [UInt32.le_iff_toNat_le] at hlimit
      omega

end Columns

section Offsets
variable {t : Text} {start : Nat} {p : Point}

theorem offsetOf_of_startsLine (h : StartsLine t p.line.toNat start) :
    offsetOf t p = start + columnLength p.character 0 0 (t.drop start) := by
  have hle := h.le
  rw [offsetOf, h.fromLine?_eq]
  simp only [List.length_drop]
  omega

/-- The offset of a point of an ASCII text, from the beginning of its line. -/
theorem offsetOf_ascii (hascii : ∀ b ∈ t, b < 0x80) (hlast : t.getLast? ≠ some carriage)
    (h : StartsLine t p.line.toNat start) :
    offsetOf t p = min (start + p.character.toNat) (t.lineEnd start) := by
  have hrest : (t.drop start).getLast? ≠ some carriage := by
    rw [List.getLast?_drop]
    split_ifs
    · exact nofun
    · exact hlast
  rw [offsetOf_of_startsLine h,
    columnLength_ascii (fun b hb => hascii b (List.mem_of_mem_drop hb)) hrest, lineEnd]
  simp only [UInt32.toNat_zero]
  omega

/-- The position with the line and the column of a point. -/
def Point.toPosition (p : Point) : Position := ⟨p.line.toNat, p.character.toNat⟩

theorem offsetOf_eq_offsetAt (hascii : ∀ b ∈ t, b < 0x80) (hlast : t.getLast? ≠ some carriage)
    (h : ∀ start, StartsLine t p.line.toNat start →
      start + p.character.toNat < 0x8000000000000000) :
    offsetOf t p = t.offsetAt p.toPosition := by
  by_cases hline : ∃ start, StartsLine t p.line.toNat start
  · obtain ⟨start, hstart⟩ := hline
    rw [offsetOf_ascii hascii hlast hstart, Point.toPosition,
      hstart.offsetAt_of_lt (h start hstart)]
  · rw [exists_startsLine_iff, Nat.not_le] at hline
    rw [offsetOf_eq_length hline, Point.toPosition, offsetAt_of_count_lt hline]

end Offsets

/-- Points and positions of a text in ASCII that does not end with a carriage return lead to the same
offsets, as long as the text leaves room for a column in the words; and whatever its length, they do so
just where the sum of the beginning of the line and the column is a word. -/
theorem offsetOf_eq_offsetAt_iff {t : Text} (hascii : ∀ b ∈ t, b < 0x80)
    (hlast : t.getLast? ≠ some carriage) (hlen : t.length < 0x8000000000000000) (p : Point) :
    (t.length ≤ 0x8000000000000000 - 0x100000000 → offsetOf t p = t.offsetAt p.toPosition) ∧
    (offsetOf t p = t.offsetAt p.toPosition ↔
      ∀ start, StartsLine t p.line.toNat start →
        start + p.character.toNat < 0x8000000000000000) := by
  have hmax := p.character.toNat_lt
  refine ⟨fun hroom => ?_, fun hagree start hstart => ?_, offsetOf_eq_offsetAt hascii hlast⟩
  · refine offsetOf_eq_offsetAt hascii hlast fun start hstart => ?_
    have hle := hstart.le
    omega
  · by_contra hsum
    have hle := hstart.le
    rw [Point.toPosition, hstart.offsetAt_of_le (by omega) (by omega)] at hagree
    omega

/-- A column behind the end of a line that has a carriage return inside it and another one before its
line feed. -/
theorem offsetOf_eq_offsetAt_mixedBreaks :
    let t := ofString "\n\r\na\rb\r\n\rc"
    (∀ b ∈ t, b < 0x80) ∧ t.getLast? ≠ some carriage ∧ t.length < 0x8000000000000000 ∧
    t.length ≤ 0x8000000000000000 - 0x100000000 ∧ offsetOf t ⟨2, 0xFFFFFFFF⟩ = 6 ∧
    offsetOf t ⟨2, 0xFFFFFFFF⟩ = t.offsetAt (Point.toPosition ⟨2, 0xFFFFFFFF⟩) := by
  intro t
  have hbytes : t.all (· < 0x80) = true := by decide
  have hascii : ∀ b ∈ t, b < 0x80 := fun b hb =>
    of_decide_eq_true (List.all_eq_true.1 hbytes b hb)
  have hlast : t.getLast? ≠ some carriage := by decide
  have hlen : t.length < 0x8000000000000000 := by decide
  have hroom : t.length ≤ 0x8000000000000000 - 0x100000000 := by decide
  exact ⟨hascii, hlast, hlen, hroom, by decide,
    (offsetOf_eq_offsetAt_iff hascii hlast hlen ⟨2, 0xFFFFFFFF⟩).1 hroom⟩

/-- A carriage return at the end of a text belongs to its line for a point, and not for a position. -/
example : offsetOf (ofString "a\r") ⟨0, 2⟩ = 2 ∧ offsetAt (ofString "a\r") ⟨0, 2⟩ = 1 := by decide

end ScriptNav.Server
