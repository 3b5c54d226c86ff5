import ScriptNav.Command.Location
import ScriptNav.Proofs.Text.Numeral
import ScriptNav.Proofs.Text.PositionOffsets

/-! Locations as users write them. A location that is shown is read back as its position; and one that
is read leads to the offset of its line and column, at most the end of the line, as long as the sum of
the two is a word. A sum that is none is negative, and so is the offset then, since the end of the line
is only looked at afterwards. -/
namespace ScriptNav.Command

open Text

section Reading
variable {s t : Text} {p : Position}

/-- The numeral of a count is read back as the count. -/
theorem parseCount?_ofInt {n : Nat} (h : n + 1 < 0x8000000000000000) :
    parseCount? (ofInt (n + 1)) = some (n + 1) := by
  have hparse : parseInteger (ofInt (n + 1)) = .ok (n + 1) := parseInteger_ofNat h
  rw [parseCount?, hparse]
  exact if_pos (by omega)

/-- A location is read back as its position. -/
theorem parseLocation_showLocation {l c : Nat} (hl : l + 1 < 0x8000000000000000)
    (hc : c + 1 < 0x8000000000000000) : parseLocation (showLocation ⟨l, c⟩) = .ok ⟨l, c⟩ := by
  have hcolon : colon ∉ ofInt (l + 1) := by
    intro hmem
    have hdigit : isDigit colon = true := isDigit_of_mem_ofNat (n := l + 1) colon hmem
    cases hdigit
  have hcut : cut? colon (showLocation ⟨l, c⟩) = some (ofInt (l + 1), ofInt (c + 1)) := by
    rw [showLocation, List.append_assoc]
    exact cut?_append hcolon _
  rw [parseLocation, hcut]
  simp only [parseCount?_ofInt hl, parseCount?_ofInt hc]
  simp

/-- The location of an offset is read back as the position at the offset. -/
theorem parseLocation_positionAt {o : Int} (h : t.clamp o + 1 < 0x8000000000000000) :
    parseLocation (showLocation (t.positionAt o)) = .ok (t.positionAt o) := by
  have hline := List.count_le_length (a := newline) (l := t.take (t.clamp o))
  have hcolumn := length_lastLine_le (t.take (t.clamp o))
  rw [List.length_take] at hline hcolumn
  exact parseLocation_showLocation (by omega) (by omega)

theorem parseCount?_range {n : Int} (h : parseCount? s = some n) :
    1 ≤ n ∧ n < 0x8000000000000000 := by
  rw [parseCount?] at h
  split at h
  · next hn =>
    split_ifs at h with hpos
    cases h
    exact ⟨hpos, parseInteger_lt hn⟩
  · cases h

/-- The positions that can be written: both counts begin with one and are words. -/
theorem exists_parseLocation_iff :
    (∃ s, parseLocation s = .ok p) ↔
      ∃ l c : Nat, p = ⟨l, c⟩ ∧ l + 1 < 0x8000000000000000 ∧ c + 1 < 0x8000000000000000 := by
  constructor
  · rintro ⟨s, h⟩
    rw [parseLocation] at h
    split at h
    · cases h
    · split at h
      · cases h
      · cases h
      · next l c hl hc =>
        obtain ⟨hpos, hlt⟩ := parseCount?_range hl
        obtain ⟨hpos', hlt'⟩ := parseCount?_range hc
        cases h
        refine ⟨(l - 1).toNat, (c - 1).toNat, ?_, by omega, by omega⟩
        rw [Int.toNat_of_nonneg (by omega), Int.toNat_of_nonneg (by omega)]
  · rintro ⟨l, c, rfl, hl, hc⟩
    exact ⟨_, parseLocation_showLocation hl hc⟩

end Reading

/-- An offset of a text is the one of a position in numbers without bounds: a column that its line has
not is the end of the line, and a line that is not there is the end of the text. -/
structure IsClamped (t : Text) (p : Position) (o : Int) : Prop where
  inside : 0 ≤ o ∧ o ≤ t.length
  onLine : ∀ start, StartsLine t p.line.toNat start → o = min (start + p.column) (t.lineEnd start)
  beyond : (¬ ∃ start, StartsLine t p.line.toNat start) → o = t.length

section Clamping
variable {t : Text} {n c : Nat}

/-- A position is clamped if the sum of the beginning of its line and its column is a word. -/
theorem isClamped_offsetAt
    (h : ∀ start, StartsLine t n start → start + c < 0x8000000000000000) :
    IsClamped t ⟨n, c⟩ (t.offsetAt ⟨n, c⟩) := by
  have honLine (start : Nat) (hstart : StartsLine t n start) :
      t.offsetAt ⟨n, c⟩ = min (start + c : Int) (t.lineEnd start) := by
    rw [hstart.offsetAt_of_lt (h start hstart)]
    omega
  have hbeyond (hnone : ¬ ∃ start, StartsLine t n start) : t.offsetAt ⟨n, c⟩ = t.length := by
    rw [exists_startsLine_iff] at hnone
    exact offsetAt_of_count_lt (by omega) c
  refine ⟨?_, by simpa using honLine, by simpa using hbeyond⟩
  by_cases hline : ∃ start, StartsLine t n start
  · obtain ⟨start, hstart⟩ := hline
    have hstop := lineEnd_le hstart.le
    rw [honLine start hstart]
    omega
  · rw [hbeyond hline]
    omega

end Clamping

/-- Locations that are read. Every line and every column from one to the largest word can be written.
The offset of such a position is clamped just where the sum of the beginning of its line and its column
is a word; otherwise it lies before the text. -/
theorem locations_clamp_iff {t : Text} (hlen : t.length < 0x8000000000000000) :
    (∀ p, (∃ s, parseLocation s = .ok p) ↔
      ∃ l c : Nat, p = ⟨l, c⟩ ∧ l + 1 < 0x8000000000000000 ∧ c + 1 < 0x8000000000000000) ∧
    ∀ s p, parseLocation s = .ok p →
      (IsClamped t p (t.offsetAt p) ↔
        ∀ start, StartsLine t p.line.toNat start → start + p.column < 0x8000000000000000) ∧
      ∀ start, StartsLine t p.line.toNat start → 0x8000000000000000 ≤ start + p.column →
        t.offsetAt p = start + p.column - 0x10000000000000000 ∧ t.offsetAt p < 0 := by
  refine ⟨fun p => exists_parseLocation_iff, fun s p hs => ?_⟩
  obtain ⟨l, c, rfl, -, hc⟩ := exists_parseLocation_iff.1 ⟨s, hs⟩
  simp only [Int.toNat_natCast]
  have hover (start : Nat) (hstart : StartsLine t l start)
      (hsum : 0x8000000000000000 ≤ (start + c : Int)) :
      t.offsetAt ⟨l, c⟩ = start + c - 0x10000000000000000 ∧ t.offsetAt ⟨l, c⟩ < 0 := by
    have hle := hstart.le
    have hoffset := hstart.offsetAt_of_le (c := c) (by omega) (by omega)
    omega
  refine ⟨⟨fun h start hstart => ?_, fun h => isClamped_offsetAt ?_⟩, hover⟩
  · by_contra hsum
    have hnegative := (hover start hstart (by omega)).2
    have := h.inside.1
    omega
  · intro start hstart
    have := h start hstart
    omega

/-- A script in which a line ends with a name. -/
def brokenCall : Text := ofString "main()\x7b\n g(::f\n );\n\x7d\nf()\x7b\n\x7d\n"

theorem startsLine_brokenCall : StartsLine brokenCall 1 8 :=
  ⟨by decide, by decide, .inr (by decide)⟩

/-- The largest column of a line that leaves the sum a word. -/
theorem locations_clamp_largestSum :
    brokenCall.length < 0x8000000000000000 ∧
    parseLocation "2:9223372036854775800" = .ok ⟨1, 9223372036854775799⟩ ∧
    StartsLine brokenCall 1 8 ∧ (8 + 9223372036854775799 : Int) < 0x8000000000000000 ∧
    IsClamped brokenCall ⟨1, 9223372036854775799⟩
      (brokenCall.offsetAt ⟨1, 9223372036854775799⟩) ∧ brokenCall.lineEnd 8 = 14 := by
  have hlen : brokenCall.length < 0x8000000000000000 := by decide
  have hs : parseLocation "2:9223372036854775800" = .ok ⟨1, 9223372036854775799⟩ := by decide
  refine ⟨hlen, hs, startsLine_brokenCall, by decide, ?_, by decide⟩
  refine (((locations_clamp_iff hlen).2 _ _ hs).1).2 fun start hstart => ?_
  obtain rfl := startsLine_brokenCall.unique hstart
  decide

/-- The column after the largest word lies before the text, and not at the end of its line. -/
theorem locations_clamp_farColumn :
    parseLocation "2:9223372036854775807" = .ok ⟨1, 9223372036854775806⟩ ∧
    StartsLine brokenCall 1 8 ∧ brokenCall.lineEnd 8 = 14 ∧
    brokenCall.offsetAt ⟨1, 9223372036854775806⟩ = -9223372036854775802 ∧
    ¬ IsClamped brokenCall ⟨1, 9223372036854775806⟩
      (brokenCall.offsetAt ⟨1, 9223372036854775806⟩) := by
  have hoffset : brokenCall.offsetAt ⟨1, 9223372036854775806⟩ = -9223372036854775802 := by decide
  refine ⟨by decide, startsLine_brokenCall, by decide, hoffset, fun h => ?_⟩
  have hinside := h.inside.1
  rw [hoffset] at hinside
  exact absurd hinside (by decide)

end ScriptNav.Command
