import Mathlib.Tactic.SplitIfs
import ScriptNav.Text.Integer

/-! Decimal numerals. A number is written with digits only, without leading zeros, and its numeral
has its value. -/
namespace ScriptNav.Text

theorem digit_toNat {n : Nat} (h : n < 10) : (48 + n).toUInt8.toNat = 48 + n := by
  rw [Nat.toUInt8, UInt8.toNat_ofNat']
  omega

theorem isDigit_digit {n : Nat} (h : n < 10) : isDigit (48 + n).toUInt8 = true := by
  simp only [isDigit, Bool.and_eq_true, decide_eq_true_eq, UInt8.le_iff_toNat_le, digit_toNat h]
  exact ⟨by simp, by simp; omega⟩

theorem ofNat_of_lt {n : Nat} (h : n < 10) : ofNat n = [(48 + n).toUInt8] := by
  rw [ofNat, Nat.toDigits_of_lt_base h, List.map_singleton, Nat.toNat_digitChar_of_lt_ten h]

theorem ofNat_of_le {n : Nat} (h : 10 ≤ n) :
    ofNat n = ofNat (n / 10) ++ [(48 + n % 10).toUInt8] := by
  have hlt : n % 10 < 10 := Nat.mod_lt _ (by decide)
  rw [ofNat, Nat.toDigits_of_base_le (by decide) h, List.map_append, List.map_singleton,
    Nat.toNat_digitChar_of_lt_ten hlt, ofNat]

theorem isDigit_of_mem_ofNat {n : Nat} : ∀ b ∈ ofNat n, isDigit b = true := by
  induction n using Nat.strongRecOn with
  | ind n ih =>
    intro b hb
    by_cases h : n < 10
    · rw [ofNat_of_lt h, List.mem_singleton] at hb
      exact hb ▸ isDigit_digit h
    · rw [ofNat_of_le (by omega), List.mem_append, List.mem_singleton] at hb
      rcases hb with hb | rfl
      · exact ih _ (by omega) b hb
      · exact isDigit_digit (Nat.mod_lt _ (by decide))

/-- A numeral begins with a digit, and with no zero unless it is the numeral of zero. -/
theorem ofNat_eq_cons (n : Nat) :
    ∃ b t, ofNat n = b :: t ∧ isDigit b = true ∧ (0 < n → b ≠ 48) := by
  induction n using Nat.strongRecOn with
  | ind n ih =>
    by_cases h : n < 10
    · refine ⟨_, [], ofNat_of_lt h, isDigit_digit h, fun hpos hzero => ?_⟩
      have := congrArg UInt8.toNat hzero
      rw [digit_toNat h] at this
      simp at this
      omega
    · obtain ⟨b, t, ht, hb, hzero⟩ := ih (n / 10) (by omega)
      refine ⟨b, t ++ [(48 + n % 10).toUInt8], ?_, hb, fun _ => hzero (by omega)⟩
      rw [ofNat_of_le (by omega), ht, List.cons_append]

/-- The number that digits stand for. -/
def decimal (digits : Text) : Nat := digits.foldl (fun n b => n * 10 + (b.toNat - 48)) 0

/-- A numeral stands for its number. -/
theorem decimal_ofNat (n : Nat) : decimal (ofNat n) = n := by
  induction n using Nat.strongRecOn with
  | ind n ih =>
    by_cases h : n < 10
    · rw [ofNat_of_lt h, decimal, List.foldl_cons, digit_toNat h]
      simp
    · have hlast : n % 10 < 10 := Nat.mod_lt _ (by decide)
      have hfront := ih (n / 10) (by omega)
      rw [decimal] at hfront
      rw [ofNat_of_le (by omega), decimal, List.foldl_append, hfront, List.foldl_cons,
        digit_toNat hlast, List.foldl_nil]
      omega

theorem magnitude_append {m k : Nat} {t : Text} (h : magnitude m t = .ok k) (u : Text) :
    magnitude m (t ++ u) = magnitude k u := by
  induction t generalizing m with
  | nil =>
    cases h
    rfl
  | cons b t ih =>
    simp only [magnitude] at h
    simp only [List.cons_append, magnitude]
    split_ifs at h ⊢
    exact ih h

theorem magnitude_digit {m n : Nat} (hn : n < 10) (h : m * 10 + n < 0x10000000000000000) :
    magnitude m [(48 + n).toUInt8] = .ok (m * 10 + n) := by
  simp only [magnitude, isDigit_digit hn, digit_toNat hn, Nat.add_sub_cancel_left]
  rw [if_neg (by decide), if_neg (by omega)]

/-- A numeral has the value of its number, if that is a word. -/
theorem magnitude_ofNat {n : Nat} (h : n < 0x10000000000000000) : magnitude 0 (ofNat n) = .ok n := by
  induction n using Nat.strongRecOn with
  | ind n ih =>
    by_cases hlt : n < 10
    · rw [ofNat_of_lt hlt, magnitude_digit hlt (by omega), Nat.zero_mul, Nat.zero_add]
    · have hvalue : n / 10 * 10 + n % 10 = n := by omega
      rw [ofNat_of_le (by omega), magnitude_append (ih _ (by omega) (by omega)),
        magnitude_digit (Nat.mod_lt _ (by decide)) (by omega), hvalue]

/-- A numeral is read back as its number, if that is a signed word. -/
theorem parseInteger_ofNat {n : Nat} (h : n < 0x8000000000000000) :
    parseInteger (ofNat n) = .ok n := by
  obtain ⟨b, t, ht, hb, -⟩ := ofNat_eq_cons n
  have hvalue := magnitude_ofNat (n := n) (by omega)
  have hsign : ∀ c, isDigit c = false → (b == c) = false := by
    intro c hc
    rw [beq_eq_false_iff_ne]
    rintro rfl
    rw [hb] at hc
    cases hc
  rw [ht] at hvalue ⊢
  simp [parseInteger, hsign minus rfl, hsign plus rfl, hvalue, h]

/-- What is read as an integer is a signed word. -/
theorem parseInteger_lt {t : Text} {n : Int} (h : parseInteger t = .ok n) :
    n < 0x8000000000000000 := by
  simp only [parseInteger] at h
  split_ifs at h
  all_goals
    split at h
    · cases h
    · split_ifs at h
      cases h
      omega

end ScriptNav.Text
