import ScriptNav.Proofs.Text.Line

/-! Offsets and positions. The position at an offset leads back to the offset, unless a carriage
return that ends its line lies between them. -/
namespace ScriptNav.Text

/-- An offset behind a carriage return that is the last byte of its line. -/
def FollowsReturn (t : Text) (o : Nat) : Prop :=
  ∃ i, o = i + 1 ∧ t[i]? = some carriage ∧ (t[i + 1]? = none ∨ t[i + 1]? = some newline)

instance (t : Text) (o : Nat) : Decidable (FollowsReturn t o) :=
  match o with
  | 0 => isFalse fun ⟨_, h, _⟩ => nomatch h
  | i + 1 => decidable_of_iff
      (t[i]? = some carriage ∧ (t[i + 1]? = none ∨ t[i + 1]? = some newline))
      ⟨fun h => ⟨i, rfl, h⟩, fun ⟨_, hi, h⟩ => Nat.succ.inj hi ▸ h⟩

variable {t : Text} {o : Nat}

theorem wrap_natCast {n : Nat} (h : n < 0x8000000000000000) : wrap n = n := by
  rw [wrap, Int.bmod_eq_of_le] <;> omega

/-- The bytes of a line before an offset are part of the line without its line break. -/
theorem length_lastLine_le_firstLine (ho : o ≤ t.length) (hreturn : ¬ FollowsReturn t o) :
    (lastLine (t.take o)).length ≤ (firstLine (lastLine (t.take o) ++ t.drop o)).length := by
  obtain ⟨before, line, htake, hrun⟩ := exists_isLastRun (· != newline) (t.take o)
  rw [htake, lastLine_append hrun]
  obtain ⟨tail, hfirst, htail⟩ := takeWhile_eq_firstLine (line ++ t.drop o)
  rw [List.takeWhile_append_of_pos hrun.all] at hfirst
  have hlength := congrArg List.length hfirst
  rw [List.length_append, List.length_append] at hlength
  rcases htail with rfl | rfl
  · rw [List.length_nil] at hlength
    omega
  -- Only a carriage return may be missing, and then it does not stand before the offset.
  by_cases hrest : (t.drop o).takeWhile (· != newline) = []
  · refine absurd ?_ hreturn
    rw [hrest, List.append_nil] at hfirst
    have hlast : (t.take o).getLast? = some carriage := by
      rw [htake, hfirst, ← List.append_assoc, List.getLast?_concat]
    obtain ⟨i, hi, hbyte⟩ := exists_of_getLast?_take ho hlast
    refine ⟨i, hi, hbyte, ?_⟩
    rw [← hi, ← List.head?_drop]
    cases hd : t.drop o with
    | nil => exact .inl rfl
    | cons b rest =>
      rw [hd] at hrest
      refine .inr (congrArg some ?_)
      simpa [List.takeWhile_cons] using hrest
  · have := List.length_pos_iff.2 hrest
    rw [List.length_singleton] at hlength
    omega

/-- The position at an offset leads back to the offset. -/
theorem offsetAt_positionAt (ho : o ≤ t.length) (hlen : t.length < 0x8000000000000000)
    (hreturn : ¬ FollowsReturn t o) : t.offsetAt (t.positionAt o) = o := by
  have hclamp : t.clamp o = o := by simp [clamp, ho]
  have hline := length_lastLine_le_firstLine ho hreturn
  have hle := length_lastLine_le (t.take o)
  rw [List.length_take_of_le ho] at hle
  rw [positionAt, hclamp, offsetAt, if_neg (by simp)]
  simp only [Int.toNat_natCast, fromLine?_take, List.length_append, List.length_drop]
  have hstart : t.length - ((lastLine (t.take o)).length + (t.length - o)) =
      o - (lastLine (t.take o)).length := by omega
  have hsum : ((o - (lastLine (t.take o)).length : Nat) : Int) + (lastLine (t.take o)).length = o := by
    omega
  rw [hstart, hsum, wrap_natCast (by omega), if_neg (by omega)]

end ScriptNav.Text
