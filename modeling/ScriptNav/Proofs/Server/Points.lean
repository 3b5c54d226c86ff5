import ScriptNav.Proofs.Text.Line
import ScriptNav.Proofs.Text.Utf8
import ScriptNav.Server.Position

/-! Offsets and points. The point at an offset leads back to the offset, as long as the offset does
not lie inside a character or inside a line break. -/
namespace ScriptNav.Server

open Text Utf8

/-- An offset between a carriage return and the line feed that follows it. -/
def SplitsBreak (t : Text) (o : Nat) : Prop :=
  ∃ i, o = i + 1 ∧ t[i]? = some carriage ∧ t[i + 1]? = some newline

instance (t : Text) (o : Nat) : Decidable (SplitsBreak t o) :=
  match o with
  | 0 => isFalse fun ⟨_, h, _⟩ => nomatch h
  | i + 1 => decidable_of_iff (t[i]? = some carriage ∧ t[i + 1]? = some newline)
      ⟨fun h => ⟨i, rfl, h⟩, fun ⟨_, hi, h⟩ => Nat.succ.inj hi ▸ h⟩

/-- A line break is split just where its two bytes fall apart. -/
theorem splitsBreak_append_iff {front rest : Text} :
    SplitsBreak (front ++ rest) front.length ↔
      front.getLast? = some carriage ∧ rest.head? = some newline := by
  constructor
  · rintro ⟨i, hi, hreturn, hfeed⟩
    rw [← hi, getElem?_append_length] at hfeed
    rw [List.getElem?_append_left (by omega)] at hreturn
    refine ⟨?_, hfeed⟩
    rw [List.getLast?_eq_getElem?, hi, Nat.add_sub_cancel]
    exact hreturn
  · rintro ⟨hlast, hhead⟩
    obtain ⟨front, rfl⟩ := List.getLast?_eq_some_iff.1 hlast
    refine ⟨front.length, by simp, by simp, ?_⟩
    rw [← hhead, ← getElem?_append_length (front ++ [carriage]), List.length_append,
      List.length_singleton]

section Units
variable {lead : UInt8} {cont rest t : Text}

theorem units_le_two (code : Nat) : (units code).toNat ≤ 2 := by
  rw [units]
  split_ifs <;> decide

theorem units_pos (code : Nat) : 0 < (units code).toNat := by
  rw [units]
  split_ifs <;> decide

/-- A character has no more units than bytes. -/
theorem units_assemble_le (h : IsCharacter lead cont) :
    (units (assemble lead cont)).toNat ≤ cont.length + 1 := by
  cases cont with
  | nil =>
    have hcode : assemble lead [] = lead.toNat := by simp [assemble, h.length]
    have hlt : ¬ 0xFFFF < lead.toNat := by
      have := lead.toNat_lt
      omega
    simp [hcode, units, hlt]
  | cons c cont =>
    have := units_le_two (assemble lead (c :: cont))
    simp only [List.length_cons]
    omega

theorem unitLength_character (h : IsCharacter lead cont) :
    unitLength (lead :: (cont ++ rest)) = (units (assemble lead cont)).toNat + unitLength rest := by
  rw [unitLength, codes, runes_character h]
  rfl

theorem unitLength_le (ht : IsUtf8 t) : unitLength t ≤ t.length := by
  induction ht with
  | nil => exact Nat.le_refl 0
  | cons h _ ih =>
    have := units_assemble_le h
    rw [unitLength_character h, List.length_cons, List.length_append]
    omega

end Units

section Columns
variable {limit done : UInt32} {line rest t : Text}

theorem columnLength_skip (limit done : UInt32) {skip : Nat} (h : skip ≤ t.length) :
    columnLength limit done skip t = skip + columnLength limit done 0 (t.drop skip) := by
  induction skip generalizing t with
  | zero => simp
  | succ skip ih =>
    cases t with
    | nil => simp at h
    | cons b t =>
      rw [columnLength, ih (by simpa using h), List.drop_succ_cons]
      omega

theorem columnLength_of_le (h : limit ≤ done) : columnLength limit done 0 t = 0 := by
  cases t with
  | nil => rfl
  | cons b t => rw [columnLength, if_pos h]

/-- A column that is the length of a line is its end, if no line break is cut in two there. -/
theorem columnLength_line (hline : IsUtf8 line) (hn : newline ∉ line)
    (hbreak : ¬ (line.getLast? = some carriage ∧ rest.head? = some newline))
    (hlimit : done.toNat + unitLength line = limit.toNat) :
    columnLength limit done 0 (line ++ rest) = line.length := by
  induction hline generalizing done with
  | nil =>
    refine columnLength_of_le ?_
    rw [UInt32.le_iff_toNat_le, ← hlimit]
    exact Nat.le_refl _
  | @cons lead cont more h _ ih =>
    rw [unitLength_character h] at hlimit
    have hpos := units_pos (assemble lead cont)
    have hmax := limit.toNat_lt
    simp only [List.mem_cons, List.mem_append, not_or] at hn
    have hsum : (done + units (assemble lead cont)).toNat =
        done.toNat + (units (assemble lead cont)).toNat := by
      rw [UInt32.toNat_add, Nat.mod_eq_of_lt (by omega)]
    have hle : ¬ limit ≤ done := by
      rw [UInt32.le_iff_toNat_le]
      omega
    have hlt : ¬ limit < done + units (assemble lead cont) := by
      rw [UInt32.lt_iff_toNat_lt, hsum]
      omega
    have hfeed : ¬ (lead = newline ∨
        lead = carriage ∧ (cont ++ (more ++ rest)).head? = some newline) := by
      rintro (rfl | ⟨rfl, hhead⟩)
      · exact hn.1 rfl
      · cases cont with
        | cons c cont => exact hn.2.1 (by cases hhead; simp)
        | nil =>
          cases more with
          | cons c more => exact hn.2.2 (by cases hhead; simp)
          | nil => exact hbreak ⟨rfl, hhead⟩
    have hmore : columnLength limit (done + units (assemble lead cont)) 0 (more ++ rest) =
        more.length := by
      refine ih hn.2.2 (fun hlast => hbreak ⟨?_, hlast.2⟩) (by omega)
      rw [List.getLast?_cons, List.getLast?_append, hlast.1]
      rfl
    rw [List.cons_append, List.append_assoc, columnLength, if_neg hle, if_neg (by simpa using hfeed)]
    simp only [h.decode_append, if_neg hlt, Nat.add_sub_cancel]
    rw [columnLength_skip _ _ (by simp), List.drop_left, hmore]
    simp [Nat.add_assoc]

end Columns

section RoundTrip
variable {t : Text} {o : Nat}

/-- What follows whole lines is a text of its own. -/
theorem isUtf8_of_lines {before line : Text} (h : before = [] ∨ before.getLast? = some newline)
    (ht : IsUtf8 (before ++ line)) : IsUtf8 line := by
  rcases h with rfl | h
  · exact ht
  · obtain ⟨before, rfl⟩ := List.getLast?_eq_some_iff.1 h
    rw [List.append_assoc, List.singleton_append] at ht
    exact ht.of_append_cons (by decide)

theorem word_toNat {n : Nat} (h : n < 0x100000000) : (word n).toNat = n := by
  have hneg : ¬ (n : Int) < 0 := by omega
  rw [word, if_neg hneg, UInt32.toNat_ofNat', Int.toNat_natCast]
  omega

/-- The point at an offset leads back to the offset: the line is found by the line feeds before it,
and the column by the units of the characters between. -/
theorem offsetOf_pointAt (ht : IsUtf8 t) (hlen : t.length < 0x100000000) (ho : IsBoundary t o)
    (hbreak : ¬ SplitsBreak t o) : offsetOf t (pointAt t o) = o := by
  have hle := ho.1
  have hclamp : t.clamp o = o := by simp [clamp, hle]
  obtain ⟨before, line, htake, hrun⟩ := exists_isLastRun (· != newline) (t.take o)
  obtain ⟨hbefore, hn⟩ := isLastRun_line.1 hrun
  have hlength : before.length + line.length = o := by
    rw [← List.length_append, ← htake, List.length_take, Nat.min_eq_left hle]
  have hline : IsUtf8 line := isUtf8_of_lines hbefore (htake ▸ (ht.split ho).1)
  have hcr : ¬ (line.getLast? = some carriage ∧ (t.drop o).head? = some newline) := by
    rintro ⟨hlast, hhead⟩
    have hreturn : (t.take o).getLast? = some carriage := by
      rw [htake, List.getLast?_append, hlast, Option.some_or]
    have hsplits := splitsBreak_append_iff.2 ⟨hreturn, hhead⟩
    rw [List.take_append_drop, List.length_take_of_le hle] at hsplits
    exact hbreak hsplits
  have hcount : (before ++ line).count newline < 0x100000000 := by
    have := List.count_le_length (a := newline) (l := before ++ line)
    rw [List.length_append] at this
    omega
  have hunits : unitLength line < 0x100000000 := by
    have := unitLength_le hline
    omega
  rw [pointAt, hclamp, htake, lastLine_append hrun, offsetOf]
  simp only [word_toNat hcount]
  have hfrom : fromLine? ((before ++ line).count newline) t = some (line ++ t.drop o) := by
    rw [← htake, fromLine?_take, htake, lastLine_append hrun]
  rw [hfrom]
  have hcolumn : columnLength (word (unitLength line)) 0 0 (line ++ t.drop o) = line.length :=
    columnLength_line hline hn hcr (by rw [word_toNat hunits]; simp)
  simp only [hcolumn, List.length_append, List.length_drop]
  omega

end RoundTrip
end ScriptNav.Server
