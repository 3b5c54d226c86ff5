import ScriptNav.Proofs.Text.Position

/-! Positions as offsets. The offset of a position is the beginning of its line and its column, at
most the end of the line, so the two conversions undo each other on the offsets and the columns that
lines have. The one exception is an offset between the two bytes of a line break, or behind a carriage
return that ends the text: it belongs to no column. -/
namespace ScriptNav.Text

/-- Line `n` of a text begins at an offset, since as many whole lines lie before it. -/
structure StartsLine (t : Text) (n start : Nat) : Prop where
  le : start ≤ t.length
  lines : AreLines n (t.take start)

/-- A sum that is no signed word any more is negative. -/
theorem wrap_of_le {n : Nat} (h : 0x8000000000000000 ≤ n) (hlt : n < 0x10000000000000000) :
    wrap n = n - 0x10000000000000000 := by
  rw [wrap, Int.bmod_def]
  split_ifs <;> omega

section Lines
variable {t : Text} {n start : Nat}

theorem StartsLine.fromLine?_eq (h : StartsLine t n start) : fromLine? n t = some (t.drop start) :=
  fromLine?_eq_some_iff.2 ⟨t.take start, (List.take_append_drop _ _).symm, h.lines⟩

/-- A line begins at one offset only. -/
theorem StartsLine.unique {other : Nat} (h : StartsLine t n start) (h' : StartsLine t n other) :
    start = other := by
  have hrest := congrArg List.length (Option.some.inj (h.fromLine?_eq.symm.trans h'.fromLine?_eq))
  have hle := h.le
  have hle' := h'.le
  rw [List.length_drop, List.length_drop] at hrest
  omega

theorem startsLine_append {before rest : Text} (h : AreLines n before) :
    StartsLine (before ++ rest) n before.length :=
  ⟨by simp, by rwa [List.take_left]⟩

/-- There is one more line than there are line feeds. -/
theorem exists_startsLine_iff : (∃ start, StartsLine t n start) ↔ n ≤ t.count newline := by
  constructor
  · rintro ⟨start, h⟩
    rw [← h.lines.count]
    exact (List.take_sublist start t).count_le newline
  · intro h
    obtain ⟨before, rest, rfl, hlines⟩ := exists_areLines h
    exact ⟨before.length, startsLine_append hlines⟩

theorem lineEnd_le (h : start ≤ t.length) : t.lineEnd start ≤ t.length := by
  have hle := (firstLine_isPrefix (t.drop start)).length_le
  rw [List.length_drop] at hle
  rw [lineEnd]
  omega

/-- The offset of a position on a line that is there. The sum is brought into a word before it is
compared with the end of the line. -/
theorem StartsLine.offsetAt_eq (h : StartsLine t n start) (c : Nat) :
    t.offsetAt ⟨n, c⟩ = min (wrap (start + c : Nat)) (t.lineEnd start) := by
  have hstart : t.length - (t.drop start).length = start := by
    have := h.le
    rw [List.length_drop]
    omega
  rw [offsetAt, if_neg (by simp)]
  simp only [Int.toNat_natCast, h.fromLine?_eq, hstart, lineEnd, Int.natCast_add]
  rw [Int.min_def]
  split_ifs <;> omega

/-- A column past the end of its line is the end of the line, if the sum is a word. -/
theorem StartsLine.offsetAt_of_lt (h : StartsLine t n start) {c : Nat}
    (hc : start + c < 0x8000000000000000) :
    t.offsetAt ⟨n, c⟩ = min (start + c) (t.lineEnd start) := by
  rw [h.offsetAt_eq, wrap_natCast hc]
  omega

/-- A column so far that the sum is no word lies before the text. -/
theorem StartsLine.offsetAt_of_le (h : StartsLine t n start) {c : Nat}
    (hc : 0x8000000000000000 ≤ start + c) (hlt : start + c < 0x10000000000000000) :
    t.offsetAt ⟨n, c⟩ = start + c - 0x10000000000000000 := by
  rw [h.offsetAt_eq, wrap_of_le hc hlt, Int.min_eq_left (by omega), Int.natCast_add]

theorem offsetAt_of_count_lt (h : t.count newline < n) (c : Nat) :
    t.offsetAt ⟨n, c⟩ = t.length := by
  rw [offsetAt, if_neg (by simp)]
  simp only [Int.toNat_natCast, fromLine?_eq_none_iff.2 h]

/-- The position at an offset, from the beginning of its line. -/
theorem StartsLine.positionAt_eq (h : StartsLine t n start) {c : Nat} (hc : start + c ≤ t.length)
    (hinside : newline ∉ (t.drop start).take c) : t.positionAt (start + c : Nat) = ⟨n, c⟩ := by
  have hclamp : t.clamp (start + c : Nat) = start + c := by
    rw [clamp, Int.toNat_natCast, Nat.min_eq_left hc]
  have hlength : ((t.drop start).take c).length = c := by
    rw [List.length_take, List.length_drop]
    omega
  rw [positionAt, hclamp, List.take_add, lastLine_append (isLastRun_line.2 ⟨h.lines.stop, hinside⟩),
    List.count_append, h.lines.count, List.count_eq_zero.2 hinside, hlength]
  rfl

end Lines

section RoundTrip
variable {t : Text} {n start o : Nat}

/-- A column that its line has is found again from its offset. -/
theorem StartsLine.positionAt_offsetAt (h : StartsLine t n start)
    (hlen : t.length < 0x8000000000000000) {c : Nat} (hc : c ≤ t.lineEnd start - start) :
    t.positionAt (t.offsetAt ⟨n, c⟩) = ⟨n, c⟩ := by
  have hstart : start ≤ t.lineEnd start := Nat.le_add_right _ _
  have hstop := lineEnd_le h.le
  have hpart : (t.drop start).take c <+: firstLine (t.drop start) := by
    refine List.prefix_of_prefix_length_le (List.take_prefix _ _) (firstLine_isPrefix _) ?_
    rw [lineEnd] at hc
    rw [List.length_take]
    omega
  rw [h.offsetAt_of_lt (by omega), Nat.min_eq_left (by omega)]
  exact h.positionAt_eq (by omega) fun hmem => newline_notMem_firstLine _ (hpart.subset hmem)

/-- The text around a carriage return that ends its line. -/
theorem FollowsReturn.exists_append (h : FollowsReturn t o) :
    ∃ before line rest, t = before ++ (line ++ carriage :: rest) ∧
      o = before.length + (line.length + 1) ∧ AreLines (before.count newline) before ∧
      newline ∉ line ∧ (rest = [] ∨ rest.head? = some newline) := by
  obtain ⟨i, rfl, hreturn, hnext⟩ := h
  obtain ⟨hi, hbyte⟩ := List.getElem?_eq_some_iff.1 hreturn
  obtain ⟨before, line, hfront, hrun⟩ := exists_isLastRun (· != newline) (t.take i)
  obtain ⟨hbefore, hline⟩ := isLastRun_line.1 hrun
  refine ⟨before, line, t.drop (i + 1), ?_, ?_, ⟨rfl, hbefore⟩, hline, ?_⟩
  · rw [← List.append_assoc, ← hfront, ← hbyte, ← List.drop_eq_getElem_cons hi,
      List.take_append_drop]
  · rw [← Nat.add_assoc, ← List.length_append, ← hfront, List.length_take_of_le (by omega)]
  · rw [List.head?_drop]
    exact hnext.imp_left fun hnone => List.drop_eq_nil_of_le (List.getElem?_eq_none_iff.1 hnone)

/-- Behind a carriage return that ends its line, the offset before the carriage return is found. -/
theorem FollowsReturn.offsetAt_positionAt (h : FollowsReturn t o)
    (hlen : t.length < 0x8000000000000000) : t.offsetAt (t.positionAt o) = o - 1 := by
  obtain ⟨before, line, rest, rfl, rfl, hlines, hline, hrest⟩ := h.exists_append
  have hstart : StartsLine (before ++ (line ++ carriage :: rest)) (before.count newline)
      before.length := startsLine_append hlines
  rw [List.length_append, List.length_append, List.length_cons] at hlen
  have hposition : positionAt (before ++ (line ++ carriage :: rest))
      (before.length + (line.length + 1) : Nat) =
        ⟨before.count newline, (line.length + 1 : Nat)⟩ := by
    refine hstart.positionAt_eq (by simp) ?_
    rw [List.drop_left, List.take_length_add_append, List.take_one, List.mem_append]
    exact not_or.2 ⟨hline, fun hmem => absurd (List.mem_singleton.1 hmem) (by decide)⟩
  have hend : lineEnd (before ++ (line ++ carriage :: rest)) before.length =
      before.length + line.length := by
    rw [lineEnd, List.drop_left, firstLine_append_return hline hrest]
  rw [hposition, hstart.offsetAt_of_lt (by omega), hend]
  omega

end RoundTrip

/-- Positions and offsets. The position at an offset leads back to the offset, or to the one before it
if a carriage return that ends its line lies between; and a position whose line is there and has its
column is found from its offset. -/
theorem positions_match_offsets {t : Text} (hlen : t.length < 0x8000000000000000) :
    (∀ o : Nat, o ≤ t.length →
      t.offsetAt (t.positionAt o) = if FollowsReturn t o then (o - 1 : Int) else o) ∧
    (∀ n, (∃ start, StartsLine t n start) ↔ n ≤ t.count newline) ∧
    ∀ n start c, StartsLine t n start → c ≤ t.lineEnd start - start →
      t.positionAt (t.offsetAt ⟨n, c⟩) = ⟨n, c⟩ := by
  refine ⟨fun o ho => ?_, fun n => exists_startsLine_iff, fun n start c h hc => ?_⟩
  · split_ifs with hreturn
    · exact hreturn.offsetAt_positionAt hlen
    · exact offsetAt_positionAt ho hlen hreturn
  · exact h.positionAt_offsetAt hlen hc

/-- Two carriage returns before a line feed, an empty line, and a carriage return at the end. -/
theorem positions_match_offsets_returns :
    let t := ofString "a\r\r\n\né\r"
    t.length < 0x8000000000000000 ∧
    ¬ FollowsReturn t 2 ∧ t.offsetAt (t.positionAt 2) = 2 ∧
    FollowsReturn t 3 ∧ t.offsetAt (t.positionAt 3) = 2 ∧
    FollowsReturn t 8 ∧ t.offsetAt (t.positionAt 8) = 7 ∧
    StartsLine t 2 5 ∧ t.lineEnd 5 - 5 = 2 ∧ t.positionAt (t.offsetAt ⟨2, 2⟩) = ⟨2, 2⟩ := by
  intro t
  have hlen : t.length < 0x8000000000000000 := by decide
  have hplain : ¬ FollowsReturn t 2 := by decide
  have hinner : FollowsReturn t 3 := by decide
  have hlast : FollowsReturn t 8 := by decide
  have hstart : StartsLine t 2 5 := ⟨by decide, by decide, .inr (by decide)⟩
  have hend : t.lineEnd 5 - 5 = 2 := by decide
  obtain ⟨hround, -, hback⟩ := positions_match_offsets hlen
  have hround₂ := hround 2 (by decide)
  have hround₃ := hround 3 (by decide)
  have hround₈ := hround 8 (by decide)
  rw [if_neg hplain] at hround₂
  rw [if_pos hinner] at hround₃
  rw [if_pos hlast] at hround₈
  exact ⟨hlen, hplain, hround₂, hinner, hround₃, hlast, hround₈, hstart, hend,
    hback 2 5 2 hstart hend.ge⟩

end ScriptNav.Text
