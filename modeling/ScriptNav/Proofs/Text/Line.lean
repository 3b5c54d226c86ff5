import ScriptNav.Proofs.Text.Cut

/-! The first and the last line of a text. -/
namespace ScriptNav.Text

/-- What lies before the last line of a text is nothing, or ends in a line feed. -/
theorem isLastRun_line {before front : Text} :
    IsLastRun (· != newline) before front ↔
      (before = [] ∨ before.getLast? = some newline) ∧ newline ∉ front := by
  constructor
  · intro h
    refine ⟨?_, fun hn => by simpa using h.all _ hn⟩
    cases hb : before.getLast? with
    | none => exact .inl (List.getLast?_eq_none_iff.1 hb)
    | some b => exact .inr (by simpa using h.stop b hb)
  · rintro ⟨hbefore, hfront⟩
    refine ⟨fun b hb => bne_iff_ne.2 fun hn => hfront (hn ▸ hb), fun b hb => ?_⟩
    rcases hbefore with rfl | hbefore
    · cases hb
    · simpa [hbefore] using hb.symm

theorem lastLine_append {before front : Text} (h : IsLastRun (· != newline) before front) :
    lastLine (before ++ front) = front := by
  rw [lastLine, h.takeWhile_reverse_eq, List.reverse_reverse]

/-- What lies before the first line feed is the first line, and a carriage return at most. -/
theorem takeWhile_eq_firstLine (t : Text) :
    ∃ tail, t.takeWhile (· != newline) = firstLine t ++ tail ∧ (tail = [] ∨ tail = [carriage]) := by
  cases h : before? [carriage] (t.takeWhile (· != newline)) with
  | none => exact ⟨[], by simp [firstLine, h], .inl rfl⟩
  | some line =>
    refine ⟨[carriage], ?_, .inr rfl⟩
    rw [firstLine, h]
    exact before?_eq_some_iff.1 h

/-- Only a byte that stands alone is taken for the carriage return of its line. -/
theorem before?_return_cons (b : UInt8) (line : Text) :
    (before? [carriage] (b :: line)).getD (b :: line) =
      if b = carriage ∧ line = [] then [] else b :: (before? [carriage] line).getD line := by
  cases hline : before? [carriage] line with
  | some front =>
    obtain rfl := before?_eq_some_iff.1 hline
    have hbefore : before? [carriage] (b :: (front ++ [carriage])) = some (b :: front) :=
      before?_eq_some_iff.2 rfl
    rw [hbefore, if_neg (by simp), Option.getD_some, Option.getD_some]
  | none =>
    cases hbefore : before? [carriage] (b :: line) with
    | some front =>
      have hsplit := before?_eq_some_iff.1 hbefore
      cases front with
      | nil => rw [if_pos (List.cons.inj hsplit), Option.getD_some]
      | cons c front =>
        rw [before?_eq_some_iff.2 (List.cons.inj hsplit).2] at hline
        cases hline
    | none =>
      rw [if_neg, Option.getD_none, Option.getD_none]
      rintro ⟨rfl, rfl⟩
      cases hbefore

/-- A line by its first byte. -/
theorem firstLine_cons (b : UInt8) (t : Text) :
    firstLine (b :: t) =
      if b = newline ∨ b = carriage ∧ (t = [] ∨ t.head? = some newline) then []
      else b :: firstLine t := by
  by_cases hb : b = newline
  · rw [if_pos (.inl hb), hb]
    rfl
  have hline : (b :: t).takeWhile (· != newline) = b :: t.takeWhile (· != newline) :=
    List.takeWhile_cons_of_pos (bne_iff_ne.2 hb)
  have hempty : t.takeWhile (· != newline) = [] ↔ t = [] ∨ t.head? = some newline := by
    cases t <;> simp [List.takeWhile_cons]
  rw [firstLine, hline, before?_return_cons]
  simp only [hempty, hb, false_or, firstLine]

theorem firstLine_isPrefix (t : Text) : firstLine t <+: t := by
  induction t with
  | nil => exact List.nil_prefix
  | cons b t ih =>
    rw [firstLine_cons]
    split_ifs
    · exact List.nil_prefix
    · exact List.cons_prefix_cons.2 ⟨rfl, ih⟩

theorem newline_notMem_firstLine (t : Text) : newline ∉ firstLine t := by
  induction t with
  | nil => exact List.not_mem_nil
  | cons b t ih =>
    rw [firstLine_cons]
    split_ifs with h
    · exact List.not_mem_nil
    · rw [List.mem_cons]
      rintro (rfl | hmem)
      · exact h (.inl rfl)
      · exact ih hmem

/-- A carriage return at the end of a line is no part of it, whether or not a line feed follows. -/
theorem firstLine_append_return {line rest : Text} (hline : newline ∉ line)
    (hrest : rest = [] ∨ rest.head? = some newline) :
    firstLine (line ++ carriage :: rest) = line := by
  induction line with
  | nil => rw [List.nil_append, firstLine_cons, if_pos (.inr ⟨rfl, hrest⟩)]
  | cons b line ih =>
    obtain ⟨hb, hline⟩ := not_or.1 (mt List.mem_cons.2 hline)
    rw [List.cons_append, firstLine_cons, if_neg, ih hline]
    rintro (hfeed | ⟨-, hnil | hhead⟩)
    · exact hb hfeed.symm
    · simp at hnil
    · cases line with
      | nil => exact absurd (Option.some.inj hhead) (by decide)
      | cons c line =>
        cases hhead
        exact hline List.mem_cons_self

/-- The last line is found by counting the line feeds before it. -/
theorem fromLine?_count {before front : Text} (h : before = [] ∨ before.getLast? = some newline)
    (rest : Text) (hfront : newline ∉ front) :
    fromLine? ((before ++ front).count newline) (before ++ rest) = some rest := by
  rw [List.count_append, List.count_eq_zero.2 hfront, Nat.add_zero]
  induction before with
  | nil => simp [fromLine?]
  | cons b before ih =>
    have hbefore : before = [] ∨ before.getLast? = some newline := by
      cases before with
      | nil => exact .inl rfl
      | cons c before => simpa using h
    by_cases hb : b = newline
    · subst hb
      rw [List.count_cons_self, List.cons_append, fromLine?, if_pos (by decide)]
      exact ih hbefore
    · have hlast : before.getLast? = some newline := by
        rcases hbefore with rfl | hbefore
        · simp [hb] at h
        · exact hbefore
      obtain ⟨n, hn⟩ := Nat.exists_eq_succ_of_ne_zero
        (List.count_pos_iff.2 (List.mem_of_getLast? hlast)).ne'
      have hcount : (b :: before).count newline = n + 1 := by
        rw [List.count_cons_of_ne hb, hn]
      rw [hcount, List.cons_append, fromLine?, if_neg (by simpa using hb), ← Nat.succ_eq_add_one,
        ← hn]
      exact ih hbefore

/-- A text of `n` whole lines, each with its line feed. -/
structure AreLines (n : Nat) (t : Text) : Prop where
  count : t.count newline = n
  stop : t = [] ∨ t.getLast? = some newline

/-- A line is found behind as many whole lines as its number says. -/
theorem fromLine?_eq_some_iff {n : Nat} {t rest : Text} :
    fromLine? n t = some rest ↔ ∃ before, t = before ++ rest ∧ AreLines n before := by
  constructor
  · intro h
    fun_induction fromLine? n t with
    | case1 t => exact ⟨[], Option.some.inj h, rfl, .inl rfl⟩
    | case2 n => cases h
    | case3 n b t hb ih =>
      obtain ⟨before, rfl, hcount, hlast⟩ := ih h
      obtain rfl : b = newline := beq_iff_eq.1 hb
      refine ⟨newline :: before, rfl, by rw [List.count_cons_self, hcount], .inr ?_⟩
      rcases hlast with rfl | hlast
      · rfl
      · rw [List.getLast?_cons, hlast, Option.getD_some]
    | case4 n b t hb ih =>
      obtain ⟨before, rfl, hcount, hlast⟩ := ih h
      refine ⟨b :: before, rfl, ?_, .inr ?_⟩
      · rw [List.count_cons_of_ne (by simpa using hb), hcount]
      · rcases hlast with rfl | hlast
        · cases hcount
        · rw [List.getLast?_cons, hlast, Option.getD_some]
  · rintro ⟨before, rfl, rfl, hlast⟩
    simpa using fromLine?_count hlast rest List.not_mem_nil

theorem fromLine?_eq_none_iff {n : Nat} {t : Text} :
    fromLine? n t = none ↔ t.count newline < n := by
  fun_induction fromLine? n t with
  | case1 t => simp
  | case2 n => simp
  | case3 n b t hb ih =>
    obtain rfl : b = newline := beq_iff_eq.1 hb
    rw [ih, List.count_cons_self, Nat.add_lt_add_iff_right]
  | case4 n b t hb ih => rw [ih, List.count_cons_of_ne (by simpa using hb)]

/-- There is a line for each line feed, and the last one. -/
theorem exists_areLines {n : Nat} {t : Text} (h : n ≤ t.count newline) :
    ∃ before rest, t = before ++ rest ∧ AreLines n before := by
  obtain ⟨rest, hrest⟩ := Option.ne_none_iff_exists'.1
    (mt fromLine?_eq_none_iff.1 (Nat.not_lt.2 h))
  obtain ⟨before, ht, hbefore⟩ := fromLine?_eq_some_iff.1 hrest
  exact ⟨before, rest, ht, hbefore⟩

/-- The line that holds an offset is found by counting the line feeds before the offset. -/
theorem fromLine?_take (t : Text) (o : Nat) :
    fromLine? ((t.take o).count newline) t = some (lastLine (t.take o) ++ t.drop o) := by
  obtain ⟨before, line, htake, hrun⟩ := exists_isLastRun (· != newline) (t.take o)
  obtain ⟨hbefore, hn⟩ := isLastRun_line.1 hrun
  have htext : t = before ++ (line ++ t.drop o) := by
    rw [← List.append_assoc, ← htake, List.take_append_drop]
  rw [htake, lastLine_append hrun]
  conv_lhs => rw [htext]
  exact fromLine?_count hbefore _ hn

/-- The byte before an offset. -/
theorem exists_of_getLast?_take {t : Text} {o : Nat} {b : UInt8} (ho : o ≤ t.length)
    (h : (t.take o).getLast? = some b) : ∃ i, o = i + 1 ∧ t[i]? = some b := by
  obtain ⟨front, hfront⟩ := List.getLast?_eq_some_iff.1 h
  have hi : o = front.length + 1 := by
    rw [← List.length_take_of_le ho, hfront, List.length_append, List.length_singleton]
  have hbyte : (t.take o)[front.length]? = some b := by
    rw [hfront, List.getElem?_concat_length]
  rw [List.getElem?_take_of_lt (by omega)] at hbyte
  exact ⟨front.length, hi, hbyte⟩

theorem length_lastLine_le (t : Text) : (lastLine t).length ≤ t.length := by
  obtain ⟨before, line, rfl, hrun⟩ := exists_isLastRun (· != newline) t
  rw [lastLine_append hrun, List.length_append]
  omega

end ScriptNav.Text
