import ScriptNav.Proofs.Server.Edits

/-! Points as offsets, for every point that can be written down. A scan for a column stops between two
characters and never inside a line break, whatever its counter holds, so every point lies at an offset
where the text may be cut; further points lie at further offsets; and the points that lines really
have are found again from their offsets. -/
namespace ScriptNav.Server

open Text Utf8

section Columns
variable {limit limit' done : UInt32} {t : Text}

theorem columnLength_le (limit done : UInt32) (skip : Nat) (t : Text) :
    columnLength limit done skip t ≤ t.length := by
  fun_induction columnLength limit done skip t with
  | case1 => exact Nat.le_refl 0
  | case2 done skip b t ih => exact Nat.succ_le_succ ih
  | case3 | case4 | case5 => exact Nat.zero_le _
  | case6 done b t hlimit hbreak code width hdecode hnext ih => exact Nat.succ_le_succ ih

/-- Larger columns lie further, since both scans count alike until the first of them stops. -/
theorem columnLength_mono (h : limit ≤ limit') (done : UInt32) (skip : Nat) (t : Text) :
    columnLength limit done skip t ≤ columnLength limit' done skip t := by
  fun_induction columnLength limit done skip t with
  | case1 => exact Nat.zero_le _
  | case2 done skip b t ih => exact Nat.succ_le_succ ih
  | case3 | case4 | case5 => exact Nat.zero_le _
  | case6 done b t hlimit hbreak code width hdecode hnext ih =>
    have hlimit' : ¬ limit' ≤ done := fun hle => hlimit (UInt32.le_trans h hle)
    have hnext' : ¬ limit' < done + units code := fun hlt => hnext (UInt32.lt_of_le_of_lt h hlt)
    rw [columnLength, if_neg hlimit', if_neg hbreak]
    simp only [hdecode, if_neg hnext']
    exact Nat.succ_le_succ ih

/-- One step of a scan: it stops, or goes on behind what it has decoded, which lies in the text. -/
theorem columnLength_cons (limit done : UInt32) (b : UInt8) (t : Text) :
    columnLength limit done 0 (b :: t) =
      if limit ≤ done then 0
      else if b == newline || (b == carriage && t.head? == some newline) then 0
      else if limit < done + units (decode b t).1 then 0
      else (decode b t).2 +
        columnLength limit (done + units (decode b t).1) 0 ((b :: t).drop (decode b t).2) := by
  obtain ⟨width, hwidth⟩ := Nat.exists_eq_succ_of_ne_zero (decode_width_pos b t).ne'
  have hle := decode_width_le b t
  rw [columnLength]
  dsimp only
  rw [hwidth, Nat.succ_sub_one, columnLength_skip _ _ (by omega), Nat.succ_eq_add_one,
    List.drop_succ_cons, Nat.add_right_comm]

/-- A scan stops before a character, or goes on behind it unless a line break begins there. -/
theorem columnLength_character {lead : UInt8} {cont : Text} (h : IsCharacter lead cont)
    (rest : Text) (limit done : UInt32) :
    columnLength limit done 0 (lead :: (cont ++ rest)) = 0 ∨
    ¬ (lead = newline ∨ lead = carriage ∧ (cont ++ rest).head? = some newline) ∧
    columnLength limit done 0 (lead :: (cont ++ rest)) = (lead :: cont).length +
      columnLength limit (done + units (assemble lead cont)) 0 rest := by
  rw [columnLength_cons, h.decode_append]
  split_ifs with hlimit hbreak hnext
  · exact .inl rfl
  · exact .inl rfl
  · exact .inl rfl
  · refine .inr ⟨by simpa using hbreak, ?_⟩
    rw [List.drop_succ_cons, List.drop_left, List.length_cons]

/-- A part of a line and what follows it, cut neither inside a character nor inside a line
break. -/
structure IsColumn (front rest : Text) : Prop where
  utf8_front : IsUtf8 front
  utf8_rest : IsUtf8 rest
  line : newline ∉ front
  whole : ¬ (front.getLast? = some carriage ∧ rest.head? = some newline)

theorem isColumn_nil (ht : IsUtf8 t) : IsColumn [] t :=
  ⟨.nil, ht, List.not_mem_nil, fun h => nomatch h.1⟩

theorem IsColumn.cons {lead : UInt8} {cont front rest : Text} (h : IsColumn front rest)
    (hc : IsCharacter lead cont)
    (hbreak : ¬ (lead = newline ∨ lead = carriage ∧ (cont ++ (front ++ rest)).head? = some newline)) :
    IsColumn (lead :: (cont ++ front)) rest where
  utf8_front := .cons hc h.utf8_front
  utf8_rest := h.utf8_rest
  line := by
    simp only [List.mem_cons, List.mem_append, not_or]
    refine ⟨fun hlead => hbreak (.inl hlead.symm), fun hmem => ?_, h.line⟩
    exact absurd (hc.all_isContinuation _ hmem) (by decide)
  whole := by
    rintro ⟨hlast, hhead⟩
    rw [List.getLast?_cons, List.getLast?_append] at hlast
    cases hfront : front.getLast? with
    | some b =>
      rw [hfront] at hlast
      exact h.whole ⟨hfront.trans hlast, hhead⟩
    | none =>
      rw [hfront] at hlast
      obtain rfl := List.getLast?_eq_none_iff.1 hfront
      cases hcont : cont.getLast? with
      | some b =>
        rw [hcont] at hlast
        cases hlast
        exact absurd (hc.all_isContinuation _ (List.mem_of_getLast? hcont)) (by decide)
      | none =>
        rw [hcont] at hlast
        cases hlast
        obtain rfl := List.getLast?_eq_none_iff.1 hcont
        exact hbreak (.inr ⟨rfl, hhead⟩)

/-- Every column of a text ends at such a place, whichever number of units lies behind. -/
theorem exists_isColumn (ht : IsUtf8 t) (limit done : UInt32) :
    ∃ front rest, t = front ++ rest ∧ IsColumn front rest ∧
      columnLength limit done 0 t = front.length := by
  induction ht generalizing done with
  | nil => exact ⟨[], [], rfl, isColumn_nil .nil, rfl⟩
  | @cons lead cont rest h more ih =>
    obtain hstop | ⟨hbreak, hstep⟩ := columnLength_character h rest limit done
    · exact ⟨[], _, rfl, isColumn_nil (.cons h more), hstop⟩
    · obtain ⟨front, rest, rfl, hcolumn, hlength⟩ := ih (done + units (assemble lead cont))
      refine ⟨lead :: (cont ++ front), rest, by simp, hcolumn.cons h hbreak, ?_⟩
      rw [hstep, hlength, ← List.length_append, List.cons_append]

end Columns

section Offsets
variable {t before front rest : Text} {n : Nat} {p q : Point}

/-- A text is cut behind `n` lines and a part of the next one. -/
structure IsPlace (t : Text) (n : Nat) (before front rest : Text) : Prop where
  text : t = before ++ (front ++ rest)
  lines : AreLines n before
  column : IsColumn front rest

theorem IsPlace.isCut (h : IsPlace t n before front rest) : IsCut t (before ++ front).length := by
  rw [h.text, ← List.append_assoc]
  refine ⟨isBoundary_append h.column.utf8_rest.isContinuation_of_mem_head? _, ?_⟩
  rw [splitsBreak_append_iff, List.getLast?_append]
  rintro ⟨hlast, hhead⟩
  cases hfront : front.getLast? with
  | some b =>
    rw [hfront] at hlast
    exact h.column.whole ⟨hfront.trans hlast, hhead⟩
  | none =>
    rw [hfront, Option.none_or] at hlast
    rcases h.lines.stop with hnil | hfeed
    · rw [hnil] at hlast
      cases hlast
    · rw [hfeed] at hlast
      cases hlast

theorem offsetOf_append {line : Text} (h : AreLines p.line.toNat before) :
    offsetOf (before ++ line) p = before.length + columnLength p.character 0 0 line := by
  rw [offsetOf, fromLine?_eq_some_iff.2 ⟨before, rfl, h⟩]
  simp

theorem offsetOf_eq_length (h : t.count newline < p.line.toNat) : offsetOf t p = t.length := by
  rw [offsetOf, fromLine?_eq_none_iff.2 h]

theorem exists_isPlace (ht : IsUtf8 t) (h : p.line.toNat ≤ t.count newline) :
    ∃ before front rest, IsPlace t p.line.toNat before front rest ∧
      offsetOf t p = (before ++ front).length := by
  obtain ⟨before, line, rfl, hlines⟩ := exists_areLines h
  obtain ⟨front, rest, rfl, hcolumn, hlength⟩ :=
    exists_isColumn (isUtf8_of_lines hlines.stop ht) p.character 0
  refine ⟨before, front, rest, ⟨rfl, hlines, hcolumn⟩, ?_⟩
  rw [offsetOf_append hlines, hlength, List.length_append]

theorem offsetOf_le (t : Text) (p : Point) : offsetOf t p ≤ t.length := by
  rw [offsetOf]
  split
  · exact Nat.le_refl _
  · next rest hrest =>
    obtain ⟨before, rfl, -⟩ := fromLine?_eq_some_iff.1 hrest
    have := columnLength_le p.character 0 0 rest
    rw [List.length_append]
    omega

/-- As many line feeds lie before a point as its line says. -/
theorem count_take_offsetOf (ht : IsUtf8 t) (h : p.line.toNat ≤ t.count newline) :
    (t.take (offsetOf t p)).count newline = p.line.toNat := by
  obtain ⟨before, front, rest, hplace, hoffset⟩ := exists_isPlace ht h
  rw [hoffset, hplace.text, ← List.append_assoc, List.take_left, List.count_append,
    hplace.lines.count, List.count_eq_zero.2 hplace.column.line, Nat.add_zero]

/-- Every point lies at a cut of the text. -/
theorem isCut_offsetOf (ht : IsUtf8 t) (p : Point) : IsCut t (offsetOf t p) := by
  by_cases h : p.line.toNat ≤ t.count newline
  · obtain ⟨before, front, rest, hplace, hoffset⟩ := exists_isPlace ht h
    rw [hoffset]
    exact hplace.isCut
  · rw [offsetOf_eq_length (by omega)]
    refine ⟨⟨Nat.le_refl _, fun b hb => ?_⟩, ?_⟩
    · rw [List.getElem?_eq_none (Nat.le_refl _)] at hb
      cases hb
    · rintro ⟨i, hi, -, hfeed⟩
      rw [← hi, List.getElem?_eq_none (Nat.le_refl _)] at hfeed
      cases hfeed

/-- Points are ordered by their lines, and by their columns within a line. -/
instance : LE Point where
  le p q := p.line < q.line ∨ p.line = q.line ∧ p.character ≤ q.character

theorem offsetOf_mono (ht : IsUtf8 t) (h : p ≤ q) : offsetOf t p ≤ offsetOf t q := by
  rcases h with hline | ⟨hline, hcharacter⟩
  · rw [UInt32.lt_iff_toNat_lt] at hline
    by_cases hq : q.line.toNat ≤ t.count newline
    · -- Fewer line feeds lie before `p` than before `q`.
      have hp : p.line.toNat ≤ t.count newline := by omega
      by_contra hlt
      have hbefore : t.take (offsetOf t q) <+: t.take (offsetOf t p) :=
        List.take_prefix_take_left (by omega)
      have hcount := hbefore.sublist.count_le newline
      rw [count_take_offsetOf ht hp, count_take_offsetOf ht hq] at hcount
      omega
    · rw [offsetOf_eq_length (p := q) (by omega)]
      exact offsetOf_le t p
  · rw [offsetOf, offsetOf, hline]
    split
    · exact Nat.le_refl _
    · exact Nat.add_le_add_left (columnLength_mono hcharacter 0 0 _) _

end Offsets

section Lines
variable {t before line rest : Text} {n c : Nat} {p : Point}

/-- Line `n` of a text without its line break, between what lies before it and what follows. -/
structure IsLine (t : Text) (n : Nat) (before line rest : Text) : Prop where
  text : t = before ++ (line ++ rest)
  lines : AreLines n before
  inside : newline ∉ line
  stop : rest = [] ∨ rest.head? = some newline ∧ line.getLast? ≠ some carriage ∨
    [carriage, newline] <+: rest

/-- A character of two units begins one unit before a column of a line. -/
def SplitsPair (line : Text) (c : Nat) : Prop :=
  ∃ o < line.length, IsBoundary line o ∧ 0xFFFF < (codes (line.drop o)).headD 0 ∧
    c = unitLength (line.take o) + 1

instance (line : Text) (c : Nat) : Decidable (SplitsPair line c) :=
  inferInstanceAs (Decidable (∃ o < line.length, _))

/-- There is one more line than there are line feeds. -/
theorem exists_isLine_iff :
    (∃ before line rest, IsLine t n before line rest) ↔ n ≤ t.count newline := by
  constructor
  · rintro ⟨before, line, rest, h⟩
    rw [h.text, List.count_append, h.lines.count]
    exact Nat.le_add_right _ _
  · intro h
    obtain ⟨before, line, rfl, hlines⟩ := exists_areLines h
    obtain ⟨line, rest, rfl, hrun⟩ := exists_isRun (· != newline) line
    have hinside : newline ∉ line := fun hmem => by simpa using hrun.all newline hmem
    cases rest with
    | nil => exact ⟨before, line, [], rfl, hlines, hinside, .inl rfl⟩
    | cons b rest =>
      obtain rfl : b = newline := by simpa using hrun.stop b rfl
      by_cases hreturn : line.getLast? = some carriage
      · obtain ⟨line, rfl⟩ := List.getLast?_eq_some_iff.1 hreturn
        refine ⟨before, line, carriage :: newline :: rest, by simp, hlines, ?_, ?_⟩
        · exact fun hmem => hinside (List.mem_append_left _ hmem)
        · exact .inr (.inr ⟨rest, rfl⟩)
      · exact ⟨before, line, newline :: rest, rfl, hlines, hinside,
          .inr (.inl ⟨rfl, hreturn⟩)⟩

theorem IsLine.isUtf8 (h : IsLine t n before line rest) (ht : IsUtf8 t) : IsUtf8 line := by
  have hhead : ∀ b ∈ rest.head?, isContinuation b = false := by
    intro b hb
    rcases h.stop with hrest | ⟨hrest, -⟩ | ⟨more, hrest⟩
    · rw [hrest] at hb
      cases hb
    · rw [hrest] at hb
      cases hb
      decide
    · rw [← hrest] at hb
      cases hb
      decide
  have hline : IsUtf8 (line ++ rest) := isUtf8_of_lines h.lines.stop (h.text ▸ ht)
  have htake := (hline.split (isBoundary_append hhead line)).1
  rwa [List.take_left] at htake

/-- A line ends before its whole line break. -/
theorem IsLine.whole (h : IsLine t n before line rest) :
    ¬ (line.getLast? = some carriage ∧ rest.head? = some newline) := by
  rintro ⟨hlast, hhead⟩
  rcases h.stop with hrest | ⟨-, hreturn⟩ | ⟨more, hrest⟩
  · rw [hrest] at hhead
    cases hhead
  · exact hreturn hlast
  · rw [← hrest] at hhead
    cases hhead

theorem units_toNat_eq_two_iff {code : Nat} : (units code).toNat = 2 ↔ 0xFFFF < code := by
  rw [units]
  split_ifs with h
  · exact iff_of_true rfl h
  · exact iff_of_false (by decide) h

/-- A pair in what follows a character is a pair in the whole. -/
theorem SplitsPair.cons {lead : UInt8} {cont : Text} (h : SplitsPair rest c)
    (hc : IsCharacter lead cont) :
    SplitsPair (lead :: (cont ++ rest)) ((units (assemble lead cont)).toNat + c) := by
  obtain ⟨o, ho, hboundary, hwide, rfl⟩ := h
  have htext : lead :: (cont ++ rest) = (lead :: cont) ++ rest := rfl
  refine ⟨(lead :: cont).length + o, ?_, ⟨?_, fun b hb => ?_⟩, ?_, ?_⟩
  · rw [htext, List.length_append]
    omega
  · rw [htext, List.length_append]
    omega
  · rw [htext, List.getElem?_append_right (Nat.le_add_right _ _), Nat.add_sub_cancel_left] at hb
    exact hboundary.2 b hb
  · rwa [htext, List.drop_length_add_append]
  · rw [htext, List.take_length_add_append, List.cons_append, unitLength_character hc,
      Nat.add_assoc]

theorem splitsPair_one {lead : UInt8} {cont : Text} (hc : IsCharacter lead cont)
    (hrest : IsUtf8 rest) (hwide : (units (assemble lead cont)).toNat = 2) :
    SplitsPair (lead :: (cont ++ rest)) 1 := by
  have hhead := (IsUtf8.cons hc hrest).isContinuation_of_mem_head?
  refine ⟨0, Nat.succ_pos _, isBoundary_append hhead [], ?_, rfl⟩
  rw [List.drop_zero, codes, runes_character hc]
  exact units_toNat_eq_two_iff.1 hwide

/-- A column that splits no pair lies between two characters. -/
theorem exists_units_eq (hline : IsUtf8 line) (hc : c ≤ unitLength line)
    (hpair : ¬ SplitsPair line c) :
    ∃ front more, line = front ++ more ∧ IsUtf8 front ∧ unitLength front = c := by
  induction hline generalizing c with
  | nil => exact ⟨[], [], rfl, .nil, (Nat.le_zero.1 hc).symm⟩
  | @cons lead cont rest h more ih =>
    rw [unitLength_character h] at hc
    by_cases hlt : c < (units (assemble lead cont)).toNat
    · have htwo := units_le_two (assemble lead cont)
      have hzero : c = 0 := by
        by_contra hne
        obtain rfl : c = 1 := by omega
        exact hpair (splitsPair_one h more (by omega))
      exact ⟨[], _, rfl, .nil, hzero.symm⟩
    · obtain ⟨k, rfl⟩ := Nat.exists_eq_add_of_le (Nat.le_of_not_lt hlt)
      obtain ⟨front, tail, rfl, hfront, hunits⟩ :=
        ih (by omega) fun hsplits => hpair (hsplits.cons h)
      refine ⟨lead :: (cont ++ front), tail, by simp, .cons h hfront, ?_⟩
      rw [unitLength_character h, hunits]

theorem word_toNat_eq (w : UInt32) : word w.toNat = w :=
  UInt32.toNat_inj.1 (word_toNat w.toNat_lt)

/-- The point that an offset was found for is the point at the offset, if its line is there and long
enough. -/
theorem pointAt_offsetOf (ht : IsUtf8 t) (hline : IsLine t p.line.toNat before line rest)
    (hc : p.character.toNat ≤ unitLength line) (hpair : ¬ SplitsPair line p.character.toNat) :
    pointAt t (offsetOf t p) = p := by
  obtain ⟨front, more, rfl, hfront, hunits⟩ := exists_units_eq (hline.isUtf8 ht) hc hpair
  have hinside : newline ∉ front := fun hmem => hline.inside (List.mem_append_left _ hmem)
  have hbreak : ¬ (front.getLast? = some carriage ∧ (more ++ rest).head? = some newline) := by
    rintro ⟨hlast, hhead⟩
    cases more with
    | nil => exact hline.whole ⟨by rwa [List.append_nil], hhead⟩
    | cons b more =>
      cases hhead
      exact hline.inside (by simp)
  have htext : t = before ++ (front ++ (more ++ rest)) := by
    rw [hline.text, List.append_assoc]
  have hoffset : offsetOf t p = (before ++ front).length := by
    rw [htext, offsetOf_append hline.lines,
      columnLength_line hfront hinside hbreak (by simpa using hunits), List.length_append]
  have hrun : IsLastRun (· != newline) before front := isLastRun_line.2 ⟨hline.lines.stop, hinside⟩
  have hclamp : t.clamp (offsetOf t p) = offsetOf t p := by
    simp [clamp, offsetOf_le]
  have htake : t.take (offsetOf t p) = before ++ front := by
    rw [hoffset, htext, ← List.append_assoc, List.take_left]
  rw [pointAt, hclamp, htake, lastLine_append hrun, hunits, List.count_append, hline.lines.count,
    List.count_eq_zero.2 hinside, Nat.add_zero, word_toNat_eq, word_toNat_eq]

/-- Points and offsets. An offset inside no character and no line break is found from its point;
every point lies at such an offset; points further on lie at offsets further on; and a point whose
line is there, long enough and without a pair of units around it is found from its offset. -/
theorem points_match_offsets (ht : IsAddressable t) :
    (∀ o, IsCut t o → offsetOf t (pointAt t o) = o) ∧
    (∀ p, IsCut t (offsetOf t p)) ∧
    (∀ p q : Point, p ≤ q → offsetOf t p ≤ offsetOf t q) ∧
    (∀ n, (∃ before line rest, IsLine t n before line rest) ↔ n ≤ t.count newline) ∧
    ∀ (p : Point) (before line rest : Text), IsLine t p.line.toNat before line rest →
      p.character.toNat ≤ unitLength line → ¬ SplitsPair line p.character.toNat →
      pointAt t (offsetOf t p) = p := by
  refine ⟨fun o ho => ho.offsetOf_point ht, isCut_offsetOf ht.utf8, ?_, ?_, ?_⟩
  · exact fun p q hle => offsetOf_mono ht.utf8 hle
  · exact fun n => exists_isLine_iff
  · exact fun p before line rest hline hc hpair => pointAt_offsetOf ht.utf8 hline hc hpair

/-- A line with a pair of units and a line break of two bytes: the middle of the pair, a column behind
the end of the line, and the column behind the pair. -/
theorem points_match_offsets_pair :
    let t := ofString "é😀x\r\nfoo"
    let line := ofString "é😀x"
    IsAddressable t ∧ IsCut t 6 ∧ offsetOf t (pointAt t 6) = 6 ∧
    IsCut t (offsetOf t ⟨0, 2⟩) ∧
    (⟨0, 40⟩ : Point) ≤ ⟨1, 0⟩ ∧ offsetOf t ⟨0, 40⟩ ≤ offsetOf t ⟨1, 0⟩ ∧
    IsLine t 0 [] line (ofString "\r\nfoo") ∧ 3 ≤ unitLength line ∧ ¬ SplitsPair line 3 ∧
    pointAt t (offsetOf t ⟨0, 3⟩) = ⟨0, 3⟩ := by
  intro t line
  have ht : IsAddressable t := by decide
  have hcut : IsCut t 6 := by decide
  have hle : (⟨0, 40⟩ : Point) ≤ ⟨1, 0⟩ := .inl (by decide)
  have hline : IsLine t 0 [] line (ofString "\r\nfoo") :=
    ⟨by decide, ⟨rfl, .inl rfl⟩, by decide, .inr (.inr (by decide))⟩
  have hunits : 3 ≤ unitLength line := by decide
  have hpair : ¬ SplitsPair line 3 := by decide
  obtain ⟨hround, hcuts, hmono, -, hback⟩ := points_match_offsets ht
  exact ⟨ht, hcut, hround 6 hcut, hcuts _, hle, hmono _ _ hle, hline, hunits, hpair,
    hback ⟨0, 3⟩ [] line _ hline hunits hpair⟩

end Lines
end ScriptNav.Server
