import ScriptNav.Proofs.Command.Section

/-! Updates of the written section. In a text with no marks, or with one start mark and one end mark
behind it, the section that is written last is the only one, and every other byte stays where it
is. -/
namespace ScriptNav.Command.Section

open Text

/-- The only marks of a text are a start mark and an end mark behind it. -/
structure HasOneSection (content front inside rest : Text) : Prop where
  eq_append : content = front ++ (startMark ++ inside ++ endMark) ++ rest
  one_startMark : occurrences startMark content = 1
  one_endMark : occurrences endMark content = 1

section Marks
variable {mark other front rest t u v : Text} (hmark : mark = startMark ∨ mark = endMark)
include hmark

theorem occurrences_append_apart (hv : ∀ b ∈ v.head?, b = hashSign ∨ b = newline) (u : Text) :
    occurrences mark (u ++ v) = occurrences mark u + occurrences mark v := by
  obtain ⟨tail, rfl, hhash, hnewline⟩ := exists_mark_eq hmark
  refine occurrences_append (List.cons_ne_nil _ _) (fun b hb => ?_) u
  obtain rfl | rfl := hv b hb
  · exact hhash
  · exact hnewline

/-- A mark begins with a hash sign, so none begins where there is no such sign. -/
theorem occurrences_append_of_notMem (hu : hashSign ∉ u) (v : Text) :
    occurrences mark (u ++ v) = occurrences mark v := by
  obtain ⟨tail, rfl, -⟩ := exists_mark_eq hmark
  induction u with
  | nil => rfl
  | cons b u ih =>
    obtain ⟨hb, hu⟩ := not_or.1 (mt List.mem_cons.2 hu)
    have hnone : ¬ hashSign :: tail <+: b :: (u ++ v) := fun hp => hb (List.cons_prefix_cons.1 hp).1
    rw [List.cons_append, occurrences_cons, if_neg hnone, ih hu, Nat.add_zero]

theorem prefix_append_mark_iff (hother : other = startMark ∨ other = endMark) (rest : Text) :
    mark <+: other ++ rest ↔ mark = other := by
  constructor
  · intro hp
    have hcompare := List.prefix_or_prefix_of_prefix hp (List.prefix_append other rest)
    obtain rfl | rfl := hmark <;> obtain rfl | rfl := hother
    · rfl
    · exact absurd hcompare (by decide)
    · exact absurd hcompare (by decide)
    · rfl
  · rintro rfl
    exact List.prefix_append _ _

/-- A mark holds itself once, and no mark besides. -/
theorem occurrences_mark_append (hother : other = startMark ∨ other = endMark) (rest : Text) :
    occurrences mark (other ++ rest) = occurrences mark rest + if mark = other then 1 else 0 := by
  have hbegins := prefix_append_mark_iff hmark hother rest
  obtain ⟨tail, rfl, hhash, -⟩ := exists_mark_eq hother
  rw [List.cons_append, occurrences_cons, occurrences_append_of_notMem hmark hhash,
    ← List.cons_append]
  simp only [hbegins]

theorem occurrences_append_mark (hother : other = startMark ∨ other = endMark) (u rest : Text) :
    occurrences mark (u ++ (other ++ rest)) =
      occurrences mark u + (occurrences mark rest + if mark = other then 1 else 0) := by
  have hhead : ∀ b ∈ (other ++ rest).head?, b = hashSign ∨ b = newline := by
    obtain ⟨tail, rfl, -⟩ := exists_mark_eq hother
    rintro b ⟨⟩
    exact .inl rfl
  rw [occurrences_append_apart hmark hhead, occurrences_mark_append hmark hother]

theorem occurrences_newline_cons (t : Text) :
    occurrences mark (newline :: t) = occurrences mark t :=
  occurrences_append_of_notMem hmark (u := [newline]) (by decide) t

/-- A section holds each mark once, if its body holds none. -/
theorem occurrences_enclose {body : Text} (hbody : IsUnmarked body) :
    occurrences mark (front ++ enclose body ++ rest) =
      occurrences mark front + occurrences mark rest + 1 := by
  have hnone : occurrences mark body = 0 := by
    obtain rfl | rfl := hmark
    · exact occurrences_eq_zero_iff.2 hbody.1
    · exact occurrences_eq_zero_iff.2 hbody.2
  have hline : occurrences mark (body ++ newline :: (endMark ++ rest)) =
      occurrences mark (endMark ++ rest) := by
    rw [occurrences_append_apart hmark (by rintro b ⟨⟩; exact .inr rfl), hnone, Nat.zero_add,
      occurrences_newline_cons hmark]
  have hmarks : (if mark = startMark then 1 else 0) + (if mark = endMark then 1 else 0) = 1 := by
    obtain rfl | rfl := hmark <;> decide
  have hsplit : front ++ enclose body ++ rest =
      front ++ (startMark ++ (newline :: (body ++ newline :: (endMark ++ rest)))) := by
    simp [enclose]
  rw [hsplit, occurrences_append_mark hmark (.inl rfl), occurrences_newline_cons hmark, hline,
    occurrences_mark_append hmark (.inr rfl)]
  omega

/-- A mark that stands in a text once is the first one, and no other one follows. -/
theorem find?_of_occurrences_eq_one (h : occurrences mark (u ++ (mark ++ rest)) = 1) :
    find? mark (u ++ (mark ++ rest)) = some (u, rest) ∧ occurrences mark rest = 0 := by
  rw [occurrences_append_mark hmark hmark, if_pos rfl] at h
  have hfront : occurrences mark u = 0 := by omega
  exact ⟨find?_append_mark hmark (occurrences_eq_zero_iff.1 hfront) rest, by omega⟩

end Marks

section Updates
variable {content front inside rest body old new : Text}

namespace HasOneSection

theorem find?_startMark (h : HasOneSection content front inside rest) :
    find? startMark content = some (front, inside ++ endMark ++ rest) ∧
      occurrences startMark (inside ++ endMark ++ rest) = 0 := by
  have hcontent : content = front ++ (startMark ++ (inside ++ endMark ++ rest)) := by
    simp [h.eq_append]
  have hone := h.one_startMark
  rw [hcontent] at hone ⊢
  exact find?_of_occurrences_eq_one (.inl rfl) hone

theorem find?_endMark (h : HasOneSection content front inside rest) :
    find? endMark content = some (front ++ startMark ++ inside, rest) ∧
      occurrences endMark rest = 0 := by
  have hcontent : content = front ++ startMark ++ inside ++ (endMark ++ rest) := by
    simp [h.eq_append]
  have hone := h.one_endMark
  rw [hcontent] at hone ⊢
  exact find?_of_occurrences_eq_one (.inr rfl) hone

theorem isEnclosed (h : HasOneSection content front inside rest) :
    IsEnclosed content front rest := by
  refine ⟨⟨_, h.find?_startMark.1⟩, _, h.find?_endMark.1, ?_⟩
  simp only [List.length_append, show startMark.length = 14 by decide]
  omega

theorem isUnmarked_rest (h : HasOneSection content front inside rest) : IsUnmarked rest := by
  refine ⟨fun hoccurs => ?_, occurrences_eq_zero_iff.1 h.find?_endMark.2⟩
  refine occurrences_eq_zero_iff.1 h.find?_startMark.2 (hoccurs.trans ?_)
  exact (List.suffix_append _ _).isInfix

/-- The section of a text is found in one place. -/
theorem inside_eq {front' inside' rest' : Text} (h : HasOneSection content front inside rest)
    (h' : HasOneSection content front' inside' rest') : inside = inside' := by
  have hstart := h.find?_startMark.1.symm.trans h'.find?_startMark.1
  have hstop := h.find?_endMark.1.symm.trans h'.find?_endMark.1
  simp only [Option.some.injEq, Prod.mk.injEq] at hstart hstop
  rw [hstart.1] at hstop
  exact List.append_cancel_left hstop.1

end HasOneSection

/-- A section between texts without marks is the only one. -/
theorem hasOneSection_enclose (hfront : IsUnmarked front) (hbody : IsUnmarked body)
    (hrest : IsUnmarked rest) :
    HasOneSection (front ++ enclose body ++ rest) front (newline :: body ++ [newline]) rest := by
  refine ⟨by simp [enclose], ?_, ?_⟩
  · rw [occurrences_enclose (.inl rfl) hbody, occurrences_eq_zero_iff.2 hfront.1,
      occurrences_eq_zero_iff.2 hrest.1]
  · rw [occurrences_enclose (.inr rfl) hbody, occurrences_eq_zero_iff.2 hfront.2,
      occurrences_eq_zero_iff.2 hrest.2]

theorem isUnmarked_padded (h : IsUnmarked content) : IsUnmarked (padded content) :=
  ⟨not_infix_padded (.inl rfl) h.1, not_infix_padded (.inr rfl) h.2⟩

/-- After an update the new section is the only one. -/
theorem hasOneSection_apply
    (h : IsUnmarked content ∨ ∃ front inside rest, HasOneSection content front inside rest)
    (hnew : IsUnmarked new) :
    ∃ front rest,
      HasOneSection (apply content (enclose new)) front (newline :: new ++ [newline]) rest := by
  obtain h | ⟨front, inside, rest, h⟩ := h
  · rw [apply_of_not_isEnclosed (not_isEnclosed_of_isUnmarked h)]
    exact ⟨_, _, hasOneSection_enclose (isUnmarked_padded h) hnew (by decide)⟩
  · rw [h.isEnclosed.apply_eq]
    exact ⟨_, _, hasOneSection_enclose h.isEnclosed.isUnmarked hnew h.isUnmarked_rest⟩

/-- In a text with one section or none, the section that is written last counts and is the only one;
it takes the place of the old one, or stands behind all of the text. -/
theorem apply_lastSection_wins
    (hcontent : IsUnmarked content ∨ ∃ front inside rest, HasOneSection content front inside rest)
    (hold : IsUnmarked old) (hnew : IsUnmarked new) :
    apply (apply content (enclose old)) (enclose new) = apply content (enclose new) ∧
    (∃ front inside rest, HasOneSection (apply content (enclose new)) front inside rest) ∧
    (∀ front inside rest, HasOneSection (apply content (enclose new)) front inside rest →
      startMark ++ inside ++ endMark = enclose new) ∧
    (∀ front inside rest, HasOneSection content front inside rest →
      apply content (enclose new) = front ++ enclose new ++ rest) ∧
    (IsUnmarked content → content <+: apply content (enclose new)) := by
  have hpaired : IsPaired content := isPaired_iff.2 <| hcontent.imp_right
    fun ⟨front, _, rest, h⟩ => ⟨front, rest, h.isEnclosed⟩
  obtain ⟨front, rest, hone⟩ := hasOneSection_apply hcontent hnew
  refine ⟨apply_apply_of_isPaired hpaired hold _, ⟨front, _, rest, hone⟩, ?_, ?_, ?_⟩
  · intro front' inside' rest' hone'
    rw [hone'.inside_eq hone]
    simp [enclose]
  · intro front inside rest h
    exact h.isEnclosed.apply_eq _
  · intro h
    obtain ⟨gap, hgap, -⟩ := padded_eq_append content
    rw [apply_of_not_isEnclosed (not_isEnclosed_of_isUnmarked h), hgap, List.append_assoc,
      List.append_assoc]
    exact List.prefix_append _ _

/-- A section between settings is written anew: the texts around it end and begin with parts of
marks. -/
theorem apply_lastSection_wins_halfMarks :
    let front : Text := "x = 1\n# gscnav:"
    let rest : Text := "start # gscnav:"
    let content := front ++ (startMark ++ ofString "roots = []" ++ endMark) ++ rest
    HasOneSection content front (ofString "roots = []") rest ∧
    apply (apply content (enclose "a = 1")) (enclose "b = 2") = front ++ enclose "b = 2" ++ rest := by
  intro front rest content
  have hone : HasOneSection content front (ofString "roots = []") rest :=
    ⟨rfl, by decide +kernel, by decide +kernel⟩
  have hold : IsUnmarked "a = 1" := by decide
  have hnew : IsUnmarked "b = 2" := by decide
  obtain ⟨hlast, -, -, hplace, -⟩ := apply_lastSection_wins (.inr ⟨_, _, _, hone⟩) hold hnew
  exact ⟨hone, hlast.trans (hplace _ _ _ hone)⟩

end Updates
end ScriptNav.Command.Section
