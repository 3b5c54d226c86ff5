import ScriptNav.Command.Section
import ScriptNav.Proofs.Text.Find

/-! The written section and the marks around it. The start mark and the end mark are looked for
independently of one another, so what a second run does depends on every mark that stands in the
text. A second run changes nothing just if the marks are paired; a stray end mark makes it add a
section once more, and a stray start mark makes it take away what stands behind that mark. -/
namespace ScriptNav.Command.Section

open Text

/-- Neither mark occurs. -/
def IsUnmarked (t : Text) : Prop := ¬ startMark <:+: t ∧ ¬ endMark <:+: t

instance (t : Text) : Decidable (IsUnmarked t) := inferInstanceAs (Decidable (_ ∧ _))

/-- Every end mark has a start mark before it, and if there is a start mark there is an end mark. -/
structure IsPaired (content : Text) : Prop where
  opened : ∀ front rest, content = front ++ endMark ++ rest → startMark <:+: front
  closed : startMark <:+: content → endMark <:+: content

section Marks
variable {mark front rest t : Text} (hmark : mark = startMark ∨ mark = endMark)
include hmark

theorem exists_mark_eq : ∃ tail, mark = hashSign :: tail ∧ hashSign ∉ tail ∧ newline ∉ tail := by
  obtain rfl | rfl := hmark
  · exact ⟨startMark.tail, by decide⟩
  · exact ⟨endMark.tail, by decide⟩

/-- Marks do not reach over the beginning of another mark, or over the end of a line. -/
theorem find?_append_apart {u v : Text} (hv : ∀ b ∈ v.head?, b = hashSign ∨ b = newline)
    (hu : ¬ mark <:+: u) : find? mark (u ++ v) = (find? mark v).map (Prod.map (u ++ ·) id) := by
  obtain ⟨tail, rfl, hhash, hnewline⟩ := exists_mark_eq hmark
  refine find?_append_of_none (fun b hb => ?_) (find?_eq_none_iff.2 hu)
  obtain rfl | rfl := hv b hb
  · exact hhash
  · exact hnewline

theorem not_infix_append {u v : Text} (hv : ∀ b ∈ v.head?, b = hashSign ∨ b = newline)
    (hu : ¬ mark <:+: u) (hmore : ¬ mark <:+: v) : ¬ mark <:+: u ++ v := by
  rw [← find?_eq_none_iff] at hmore ⊢
  rw [find?_append_apart hmark hv hu, hmore]
  rfl

/-- A mark is the first one, if it does not occur before. -/
theorem find?_append_mark {u : Text} (hu : ¬ mark <:+: u) (rest : Text) :
    find? mark (u ++ (mark ++ rest)) = some (u, rest) := by
  have hhead : ∀ b ∈ (mark ++ rest).head?, b = hashSign ∨ b = newline := by
    obtain ⟨tail, rfl, -⟩ := exists_mark_eq hmark
    rintro b ⟨⟩
    exact .inl rfl
  have hhere : find? mark (mark ++ rest) = some ([], rest) := by
    have hafter : after? mark (mark ++ rest) = some rest := after?_eq_some_iff.2 rfl
    obtain ⟨tail, rfl, -⟩ := exists_mark_eq hmark
    rw [List.cons_append, find?, ← List.cons_append, hafter]
  rw [find?_append_apart hmark hhead hu, hhere, Option.map_some, Prod.map_apply, List.append_nil]
  rfl

theorem not_infix_newline_cons (h : ¬ mark <:+: t) : ¬ mark <:+: newline :: t := by
  obtain ⟨tail, rfl, -⟩ := exists_mark_eq hmark
  rw [List.infix_cons_iff, not_or, List.cons_prefix_cons]
  exact ⟨fun hp => absurd hp.1 (by decide), h⟩

/-- Before the first occurrence of a mark the mark does not occur. -/
theorem not_infix_of_find? (h : find? mark t = some (front, rest)) : ¬ mark <:+: front := by
  intro hoccurs
  obtain ⟨first, more, hfirst⟩ := exists_find? hoccurs
  -- The mark would be found earlier in the whole text, too.
  have hfound := find?_append_of_some hfirst (mark ++ rest)
  rw [← List.append_assoc, ← eq_append_of_find? h, h, Option.some.injEq, Prod.mk.injEq] at hfound
  have hlen := congrArg List.length (eq_append_of_find? hfirst)
  obtain ⟨tail, rfl, -⟩ := exists_mark_eq hmark
  simp only [hfound.1, List.length_append, List.length_cons] at hlen
  omega

end Marks

/-- A section with the marks around it. -/
def enclose (body : Text) : Text := startMark ++ newline :: body ++ newline :: endMark

theorem generated_eq : generated = enclose body := by
  simp [generated, enclose, show ofString "\n" = [newline] by decide]

theorem isUnmarked_body : IsUnmarked body := by decide +kernel

section Enclosed
variable {content front body rest new : Text}

/-- The start mark of a section is the first one, if there is none before the section. -/
theorem find?_startMark_enclose (hfront : ¬ startMark <:+: front) (body rest : Text) :
    ∃ behind, find? startMark (front ++ enclose body ++ rest) = some (front, behind) := by
  have hfind := find?_append_mark (.inl rfl) hfront (newline :: body ++ newline :: endMark ++ rest)
  refine ⟨_, Eq.trans (congrArg _ ?_) hfind⟩
  simp only [enclose, List.append_assoc]

/-- The end mark of a section is the first one, if there is none before it. -/
theorem find?_endMark_enclose (hfront : ¬ endMark <:+: front) (hbody : ¬ endMark <:+: body)
    (rest : Text) :
    ∃ upToEnd, find? endMark (front ++ enclose body ++ rest) = some (upToEnd, rest) ∧
      front.length < upToEnd.length := by
  have hinside : ¬ endMark <:+: startMark ++ newline :: (body ++ [newline]) := by
    have hline : ¬ endMark <:+: body ++ [newline] :=
      not_infix_append (.inr rfl) (by rintro b ⟨⟩; exact .inr rfl) hbody (by decide)
    exact not_infix_append (.inr rfl) (by rintro b ⟨⟩; exact .inr rfl) (by decide)
      (not_infix_newline_cons (.inr rfl) hline)
  have hopen : ¬ endMark <:+: front ++ (startMark ++ newline :: (body ++ [newline])) :=
    not_infix_append (.inr rfl) (by rintro b ⟨⟩; exact .inl rfl) hfront hinside
  refine ⟨_, Eq.trans (congrArg _ ?_) (find?_append_mark (.inr rfl) hopen rest), ?_⟩
  · simp [enclose]
  · rw [List.length_append, List.length_append, List.length_cons]
    omega

/-- The marks of a text enclose a section, between `front` and `rest`. -/
structure IsEnclosed (content front rest : Text) : Prop where
  start : ∃ behind, find? startMark content = some (front, behind)
  stop : ∃ upToEnd, find? endMark content = some (upToEnd, rest) ∧ front.length < upToEnd.length

theorem IsEnclosed.apply_eq (h : IsEnclosed content front rest) (new : Text) :
    apply content new = front ++ new ++ rest := by
  obtain ⟨⟨behind, hstart⟩, upToEnd, hstop, hlt⟩ := h
  simp only [apply, hstart, hstop, Option.map_some, if_pos hlt]

/-- What stands before the section does not come to be enclosed by another one. -/
theorem IsEnclosed.isUnmarked (h : IsEnclosed content front rest) : IsUnmarked front := by
  obtain ⟨⟨behind, hstart⟩, upToEnd, hstop, hlt⟩ := h
  refine ⟨not_infix_of_find? (.inl rfl) hstart, fun hoccurs => ?_⟩
  obtain ⟨first, more, hfirst⟩ := exists_find? hoccurs
  have hfound := find?_append_of_some hfirst (startMark ++ behind)
  rw [← List.append_assoc, ← eq_append_of_find? hstart, hstop, Option.some.injEq,
    Prod.mk.injEq] at hfound
  have hlen := congrArg List.length (eq_append_of_find? hfirst)
  rw [hfound.1] at hlt
  simp only [List.length_append] at hlen
  omega

/-- What precedes a section that is added to a text. -/
def padded (content : Text) : Text :=
  if content.isEmpty then []
  else (if endsWith [newline] content then content else content ++ [newline]) ++ [newline]

theorem padded_eq_append (content : Text) :
    ∃ gap, padded content = content ++ gap ∧ ∀ b ∈ gap, b = newline := by
  rw [padded]
  split
  · next h => exact ⟨[], by rw [List.isEmpty_iff.1 h]; rfl, by simp⟩
  · split
    · exact ⟨[newline], rfl, by simp⟩
    · exact ⟨[newline, newline], by simp, by simp⟩

theorem length_le_length_padded (content : Text) : content.length ≤ (padded content).length := by
  obtain ⟨gap, hgap, -⟩ := padded_eq_append content
  rw [hgap, List.length_append]
  omega

/-- What makes room for a section completes no mark. -/
theorem not_infix_padded {mark : Text} (hmark : mark = startMark ∨ mark = endMark)
    (h : ¬ mark <:+: content) : ¬ mark <:+: padded content := by
  obtain ⟨gap, hgap, hnewline⟩ := padded_eq_append content
  rw [hgap]
  refine not_infix_append hmark (fun b hb => .inr (hnewline b (List.mem_of_mem_head? hb))) h ?_
  intro hoccurs
  obtain ⟨tail, rfl, -⟩ := exists_mark_eq hmark
  exact absurd (hnewline _ (hoccurs.subset List.mem_cons_self)) (by decide)

/-- A text whose marks enclose no section has one added. -/
theorem apply_of_not_isEnclosed (h : ∀ front rest, ¬ IsEnclosed content front rest) (new : Text) :
    apply content new = padded content ++ new ++ [newline] := by
  have hadded : (if content.isEmpty then new ++ [newline]
      else (if endsWith [newline] content then content else content ++ [newline]) ++
        newline :: new ++ [newline]) = padded content ++ new ++ [newline] := by
    rw [padded]
    split <;> simp
  rw [← hadded, apply]
  cases hstart : find? startMark content with
  | none => rfl
  | some found =>
    obtain ⟨front, behind⟩ := found
    cases hstop : find? endMark content with
    | none => rfl
    | some found =>
      obtain ⟨upToEnd, rest⟩ := found
      exact if_neg fun hlt => h front rest ⟨⟨behind, hstart⟩, upToEnd, hstop, hlt⟩

end Enclosed

section Paired
variable {content front body rest : Text}

theorem not_isEnclosed_of_isUnmarked (h : IsUnmarked content) (front rest : Text) :
    ¬ IsEnclosed content front rest := by
  rintro ⟨⟨behind, hstart⟩, -⟩
  rw [find?_eq_none_iff.2 h.1] at hstart
  cases hstart

theorem isEnclosed_enclose (hfront : IsUnmarked front) (hbody : IsUnmarked body) (rest : Text) :
    IsEnclosed (front ++ enclose body ++ rest) front rest :=
  ⟨find?_startMark_enclose hfront.1 body rest, find?_endMark_enclose hfront.2 hbody.2 rest⟩

/-- In a text whose marks enclose a section every end mark has a start mark before it. -/
theorem IsEnclosed.isPaired (h : IsEnclosed content front rest) : IsPaired content := by
  obtain ⟨⟨behind, hstart⟩, upToEnd, hstop, hlt⟩ := h
  have hfirst : startMark <:+: upToEnd := by
    by_contra hnot
    have hlater := find?_append_apart (v := endMark ++ rest) (.inl rfl)
      (by rintro b ⟨⟩; exact .inl rfl) hnot
    rw [← List.append_assoc, ← eq_append_of_find? hstop, hstart] at hlater
    obtain ⟨⟨more, _⟩, -, heq⟩ := Option.map_eq_some_iff.1 hlater.symm
    rw [Prod.map_apply, Prod.mk.injEq] at heq
    rw [← heq.1, List.length_append] at hlt
    omega
  refine ⟨fun u more hu => ?_, fun _ => ⟨upToEnd, rest, (eq_append_of_find? hstop).symm⟩⟩
  rw [List.append_assoc] at hu
  by_cases hoccurs : endMark <:+: u
  · obtain ⟨first, between, hfound⟩ := exists_find? hoccurs
    have hwhole := find?_append_of_some hfound (endMark ++ more)
    rw [← hu, hstop, Option.some.injEq, Prod.mk.injEq] at hwhole
    rw [eq_append_of_find? hfound, ← hwhole.1, List.append_assoc]
    exact hfirst.trans (List.prefix_append _ _).isInfix
  · have hwhole := find?_append_mark (.inr rfl) hoccurs more
    rw [← hu, hstop, Option.some.injEq, Prod.mk.injEq] at hwhole
    rwa [← hwhole.1]

theorem length_lt_of_find?_startMark {behind : Text}
    (h : find? startMark content = some (front, behind)) : front.length < content.length := by
  have hlen := congrArg List.length (eq_append_of_find? h)
  simp only [List.length_append, show startMark.length = 14 by decide] at hlen
  omega

theorem isPaired_iff :
    IsPaired content ↔ IsUnmarked content ∨ ∃ front rest, IsEnclosed content front rest := by
  constructor
  · intro h
    by_cases hend : endMark <:+: content
    · obtain ⟨upToEnd, rest, hstop⟩ := exists_find? hend
      have hcontent := eq_append_of_find? hstop
      obtain ⟨front, between, hfound⟩ := exists_find? (h.opened upToEnd rest hcontent)
      have hstart := find?_append_of_some hfound (endMark ++ rest)
      rw [← List.append_assoc, ← hcontent] at hstart
      exact .inr ⟨front, rest, ⟨_, hstart⟩, upToEnd, hstop, length_lt_of_find?_startMark hfound⟩
    · exact .inl ⟨mt h.closed hend, hend⟩
  · rintro (h | ⟨front, rest, h⟩)
    · refine ⟨fun front rest hcontent => ?_, fun hstart => absurd hstart h.1⟩
      exact absurd ⟨front, rest, hcontent.symm⟩ h.2
    · exact h.isPaired

/-- In a text with paired marks the last section that is written is the one that counts. -/
theorem apply_apply_of_isPaired (hcontent : IsPaired content) (hbody : IsUnmarked body)
    (new : Text) : apply (apply content (enclose body)) new = apply content new := by
  obtain h | ⟨front, rest, h⟩ := isPaired_iff.1 hcontent
  · have hpadded : IsUnmarked (padded content) :=
      ⟨not_infix_padded (.inl rfl) h.1, not_infix_padded (.inr rfl) h.2⟩
    have hnone := not_isEnclosed_of_isUnmarked h
    rw [apply_of_not_isEnclosed hnone, apply_of_not_isEnclosed hnone,
      (isEnclosed_enclose hpadded hbody [newline]).apply_eq]
  · rw [h.apply_eq, h.apply_eq, (isEnclosed_enclose h.isUnmarked hbody rest).apply_eq]

/-- Behind an end mark that closes nothing a section is added again and again. -/
theorem not_isEnclosed_added (hnone : ∀ front rest, ¬ IsEnclosed content front rest)
    (hend : endMark <:+: content) (front rest : Text) :
    ¬ IsEnclosed (padded content ++ enclose body ++ [newline]) front rest := by
  rintro ⟨⟨behind, hstart⟩, upToEnd, hstop, hlt⟩
  obtain ⟨gap, hgap, -⟩ := padded_eq_append content
  obtain ⟨first, more, hfirst⟩ := exists_find? hend
  have hadded (found : Text) : content ++ (gap ++ found) = padded content ++ found := by
    rw [hgap, List.append_assoc]
  have hstop' := find?_append_of_some hfirst (gap ++ (enclose body ++ [newline]))
  rw [hadded, ← List.append_assoc, hstop, Option.some.injEq, Prod.mk.injEq] at hstop'
  obtain ⟨rfl, -⟩ := hstop'
  by_cases hoccurs : startMark <:+: content
  · obtain ⟨other, between, hfound⟩ := exists_find? hoccurs
    have hstart' := find?_append_of_some hfound (gap ++ (enclose body ++ [newline]))
    rw [hadded, ← List.append_assoc, hstart, Option.some.injEq, Prod.mk.injEq] at hstart'
    obtain ⟨rfl, -⟩ := hstart'
    exact hnone _ _ ⟨⟨_, hfound⟩, _, hfirst, hlt⟩
  · obtain ⟨_, hstart'⟩ := find?_startMark_enclose (not_infix_padded (.inl rfl) hoccurs) body
      [newline]
    rw [hstart, Option.some.injEq, Prod.mk.injEq] at hstart'
    have hle := length_le_length_padded content
    have hlen := congrArg List.length (eq_append_of_find? hfirst)
    rw [hstart'.1] at hlt
    simp only [List.length_append] at hlen
    omega

/-- A start mark that opens nothing and the end mark of a section that is added enclose all between
them. -/
theorem isEnclosed_added {behind : Text} (hfound : find? startMark content = some (front, behind))
    (hend : ¬ endMark <:+: content) (hbody : IsUnmarked body) :
    IsEnclosed (padded content ++ enclose body ++ [newline]) front [newline] := by
  obtain ⟨gap, hgap, -⟩ := padded_eq_append content
  obtain ⟨upToEnd, hstop, hlt⟩ :=
    find?_endMark_enclose (not_infix_padded (.inr rfl) hend) hbody.2 [newline]
  refine ⟨?_, upToEnd, hstop, ?_⟩
  · rw [hgap, List.append_assoc, List.append_assoc]
    exact ⟨_, find?_append_of_some hfound _⟩
  · have hle := length_le_length_padded content
    have hlt' := length_lt_of_find?_startMark hfound
    omega

theorem apply_apply_ne_of_not_isPaired (hcontent : ¬ IsPaired content) (hbody : IsUnmarked body) :
    apply (apply content (enclose body)) (enclose body) ≠ apply content (enclose body) := by
  rw [isPaired_iff, not_or, not_exists] at hcontent
  obtain ⟨hmarked, hnone⟩ := hcontent
  replace hnone : ∀ front rest, ¬ IsEnclosed content front rest := fun front rest h =>
    hnone front ⟨rest, h⟩
  rw [apply_of_not_isEnclosed hnone]
  by_cases hend : endMark <:+: content
  · rw [apply_of_not_isEnclosed (not_isEnclosed_added hnone hend)]
    intro heq
    have hle := length_le_length_padded (padded content ++ enclose body ++ [newline])
    have hlen := congrArg List.length heq
    rw [List.length_append, List.length_append] at hlen
    simp only [List.length_singleton] at hlen
    omega
  · have hoccurs : startMark <:+: content := by
      by_contra hnot
      exact hmarked ⟨hnot, hend⟩
    obtain ⟨front, behind, hfound⟩ := exists_find? hoccurs
    rw [(isEnclosed_added hfound hend hbody).apply_eq]
    intro heq
    have hfront := List.append_cancel_right (List.append_cancel_right heq)
    have hlt := length_lt_of_find?_startMark hfound
    have hle := length_le_length_padded content
    rw [hfront] at hlt
    omega

/-- Writing the section twice is writing it once just if the marks of the text are paired. -/
theorem apply_generated_idempotent_iff (content : Text) :
    apply (apply content generated) generated = apply content generated ↔ IsPaired content := by
  rw [generated_eq]
  refine ⟨fun h => ?_, fun h => apply_apply_of_isPaired h isUnmarked_body _⟩
  by_contra hnot
  exact apply_apply_ne_of_not_isPaired hnot isUnmarked_body h

/-- An end mark alone has a section added by each run, and a start mark alone loses in the second run
what stands behind it. -/
theorem apply_generated_strayMarks :
    let unopened : Text := "# gscnav:end\n"
    let unclosed : Text := "# gscnav:start\nroots = []\n"
    apply (apply unopened generated) generated ≠ apply unopened generated ∧
    apply (apply unopened generated) generated =
      apply unopened generated ++ newline :: generated ++ [newline] ∧
    apply (apply unclosed generated) generated ≠ apply unclosed generated ∧
    apply (apply unclosed generated) generated = generated ++ [newline] := by
  decide +kernel

end Paired
end ScriptNav.Command.Section
