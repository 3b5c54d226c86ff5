import ScriptNav.Proofs.Text.Cut

/-! The first occurrence of a pattern in a text. What follows a text does not change where the pattern
is first found in it; and where it is not found, no occurrence reaches into what follows, if that
begins with a byte that does not go on the pattern. The occurrences of a text and of such a text that
follows it are then counted one by one. -/
namespace ScriptNav.Text

variable {pattern t u front rest : Text}

theorem after?_eq_none_iff : after? pattern t = none ↔ ¬ pattern <+: t := by
  rw [← Option.not_isSome_iff_eq_none, not_iff_not, Option.isSome_iff_exists]
  simp only [after?_eq_some_iff]
  exact ⟨fun ⟨rest, h⟩ => ⟨rest, h.symm⟩, fun ⟨rest, h⟩ => ⟨rest, h.symm⟩⟩

theorem eq_append_of_find? (h : find? pattern t = some (front, rest)) :
    t = front ++ pattern ++ rest := by
  induction t generalizing front with
  | nil =>
    rw [find?] at h
    split at h
    · next hp =>
      cases h
      rw [List.isEmpty_iff.1 hp]
      rfl
    · cases h
  | cons b t ih =>
    rw [find?] at h
    split at h
    · next hafter =>
      cases h
      exact after?_eq_some_iff.1 hafter
    · obtain ⟨⟨front, rest⟩, hfound, heq⟩ := Option.map_eq_some_iff.1 h
      cases heq
      rw [ih hfound]
      rfl

theorem find?_eq_none_iff : find? pattern t = none ↔ ¬ pattern <:+: t := by
  induction t with
  | nil => simp [find?]
  | cons b t ih =>
    rw [find?, List.infix_cons_iff, not_or, ← ih, ← after?_eq_none_iff]
    cases after? pattern (b :: t) <;> simp

theorem exists_find? (h : pattern <:+: t) : ∃ front rest, find? pattern t = some (front, rest) := by
  obtain ⟨⟨front, rest⟩, hfound⟩ := Option.ne_none_iff_exists'.1 (mt find?_eq_none_iff.1 (not_not.2 h))
  exact ⟨front, rest, hfound⟩

theorem find?_append_of_some (h : find? pattern u = some (front, rest)) (v : Text) :
    find? pattern (u ++ v) = some (front, rest ++ v) := by
  induction u generalizing front with
  | nil =>
    rw [find?] at h
    split at h
    · next hp =>
      cases h
      rw [List.isEmpty_iff.1 hp]
      cases v <;> rfl
    · cases h
  | cons b u ih =>
    rw [find?] at h
    rw [List.cons_append, find?]
    cases hafter : after? pattern (b :: u) with
    | some more =>
      rw [hafter] at h
      cases h
      have hmore : after? pattern (b :: (u ++ v)) = some (rest ++ v) := by
        rw [after?_eq_some_iff, ← List.append_assoc, ← after?_eq_some_iff.1 hafter]
        rfl
      rw [hmore]
    | none =>
      rw [hafter] at h
      obtain ⟨⟨front, rest⟩, hfound, heq⟩ := Option.map_eq_some_iff.1 h
      cases heq
      -- A pattern that is found later in `u` ends in it, so it is no longer than `u`.
      have hlen := congrArg List.length (eq_append_of_find? hfound)
      simp only [List.length_append] at hlen
      have hnone : after? pattern (b :: (u ++ v)) = none := by
        rw [after?_eq_none_iff] at hafter ⊢
        refine fun hp => hafter (List.prefix_of_prefix_length_le hp (List.prefix_append (b :: u) v) ?_)
        rw [List.length_cons]
        omega
      rw [hnone, ih hfound]
      rfl

/-- A pattern does not begin before a byte that does not go on it and end behind that byte. -/
theorem prefix_cons_append_iff {v : Text} (hv : ∀ b ∈ v.head?, b ∉ pattern.tail) {b : UInt8} :
    pattern <+: b :: (u ++ v) ↔ pattern <+: b :: u := by
  refine ⟨fun hp => ?_, fun hp => hp.trans (List.prefix_append (b :: u) v)⟩
  obtain hp' | ⟨more, rfl⟩ := List.prefix_or_prefix_of_prefix hp (List.prefix_append (b :: u) v)
  · exact hp'
  · cases more with
    | nil => simp
    | cons c more =>
      obtain ⟨rest, hrest⟩ := (List.prefix_append_right_inj (b :: u)).1 hp
      exact absurd (List.mem_append_right u List.mem_cons_self) (hv c (by rw [← hrest]; rfl))

/-- Before a byte that does not go on the pattern every occurrence has ended. -/
theorem find?_append_of_none {v : Text} (hv : ∀ b ∈ v.head?, b ∉ pattern.tail)
    (h : find? pattern u = none) :
    find? pattern (u ++ v) = (find? pattern v).map (Prod.map (u ++ ·) id) := by
  induction u with
  | nil =>
    rw [List.nil_append]
    cases find? pattern v <;> rfl
  | cons b u ih =>
    rw [find?_eq_none_iff, List.infix_cons_iff, not_or, ← find?_eq_none_iff] at h
    have hnone : after? pattern (b :: (u ++ v)) = none := by
      rw [after?_eq_none_iff, prefix_cons_append_iff hv]
      exact h.1
    rw [List.cons_append, find?, hnone, ih h.2, Option.map_map]
    rfl

section Occurrences
variable {v : Text}

/-- How many occurrences of a pattern a text holds. -/
def occurrences (pattern t : Text) : Nat := t.tails.countP (startsWith pattern)

theorem occurrences_cons (pattern : Text) (b : UInt8) (t : Text) :
    occurrences pattern (b :: t) =
      occurrences pattern t + if pattern <+: b :: t then 1 else 0 := by
  rw [occurrences, List.tails, List.countP_cons, ← occurrences]
  simp only [startsWith, List.isPrefixOf_iff_prefix]

theorem occurrences_eq_zero_iff : occurrences pattern t = 0 ↔ ¬ pattern <:+: t := by
  induction t with
  | nil => simp [occurrences, startsWith, List.isPrefixOf_iff_prefix]
  | cons b t ih =>
    rw [occurrences_cons, Nat.add_eq_zero_iff, ih, List.infix_cons_iff, not_or, and_comm]
    simp

/-- No occurrence reaches over a byte that does not go on the pattern. -/
theorem occurrences_append (hne : pattern ≠ []) (hv : ∀ b ∈ v.head?, b ∉ pattern.tail) (u : Text) :
    occurrences pattern (u ++ v) = occurrences pattern u + occurrences pattern v := by
  induction u with
  | nil =>
    have hnil : occurrences pattern [] = 0 := occurrences_eq_zero_iff.2 (by simpa using hne)
    rw [hnil, List.nil_append, Nat.zero_add]
  | cons b u ih =>
    have hbegins : pattern <+: b :: (u ++ v) ↔ pattern <+: b :: u :=
      prefix_cons_append_iff hv
    rw [List.cons_append, occurrences_cons, occurrences_cons, ih]
    simp only [hbegins]
    omega

end Occurrences
end ScriptNav.Text
