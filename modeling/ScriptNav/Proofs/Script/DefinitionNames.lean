import ScriptNav.Proofs.Script.DefinitionSearch
import ScriptNav.Proofs.Script.References
import ScriptNav.Proofs.Text.Trim

/-! The name of a definition as a reference. The search for definitions reads over lines, and the
reference under a cursor is told by one line alone, so the name of a definition is read as a plain call
where its parameters open on its own line and no separator stands before it there. -/
namespace ScriptNav.Script

open Text

/-- The parameters of a definition at an offset open on the line of its name: no line feed is among
the blanks between them. -/
def OpensOnLine (t name : Text) (p : Nat) : Prop :=
  newline ∉ (t.drop (p + name.length)).takeWhile isSpace

instance (t name : Text) (p : Nat) : Decidable (OpensOnLine t name p) :=
  inferInstanceAs (Decidable (newline ∉ _))

section Definition
variable {t name params : Text} {p : Nat}

/-- A word stands byte by byte where it is found defined. -/
theorem IsWordText.definesAt {site : Site} (hname : IsWordText name)
    (h : definition? t name = some site) : DefinesAt t (· = name) site.offset site.params := by
  obtain ⟨hboundary, hdefines⟩ := (stops_of_definition? h).2
  have hcode : Utf8.replacement ∉ Utf8.codes name := by
    rw [Utf8.codes, runes_ascii fun b hb => lt_of_isWord (hname.2 b hb), List.map_map, List.mem_map]
    rintro ⟨b, -, hb⟩
    exact absurd hb (Nat.ne_of_lt (Nat.lt_trans b.toNat_lt (by decide)))
  have hutf8 : Utf8.IsUtf8 name := by
    obtain ⟨_, _, _, _, -, ⟨hutf8, -⟩, -⟩ := hdefines
    exact hutf8
  exact ⟨hboundary, (defines_readsAs_iff hutf8 (.inr hcode)).1 hdefines⟩

/-- The text around the name of a definition. -/
theorem DefinesAt.exists_append (h : DefinesAt t (· = name) p params) (hname : IsWordText name) :
    ∃ before gap rest, t = before ++ (name ++ (gap ++ openParen :: rest)) ∧ p = before.length ∧
      endsInWord before = false ∧ ∀ b ∈ gap, isSpace b = true := by
  obtain ⟨hboundary, _, gap, trail, rest, hdrop, rfl, hgap, -⟩ := h
  have hp : p ≤ t.length := by
    by_contra hlt
    rw [List.drop_eq_nil_of_le (by omega)] at hdrop
    exact hname.1 (List.append_eq_nil_iff.1 hdrop.symm).1
  have hbegins : beginsWithWord (t.drop p) = true := by
    obtain ⟨b, more, hcons⟩ := List.exists_cons_of_ne_nil hname.1
    rw [hdrop, hcons]
    exact hname.2 b (hcons ▸ List.mem_cons_self)
  rw [hbegins] at hboundary
  exact ⟨t.take p, gap, params ++ closeParen :: (trail ++ openBrace :: rest),
    by rw [← hdrop, List.take_append_drop], (List.length_take_of_le hp).symm,
    Bool.eq_false_iff.2 hboundary, hgap⟩

/-- The name of a definition is the identifier around its offset. -/
theorem DefinesAt.identifierRun (h : DefinesAt t (· = name) p params) (hname : IsWordText name) :
    IdentifierRun t p p (p + name.length : Nat) := by
  obtain ⟨before, gap, rest, rfl, rfl, hends, hgap⟩ := h.exists_append hname
  refine ⟨Int.le_refl _, by omega, by simp, ?_, fun b hb => ?_, fun b hb => ?_⟩
  · rw [← List.append_assoc, ← List.length_append, List.take_left, List.drop_left]
    exact hname.2
  · rw [List.take_left] at hb
    rwa [endsInWord, hb] at hends
  · rw [← List.append_assoc, ← List.length_append, List.drop_left] at hb
    cases gap with
    | nil =>
      cases hb
      decide
    | cons c gap =>
      cases hb
      exact (isWord_isSeparator_of_isSpace (hgap _ List.mem_cons_self)).1

/-- The parenthesis behind the name of a definition opens a call, if it stands on the same line. -/
theorem DefinesAt.callAfter (h : DefinesAt t (· = name) p params) (hname : IsWordText name)
    (hopens : OpensOnLine t name p) : CallAfter t (p + name.length) := by
  obtain ⟨before, gap, rest, rfl, rfl, -, hgap⟩ := h.exists_append hname
  have hrun : IsRun isSpace gap (openParen :: rest) := ⟨hgap, by rintro _ ⟨⟩; decide⟩
  have hdrop : (before ++ (name ++ (gap ++ openParen :: rest))).drop
      (before.length + name.length) = gap ++ openParen :: rest := by
    rw [← List.append_assoc, ← List.length_append, List.drop_left]
  rw [OpensOnLine, hdrop, hrun.takeWhile_eq] at hopens
  exact ⟨gap, rest, hdrop, hopens, hgap⟩

/-- Such a definition is read as a plain call of its name. -/
theorem DefinesAt.referenceAt_eq (h : DefinesAt t (· = name) p params) (hname : IsWordText name)
    (hopens : OpensOnLine t name p) (hbare : ¬ ∃ front, Separated t p front) :
    referenceAt t p = some ⟨name, [], .call, p, p + name.length⟩ := by
  have hrun := h.identifierRun hname
  have hcall := opensCall_firstLine_iff.2 (h.callAfter hname hopens)
  have hqualifier : qualifier? (lastLine (t.take p)) = none :=
    not_not.1 (mt exists_separated_iff.2 hbare)
  have hspan : (t.take (p + name.length)).drop p = name := by
    obtain ⟨before, gap, rest, rfl, rfl, -⟩ := h.exists_append hname
    rw [← List.append_assoc, ← List.length_append, List.take_left, List.drop_left]
  have hne : (p == p + name.length) = false := by
    have := List.length_pos_iff.2 hname.1
    rw [beq_eq_false_iff_ne]
    omega
  rw [hrun.referenceAt_eq, hqualifier, hcall, hspan, hne]
  rfl

end Definition
end ScriptNav.Script
