import ScriptNav.Proofs.Server.Points

/-! Edits of a text between two offsets. An edit is told as a whole text or as the range between the
points at its offsets, and both ways lead to the text that was meant. -/
namespace ScriptNav.Server

open Text Utf8

/-- A text whose offsets all have points of their own. -/
structure IsAddressable (t : Text) : Prop where
  utf8 : IsUtf8 t
  short : t.length < 0x100000000

instance (t : Text) : Decidable (IsAddressable t) :=
  decidable_of_iff (IsUtf8 t ∧ t.length < 0x100000000) ⟨fun h => ⟨h.1, h.2⟩, fun h => ⟨h.1, h.2⟩⟩

/-- An offset inside no character and no line break. -/
structure IsCut (t : Text) (o : Nat) : Prop where
  boundary : IsBoundary t o
  whole : ¬ SplitsBreak t o

instance (t : Text) (o : Nat) : Decidable (IsCut t o) :=
  decidable_of_iff (IsBoundary t o ∧ ¬ SplitsBreak t o) ⟨fun h => ⟨h.1, h.2⟩, fun h => ⟨h.1, h.2⟩⟩

theorem IsCut.offsetOf_point {t : Text} {o : Nat} (h : IsCut t o) (ht : IsAddressable t) :
    offsetOf t (pointAt t o) = o :=
  offsetOf_pointAt ht.utf8 ht.short h.boundary h.whole

/-- A new text in place of what lies between two offsets, and whether the whole text is told. -/
structure Edit where
  start : Nat
  stop : Nat
  text : Text
  isWhole : Bool

namespace Edit

def apply (t : Text) (e : Edit) : Text := t.take e.start ++ e.text ++ t.drop e.stop

/-- How an edit of a text is told. -/
def toChange (t : Text) (e : Edit) : Change :=
  if e.isWhole then ⟨none, e.apply t⟩ else ⟨some (rangeBetween t e.start e.stop), e.text⟩

/-- An edit that cuts a text at two offsets, and leaves a text that is not too long. -/
structure Fits (t : Text) (e : Edit) : Prop where
  le : e.start ≤ e.stop
  start : IsCut t e.start
  stop : IsCut t e.stop
  utf8 : IsUtf8 e.text
  short : (e.apply t).length < 0x100000000

instance (t : Text) (e : Edit) : Decidable (e.Fits t) :=
  decidable_of_iff (e.start ≤ e.stop ∧ IsCut t e.start ∧ IsCut t e.stop ∧ IsUtf8 e.text ∧
      (e.apply t).length < 0x100000000)
    ⟨fun ⟨le, start, stop, utf8, short⟩ => ⟨le, start, stop, utf8, short⟩,
      fun ⟨le, start, stop, utf8, short⟩ => ⟨le, start, stop, utf8, short⟩⟩

/-- The text after edits, each made on what the one before it left. -/
def applyAll (t : Text) (es : List Edit) : Text := es.foldl apply t

/-- How edits are told, each about what the one before it left. -/
def toChanges : Text → List Edit → List Change
  | _, [] => []
  | t, e :: es => e.toChange t :: toChanges (e.apply t) es

/-- Edits that fit one after another. -/
def FitAll : Text → List Edit → Prop
  | _, [] => True
  | t, e :: es => e.Fits t ∧ FitAll (e.apply t) es

instance decidableFitAll : (t : Text) → (es : List Edit) → Decidable (FitAll t es)
  | _, [] => inferInstanceAs (Decidable True)
  | t, e :: es =>
    have := decidableFitAll (e.apply t) es
    inferInstanceAs (Decidable (e.Fits t ∧ FitAll (e.apply t) es))

variable {t : Text} {e : Edit} {es : List Edit}

theorem Fits.isAddressable (h : e.Fits t) (ht : IsAddressable t) : IsAddressable (e.apply t) where
  utf8 := ((ht.utf8.split h.start.boundary).1.append h.utf8).append (ht.utf8.split h.stop.boundary).2
  short := h.short

/-- What is told of an edit makes the same text of the text it is about. -/
theorem Fits.apply_toChange (h : e.Fits t) (ht : IsAddressable t) :
    Change.apply t (e.toChange t) = e.apply t := by
  by_cases hwhole : e.isWhole = true
  · rw [toChange, if_pos hwhole, Change.apply]
  · rw [toChange, if_neg hwhole, Change.apply]
    simp only [rangeBetween, h.start.offsetOf_point ht, h.stop.offsetOf_point ht]
    rw [Nat.max_eq_right h.le, apply]

theorem FitAll.isAddressable (h : FitAll t es) (ht : IsAddressable t) :
    IsAddressable (applyAll t es) := by
  induction es generalizing t with
  | nil => exact ht
  | cons e es ih => exact ih h.2 (h.1.isAddressable ht)

/-- What is told of edits makes the same text of the text they begin with. -/
theorem FitAll.applyAll_toChanges (h : FitAll t es) (ht : IsAddressable t) :
    Change.applyAll t (toChanges t es) = applyAll t es := by
  induction es generalizing t with
  | nil => rfl
  | cons e es ih =>
    rw [toChanges, Change.applyAll, List.foldl_cons, h.1.apply_toChange ht]
    exact ih h.2 (h.1.isAddressable ht)

theorem FitAll.utf8_toChanges (h : FitAll t es) (ht : IsAddressable t) :
    ∀ c ∈ toChanges t es, IsUtf8 c.text := by
  induction es generalizing t with
  | nil => nofun
  | cons e es ih =>
    rw [toChanges, List.forall_mem_cons]
    refine ⟨?_, ih h.2 (h.1.isAddressable ht)⟩
    by_cases hwhole : e.isWhole = true
    · rw [toChange, if_pos hwhole]
      exact (h.1.isAddressable ht).utf8
    · rw [toChange, if_neg hwhole]
      exact h.1.utf8

end Edit
end ScriptNav.Server
