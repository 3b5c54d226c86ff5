import Mathlib.Data.List.Basic
import ScriptNav.Source

/-! Open documents by their keys: what is put under a key is found there, and other keys keep what
they have. -/
namespace ScriptNav.Source.Overlay

variable (o : Overlay) (key text : Text)

theorem get?_cons_self : get? ((key, text) :: o) key = some text := by
  rw [get?, List.lookup_cons_self]

theorem get?_cons_of_ne {entry : Text × Text} (h : key ≠ entry.1) :
    get? (entry :: o) key = o.get? key := by
  have hbeq : (key == entry.1) = false := by simpa using h
  rw [get?, List.lookup_cons, hbeq, get?]

theorem get?_erase_self : (o.erase key).get? key = none := by
  induction o with
  | nil => rfl
  | cons entry o ih =>
    rw [erase, List.filter_cons]
    split
    · next h =>
      rw [get?_cons_of_ne _ _ (bne_iff_ne.1 h).symm]
      exact ih
    · exact ih

theorem get?_erase_of_ne {other : Text} (h : other ≠ key) :
    (o.erase key).get? other = o.get? other := by
  induction o with
  | nil => rfl
  | cons entry o ih =>
    rw [erase, List.filter_cons]
    split
    · by_cases hentry : other = entry.1
      · rw [hentry, get?_cons_self, get?_cons_self]
      · rw [get?_cons_of_ne _ _ hentry, get?_cons_of_ne _ _ hentry]
        exact ih
    · next hkey =>
      have hentry : entry.1 = key := by simpa using hkey
      rw [get?_cons_of_ne _ _ (hentry ▸ h)]
      exact ih

theorem get?_set_self : (o.set key text).get? key = some text := by
  rw [set, get?_cons_self]

theorem get?_set_of_ne {other : Text} (h : other ≠ key) :
    (o.set key text).get? other = o.get? other := by
  rw [set, get?_cons_of_ne _ _ h, get?_erase_of_ne o key h]

end ScriptNav.Source.Overlay
