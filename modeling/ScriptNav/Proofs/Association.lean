import Mathlib.Data.List.Nodup
import ScriptNav.Text.Basic

/-! Maps kept as lists of entries. As long as no key comes twice, what is looked up is what is there
and the order of the entries does not matter; sorted by their keys they are the same list. -/
namespace ScriptNav.Association

variable {κ α : Type} [BEq κ] [LawfulBEq κ] {entries entries' : List (κ × α)}

theorem lookup_eq_some_iff_mem (h : (entries.map Prod.fst).Nodup) {key : κ} {value : α} :
    entries.lookup key = some value ↔ (key, value) ∈ entries := by
  induction entries with
  | nil => simp
  | cons entry entries ih =>
    obtain ⟨k, v⟩ := entry
    obtain ⟨hk, hrest⟩ := List.nodup_cons.1 h
    rw [List.lookup_cons, List.mem_cons, Prod.mk.injEq]
    by_cases hkey : key = k
    · subst hkey
      have habsent : (key, value) ∉ entries := fun hmem => hk (List.mem_map.2 ⟨_, hmem, rfl⟩)
      simp [habsent, eq_comm]
    · simp [hkey, beq_false_of_ne hkey, ih hrest]

theorem lookup_eq_of_perm (hperm : entries.Perm entries') (h : (entries.map Prod.fst).Nodup)
    (key : κ) : entries.lookup key = entries'.lookup key := by
  have h' : (entries'.map Prod.fst).Nodup := (hperm.map Prod.fst).nodup h
  ext value
  rw [lookup_eq_some_iff_mem h, lookup_eq_some_iff_mem h', hperm.mem_iff]

theorem perm_of_lookup_eq (h : (entries.map Prod.fst).Nodup) (h' : (entries'.map Prod.fst).Nodup)
    (heq : ∀ key, entries.lookup key = entries'.lookup key) : entries.Perm entries' := by
  rw [List.perm_ext_iff_of_nodup (.of_map _ h) (.of_map _ h')]
  rintro ⟨key, value⟩
  rw [← lookup_eq_some_iff_mem h, ← lookup_eq_some_iff_mem h', heq]

/-- Entries in the order of their keys. -/
theorem mergeSort_eq_of_perm {entries entries' : List (Text × α)} (hperm : entries.Perm entries')
    (h : (entries.map Prod.fst).Nodup) :
    entries.mergeSort (fun a b => decide (a.1 ≤ b.1)) =
      entries'.mergeSort (fun a b => decide (a.1 ≤ b.1)) := by
  have hsorted (entries : List (Text × α)) :
      (entries.mergeSort fun a b => decide (a.1 ≤ b.1)).Pairwise
        fun a b => decide (a.1 ≤ b.1) = true :=
    List.pairwise_mergeSort (fun a b c => by simpa using List.le_trans)
      (fun a b => by simpa using List.le_total a.1 b.1) entries
  refine List.Perm.eq_of_pairwise ?_ (hsorted entries) (hsorted entries') ?_
  · intro a b ha hb hle hge
    rw [List.mem_mergeSort] at ha hb
    refine List.inj_on_of_nodup_map h ha (hperm.mem_iff.2 hb) ?_
    exact List.le_antisymm (by simpa using hle) (by simpa using hge)
  · exact (List.mergeSort_perm _ _).trans (hperm.trans (List.mergeSort_perm _ _).symm)

end ScriptNav.Association
