import Mathlib.Data.List.Induction
import Mathlib.Tactic.SplitIfs
import ScriptNav.Resolver

/-! Candidates without repetition. Of the candidates with one key only the first is kept, and those
that are kept stand in the order of their first occurrences. -/
namespace ScriptNav.Resolver

open Text

section First
variable {κ : Type} (key : Text → κ)

/-- The path at place `i` is the first one with its key. -/
def IsFirst (files : List Text) (i : Nat) (path : Text) : Prop :=
  files[i]? = some path ∧
    ∀ (j : Nat) (other : Text), j < i → files[j]? = some other → key other ≠ key path

variable {key}

theorem IsFirst.lt_length {files : List Text} {i : Nat} {path : Text} (h : IsFirst key files i path) :
    i < files.length := (List.getElem?_eq_some_iff.1 h.1).1

/-- Of two first paths with one key neither comes before the other. -/
theorem IsFirst.eq_of_key {files : List Text} {i j : Nat} {path other : Text}
    (h : IsFirst key files i path) (h' : IsFirst key files j other) (hk : key path = key other) :
    i = j := by
  by_contra hne
  rcases Nat.lt_or_gt_of_ne hne with hlt | hlt
  · exact h'.2 i path hlt h.1 hk
  · exact h.2 j other hlt h'.1 hk.symm

theorem isFirst_concat_iff {files : List Text} {i : Nat} {last path : Text} :
    IsFirst key (files ++ [last]) i path ↔
      IsFirst key files i path ∨ (i = files.length ∧ path = last ∧ key last ∉ files.map key) := by
  rcases Nat.lt_trichotomy i files.length with hi | rfl | hi
  · have hj : ∀ j < i + 1, (files ++ [last])[j]? = files[j]? :=
      fun j hj => List.getElem?_append_left (by omega)
    have hne : i ≠ files.length := by omega
    simp only [IsFirst, hne, false_and, or_false, hj i (by omega)]
    refine and_congr_right fun _ => ⟨fun h j other hlt ho => ?_, fun h j other hlt ho => ?_⟩
    · exact h j other hlt ((hj j (by omega)).trans ho)
    · exact h j other hlt ((hj j (by omega)).symm.trans ho)
  · have hnot : ¬ IsFirst key files files.length path := fun h => absurd h.lt_length (by omega)
    rw [or_iff_right hnot, IsFirst, List.getElem?_concat_length, Option.some.injEq]
    constructor
    · rintro ⟨rfl, h⟩
      refine ⟨rfl, rfl, fun hmem => ?_⟩
      obtain ⟨other, ho, hk⟩ := List.mem_map.1 hmem
      obtain ⟨j, hj, rfl⟩ := List.mem_iff_getElem.1 ho
      exact h j files[j] hj (by rw [List.getElem?_append_left hj, List.getElem?_eq_getElem hj]) hk
    · rintro ⟨-, rfl, h⟩
      refine ⟨rfl, fun j other hj ho hk => h ?_⟩
      rw [List.getElem?_append_left hj] at ho
      exact List.mem_map.2 ⟨other, List.mem_of_getElem? ho, hk⟩
  · have hnot : ¬ IsFirst key (files ++ [last]) i path := fun h => by
      have := h.lt_length
      simp at this
      omega
    have hnot' : ¬ IsFirst key files i path := fun h => absurd h.lt_length (by omega)
    have hne : i ≠ files.length := by omega
    simp [hnot, hnot', hne]

end First

section Dedupe
variable (cwd current : Text)

/-- One step of going through candidates: the keys seen and the paths kept, the last ones first. -/
def keep (state : List (Option Text) × List Text) (path : Text) : List (Option Text) × List Text :=
  if state.1.contains (fileKey cwd current path) then state
  else (fileKey cwd current path :: state.1, path :: state.2)

theorem dedupe_eq_foldl (files : List Text) :
    dedupe cwd current files = (files.foldl (keep cwd current) ([], [])).2.reverse := rfl

/-- The keys seen are those of the candidates gone through. -/
theorem mem_foldl_keep_iff {k : Option Text} (files : List Text) :
    k ∈ (files.foldl (keep cwd current) ([], [])).1 ↔ k ∈ files.map (fileKey cwd current) := by
  induction files using List.reverseRec with
  | nil => rfl
  | append_singleton files last ih =>
    rw [List.foldl_append, List.foldl_cons, List.foldl_nil, List.map_append, List.mem_append, ← ih,
      keep]
    split_ifs with h
    · rw [List.contains_iff_mem] at h
      refine ⟨.inl, Or.rec id fun hk => ?_⟩
      rwa [List.mem_singleton.1 hk]
    · simp [or_comm]

/-- One more candidate is kept if none before it has its key. -/
theorem dedupe_concat (files : List Text) (path : Text) :
    dedupe cwd current (files ++ [path]) =
      if fileKey cwd current path ∈ files.map (fileKey cwd current) then dedupe cwd current files
      else dedupe cwd current files ++ [path] := by
  simp only [dedupe_eq_foldl, List.foldl_append, List.foldl_cons, List.foldl_nil]
  have hseen := mem_foldl_keep_iff cwd current (k := fileKey cwd current path) files
  rw [← List.contains_iff_mem] at hseen
  by_cases h : fileKey cwd current path ∈ files.map (fileKey cwd current)
  · rw [if_pos h, keep, if_pos (hseen.2 h)]
  · rw [if_neg h, keep, if_neg (mt hseen.1 h), List.reverse_cons]

/-- What is kept are the first candidates of each key. -/
theorem mem_dedupe_iff {files : List Text} {path : Text} :
    path ∈ dedupe cwd current files ↔ ∃ i, IsFirst (fileKey cwd current) files i path := by
  induction files using List.reverseRec with
  | nil => simp [dedupe, IsFirst]
  | append_singleton files last ih =>
    rw [dedupe_concat]
    simp only [isFirst_concat_iff, exists_or, exists_eq_left, ← ih]
    split_ifs with h
    · simp [h]
    · simp [h]

/-- What is kept stands in the order of the candidates. -/
theorem dedupe_pairwise (files : List Text) :
    (dedupe cwd current files).Pairwise fun path other => ∃ i j, i < j ∧
      IsFirst (fileKey cwd current) files i path ∧ IsFirst (fileKey cwd current) files j other := by
  induction files using List.reverseRec with
  | nil => simp [dedupe]
  | append_singleton files last ih =>
    have hmono := ih.imp fun {path other} ⟨i, j, hij, hi, hj⟩ =>
      (⟨i, j, hij, isFirst_concat_iff.2 (.inl hi), isFirst_concat_iff.2 (.inl hj)⟩ :
        ∃ i j, i < j ∧ IsFirst (fileKey cwd current) (files ++ [last]) i path ∧
          IsFirst (fileKey cwd current) (files ++ [last]) j other)
    rw [dedupe_concat]
    split_ifs with h
    · exact hmono
    · refine List.pairwise_append.2 ⟨hmono, List.pairwise_singleton _ _, ?_⟩
      intro path hpath other hother
      obtain rfl := List.mem_singleton.1 hother
      obtain ⟨i, hi⟩ := (mem_dedupe_iff cwd current).1 hpath
      exact ⟨i, files.length, hi.lt_length, isFirst_concat_iff.2 (.inl hi),
        isFirst_concat_iff.2 (.inr ⟨rfl, rfl, h⟩)⟩

end Dedupe
end ScriptNav.Resolver
