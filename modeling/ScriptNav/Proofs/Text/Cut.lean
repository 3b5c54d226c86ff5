import Mathlib.Data.List.Basic
import Mathlib.Data.List.TakeWhile
import ScriptNav.Text.Position

/-! Where texts are cut: behind a lead, before a tail, and at runs of bytes of one class at either
end. A run is given by the two parts that it cuts the text into, so that it can be stated without the
functions that find it. -/
namespace ScriptNav.Text

theorem after?_eq_some_iff {lead t rest : Text} : after? lead t = some rest ↔ t = lead ++ rest := by
  rw [after?, List.isPrefixOf?_eq_some_iff_append_eq, eq_comm]

theorem before?_eq_some_iff {tail t rest : Text} : before? tail t = some rest ↔ t = rest ++ tail := by
  rw [before?, Option.map_eq_some_iff]
  constructor
  · rintro ⟨back, h, rfl⟩
    rw [← List.reverse_inj, after?_eq_some_iff.1 h]
    simp
  · rintro rfl
    exact ⟨rest.reverse, after?_eq_some_iff.2 (by simp), by simp⟩

/-- The text `run ++ rest` begins with `run`, and its bytes of the class end there. -/
structure IsRun (p : UInt8 → Bool) (run rest : Text) : Prop where
  all : ∀ b ∈ run, p b = true
  stop : ∀ b, rest.head? = some b → p b = false

/-- The text `rest ++ run` ends with `run`, and its bytes of the class begin there. -/
structure IsLastRun (p : UInt8 → Bool) (rest run : Text) : Prop where
  all : ∀ b ∈ run, p b = true
  stop : ∀ b, rest.getLast? = some b → p b = false

variable {p : UInt8 → Bool} {run rest t : Text}

namespace IsRun

theorem takeWhile_eq (h : IsRun p run rest) : (run ++ rest).takeWhile p = run := by
  rw [List.takeWhile_append_of_pos h.all]
  cases rest with
  | nil => simp
  | cons b rest => simp [h.stop b rfl]

theorem dropWhile_eq (h : IsRun p run rest) : (run ++ rest).dropWhile p = rest := by
  rw [List.dropWhile_append_of_pos h.all]
  cases rest with
  | nil => rfl
  | cons b rest => simp [h.stop b rfl]

theorem reverse (h : IsRun p run rest) : IsLastRun p rest.reverse run.reverse :=
  ⟨fun b hb => h.all b (List.mem_reverse.1 hb), fun b hb => h.stop b (by simpa using hb)⟩

end IsRun

theorem isRun_while (p : UInt8 → Bool) (t : Text) : IsRun p (t.takeWhile p) (t.dropWhile p) := by
  refine ⟨fun b hb => List.mem_takeWhile_imp hb, fun b hb => ?_⟩
  have h := List.head?_dropWhile_not p t
  rw [hb] at h
  exact h

theorem drop_length_takeWhile (p : UInt8 → Bool) (t : Text) :
    t.drop (t.takeWhile p).length = t.dropWhile p := by
  conv_lhs => rw [← List.takeWhile_append_dropWhile (p := p) (l := t)]
  rw [(isRun_while p t).takeWhile_eq, List.drop_left]

/-- Every text begins with a run, be it empty. -/
theorem exists_isRun (p : UInt8 → Bool) (t : Text) : ∃ run rest, t = run ++ rest ∧ IsRun p run rest :=
  ⟨t.takeWhile p, t.dropWhile p, List.takeWhile_append_dropWhile.symm, isRun_while p t⟩

/-- A text is cut at the first byte of its kind. -/
theorem cut?_append {sep : UInt8} {front : Text} (h : sep ∉ front) (rest : Text) :
    (front ++ sep :: rest).cut? sep = some (front, rest) := by
  have hrun : IsRun (· != sep) front (sep :: rest) := by
    refine ⟨fun b hb => bne_iff_ne.2 fun he => h (he ▸ hb), ?_⟩
    rintro b ⟨⟩
    simp
  rw [cut?, hrun.dropWhile_eq, hrun.takeWhile_eq]

theorem cut?_of_notMem {sep : UInt8} {t : Text} (h : sep ∉ t) : t.cut? sep = none := by
  have hdrop : t.dropWhile (· != sep) = [] := by
    rw [List.dropWhile_eq_nil_iff]
    exact fun b hb => bne_iff_ne.2 fun heq => h (heq ▸ hb)
  rw [cut?, hdrop]

namespace IsLastRun

theorem reverse (h : IsLastRun p rest run) : IsRun p run.reverse rest.reverse :=
  ⟨fun b hb => h.all b (List.mem_reverse.1 hb), fun b hb => h.stop b (by simpa using hb)⟩

theorem dropEndWhile_eq (h : IsLastRun p rest run) : dropEndWhile p (rest ++ run) = rest := by
  rw [dropEndWhile, List.reverse_append, h.reverse.dropWhile_eq, List.reverse_reverse]

theorem takeWhile_reverse_eq (h : IsLastRun p rest run) :
    (rest ++ run).reverse.takeWhile p = run.reverse := by
  rw [List.reverse_append, h.reverse.takeWhile_eq]

end IsLastRun

/-- Every text ends with a run, be it empty. -/
theorem exists_isLastRun (p : UInt8 → Bool) (t : Text) :
    ∃ rest run, t = rest ++ run ∧ IsLastRun p rest run := by
  obtain ⟨run, rest, ht, h⟩ := exists_isRun p t.reverse
  exact ⟨rest.reverse, run.reverse, by rw [← List.reverse_append, ← ht, List.reverse_reverse],
    h.reverse⟩

section Pieces
variable {sep : UInt8}

theorem split_cons (b : UInt8) (t : Text) :
    split sep (b :: t) =
      if b = sep then [] :: t.split sep
      else (b :: (t.split sep).headD []) :: (t.split sep).tail := by
  rw [split, splitBy, List.foldr_cons, ← splitBy, ← split]
  simp only [beq_iff_eq]
  cases t.split sep <;> rfl

theorem split_ne_nil (sep : UInt8) (t : Text) : t.split sep ≠ [] := by
  cases t with
  | nil => exact List.cons_ne_nil _ _
  | cons b t =>
    rw [split_cons]
    split <;> exact List.cons_ne_nil _ _

theorem split_append (front rest : Text) :
    split sep (front ++ sep :: rest) = front.split sep ++ rest.split sep := by
  induction front with
  | nil => rw [List.nil_append, split_cons, if_pos rfl]; rfl
  | cons b front ih =>
    obtain ⟨piece, pieces, hfront⟩ := List.exists_cons_of_ne_nil (split_ne_nil sep front)
    rw [List.cons_append, split_cons, split_cons, ih, hfront]
    split <;> rfl

theorem split_of_notMem {t : Text} (h : sep ∉ t) : t.split sep = [t] := by
  induction t with
  | nil => rfl
  | cons b t ih =>
    obtain ⟨hb, ht⟩ := not_or.1 (mt List.mem_cons.2 h)
    rw [split_cons, if_neg (Ne.symm hb), ih ht]
    rfl

theorem notMem_of_mem_split {t piece : Text} (h : piece ∈ t.split sep) : sep ∉ piece := by
  induction t generalizing piece with
  | nil =>
    rw [show piece = [] by simpa [split, splitBy] using h]
    exact List.not_mem_nil
  | cons b t ih =>
    obtain ⟨first, pieces, ht⟩ := List.exists_cons_of_ne_nil (split_ne_nil sep t)
    rw [ht] at ih
    rw [split_cons, ht] at h
    split at h
    · obtain rfl | h := List.mem_cons.1 h
      · exact List.not_mem_nil
      · exact ih h
    · next hb =>
      obtain rfl | h := List.mem_cons.1 h
      · exact mt List.mem_cons.1 (not_or.2 ⟨Ne.symm hb, ih List.mem_cons_self⟩)
      · exact ih (List.mem_cons_of_mem _ h)

theorem join_cons_cons (piece next : Text) (pieces : List Text) :
    join [sep] (piece :: next :: pieces) = piece ++ sep :: join [sep] (next :: pieces) := by
  rw [join, List.intercalate_cons_cons, List.append_assoc, List.singleton_append, join]

theorem join_append {pieces more : List Text} (hpieces : pieces ≠ []) (hmore : more ≠ []) :
    join [sep] (pieces ++ more) = join [sep] pieces ++ sep :: join [sep] more := by
  obtain ⟨next, more, rfl⟩ := List.exists_cons_of_ne_nil hmore
  induction pieces with
  | nil => exact absurd rfl hpieces
  | cons piece pieces ih =>
    cases pieces with
    | nil => rw [List.singleton_append, join_cons_cons, join, join, List.intercalate_singleton]
    | cons piece' pieces =>
      rw [List.cons_append, List.cons_append, join_cons_cons, join_cons_cons, List.append_assoc,
        List.cons_append, ← ih (List.cons_ne_nil _ _), List.cons_append]

theorem getLastD_suffix_join (pieces : List Text) : pieces.getLastD [] <:+ join [sep] pieces := by
  induction pieces with
  | nil => exact List.nil_suffix
  | cons piece pieces ih =>
    cases pieces with
    | nil => simp [join]
    | cons next pieces =>
      rw [join_cons_cons]
      exact ih.trans ⟨piece ++ [sep], by simp⟩

theorem mem_join {b : UInt8} {pieces : List Text} (h : b ∈ join [sep] pieces) :
    b = sep ∨ ∃ piece ∈ pieces, b ∈ piece := by
  induction pieces with
  | nil => cases h
  | cons piece pieces ih =>
    cases pieces with
    | nil =>
      rw [join, List.intercalate_singleton] at h
      exact .inr ⟨piece, List.mem_cons_self, h⟩
    | cons next pieces =>
      rw [join_cons_cons, List.mem_append, List.mem_cons] at h
      rcases h with h | h | h
      · exact .inr ⟨piece, List.mem_cons_self, h⟩
      · exact .inl h
      · exact (ih h).imp_right fun ⟨p, hp, hb⟩ => ⟨p, List.mem_cons_of_mem _ hp, hb⟩

theorem mem_join_of_mem {b : UInt8} {piece : Text} {pieces : List Text} (h : piece ∈ pieces)
    (hb : b ∈ piece) : b ∈ join [sep] pieces := by
  induction pieces with
  | nil => cases h
  | cons first pieces ih =>
    cases pieces with
    | nil =>
      rw [join, List.intercalate_singleton]
      exact List.mem_singleton.1 h ▸ hb
    | cons next pieces =>
      rw [join_cons_cons, List.mem_append, List.mem_cons]
      rcases List.mem_cons.1 h with rfl | h
      · exact .inl hb
      · exact .inr (.inr (ih h))

/-- Pieces are put together with the separator, whether or not they hold it themselves. -/
theorem split_join_eq_flatMap {pieces : List Text} (hne : pieces ≠ []) :
    (join [sep] pieces).split sep = pieces.flatMap (split sep) := by
  induction pieces with
  | nil => exact absurd rfl hne
  | cons piece pieces ih =>
    cases pieces with
    | nil => rw [join, List.intercalate_singleton, List.flatMap_singleton]
    | cons next pieces =>
      rw [join_cons_cons, split_append, ih (List.cons_ne_nil _ _)]
      exact List.flatMap_cons.symm

/-- Pieces without the separator can be told apart after they are put together. -/
theorem split_join {pieces : List Text} (hne : pieces ≠ []) (h : ∀ piece ∈ pieces, sep ∉ piece) :
    (join [sep] pieces).split sep = pieces := by
  induction pieces with
  | nil => exact absurd rfl hne
  | cons piece pieces ih =>
    have hpiece := split_of_notMem (h piece List.mem_cons_self)
    cases pieces with
    | nil => rw [join, List.intercalate_singleton, hpiece]
    | cons next pieces =>
      rw [join_cons_cons, split_append, hpiece, List.singleton_append,
        ih (List.cons_ne_nil _ _) fun p hp => h p (List.mem_cons_of_mem _ hp)]

theorem join_split (sep : UInt8) (t : Text) : join [sep] (t.split sep) = t := by
  induction t with
  | nil => rfl
  | cons b t ih =>
    obtain ⟨piece, pieces, ht⟩ := List.exists_cons_of_ne_nil (split_ne_nil sep t)
    rw [ht] at ih
    rw [split_cons, ht]
    split
    · next hb => rw [join_cons_cons, ih, hb, List.nil_append]
    · rw [List.headD_cons, List.tail_cons]
      cases pieces with
      | nil => rw [← ih, join, join, List.intercalate_singleton, List.intercalate_singleton]
      | cons next pieces => rw [← ih, join_cons_cons, join_cons_cons, List.cons_append]

/-- The pieces of a text are the last ones of another just where the text stands behind a separator
at the end of the other. -/
theorem split_suffix_iff {s t : Text} : s.split sep <:+ t.split sep ↔ t = s ∨ sep :: s <:+ t := by
  constructor
  · rintro ⟨pieces, h⟩
    by_cases hpieces : pieces = []
    · rw [hpieces, List.nil_append] at h
      exact .inl (by rw [← join_split sep t, ← h, join_split])
    · refine .inr ⟨join [sep] pieces, ?_⟩
      rw [← join_split sep t, ← h, join_append hpieces (split_ne_nil sep s), join_split]
  · rintro (rfl | ⟨front, rfl⟩)
    · exact List.suffix_rfl
    · rw [split_append]
      exact List.suffix_append _ _

theorem split_map {f : UInt8 → UInt8} (hf : ∀ b, f b = sep ↔ b = sep) (t : Text) :
    split sep (t.map f) = (t.split sep).map (List.map f) := by
  induction t with
  | nil => rfl
  | cons b t ih =>
    obtain ⟨piece, pieces, ht⟩ := List.exists_cons_of_ne_nil (split_ne_nil sep t)
    rw [List.map_cons, split_cons, split_cons, ih, ht]
    simp only [hf]
    split <;> rfl

end Pieces

end ScriptNav.Text
