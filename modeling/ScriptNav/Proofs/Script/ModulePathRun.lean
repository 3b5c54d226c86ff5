import Mathlib.Data.List.Infix
import ScriptNav.Script.ModulePath

/-! The grammar of module paths, and the longest path at the beginning or at the end of a text. Paths
read the same both ways, so the second is the first on the reversed text. -/
namespace ScriptNav.Script

open Text

/-- A word. -/
def IsWordText (w : Text) : Prop := w ≠ [] ∧ ∀ b ∈ w, isWord b = true

/-- Words with one separator between any two neighbours. -/
inductive ModulePath : Text → Prop
  | word {w : Text} (h : IsWordText w) : ModulePath w
  | join {w rest : Text} {s : UInt8} (h : IsWordText w) (hs : isSeparator s = true)
      (more : ModulePath rest) : ModulePath (w ++ s :: rest)

/-- `path` is the longest path that ends a text, or nothing if no path does. -/
structure IsTrailingPath (t path : Text) : Prop where
  suffix : path <:+ t
  modulePath : path = [] ∨ ModulePath path
  longest : ∀ q, ModulePath q → q <:+ t → q.length ≤ path.length

theorem isWord_of_isSeparator {s : UInt8} (hs : isSeparator s = true) : isWord s = false := by
  simp only [isSeparator, Bool.or_eq_true, beq_iff_eq] at hs
  rcases hs with rfl | rfl <;> decide

theorem isSeparator_of_isWord {b : UInt8} (hb : isWord b = true) : isSeparator b = false := by
  by_contra hs
  rw [isWord_of_isSeparator (by simpa using hs)] at hb
  cases hb

/-- A blank ends a path. -/
theorem isWord_isSeparator_of_isSpace {b : UInt8} (h : isSpace b = true) :
    isWord b = false ∧ isSeparator b = false := by
  simp only [isSpace, Bool.or_eq_true, beq_iff_eq] at h
  rcases h with (((rfl | rfl) | rfl) | rfl) | rfl <;> decide

theorem lt_of_isWord {b : UInt8} (h : isWord b = true) : b < 0x80 := by
  have hrange {low high : UInt8} (hb : (decide (low ≤ b) && decide (b ≤ high)) = true)
      (hhigh : high < 0x80) : b < 0x80 := by
    rw [Bool.and_eq_true, decide_eq_true_eq, decide_eq_true_eq] at hb
    exact UInt8.lt_of_le_of_lt hb.2 hhigh
  simp only [isWord, Bool.or_eq_true, beq_iff_eq] at h
  rcases h with ((h | h) | h) | rfl
  · exact hrange h (by decide)
  · exact hrange h (by decide)
  · exact hrange h (by decide)
  · decide

theorem isWordText_singleton {b : UInt8} (hb : isWord b = true) : IsWordText [b] :=
  ⟨by simp, by simpa using hb⟩

theorem IsWordText.cons {b : UInt8} {w : Text} (hb : isWord b = true) (hw : IsWordText w) :
    IsWordText (b :: w) :=
  ⟨by simp, by simpa [hb] using hw.2⟩

theorem IsWordText.reverse {w : Text} (hw : IsWordText w) : IsWordText w.reverse :=
  ⟨by simpa using hw.1, by simpa using hw.2⟩

namespace ModulePath

theorem ne_nil {q : Text} (h : ModulePath q) : q ≠ [] := by
  cases h with
  | word h => exact h.1
  | join _ _ _ => simp

/-- A path has no other bytes than those of words and separators. -/
theorem isWord_or_isSeparator {q : Text} (h : ModulePath q) :
    ∀ b ∈ q, isWord b = true ∨ isSeparator b = true := by
  induction h with
  | word h => exact fun b hb => .inl (h.2 b hb)
  | @join w rest s h hs _ ih =>
    intro b hb
    rcases List.mem_append.1 hb with hb | hb
    · exact .inl (h.2 b hb)
    · rcases List.mem_cons.1 hb with rfl | hb
      · exact .inr hs
      · exact ih b hb

/-- A path by its first byte. -/
theorem cons_iff {b : UInt8} {q : Text} :
    ModulePath (b :: q) ↔ isWord b = true ∧ (q = [] ∨ ModulePath q ∨
      ∃ s rest, q = s :: rest ∧ isSeparator s = true ∧ ModulePath rest) := by
  constructor
  · intro h
    generalize hbq : b :: q = p at h
    cases h with
    | word h =>
      subst hbq
      refine ⟨h.2 b (by simp), ?_⟩
      by_cases hq : q = []
      · exact .inl hq
      · exact .inr (.inl (.word ⟨hq, fun c hc => h.2 c (by simp [hc])⟩))
    | @join w rest s h hs more =>
      cases w with
      | nil => exact absurd rfl h.1
      | cons c w =>
        obtain ⟨rfl, rfl⟩ := List.cons.inj hbq
        refine ⟨h.2 b (by simp), .inr ?_⟩
        by_cases hw : w = []
        · subst hw
          exact .inr ⟨s, rest, rfl, hs, more⟩
        · exact .inl (.join ⟨hw, fun c hc => h.2 c (by simp [hc])⟩ hs more)
  · rintro ⟨hb, rfl | hq | ⟨s, rest, rfl, hs, more⟩⟩
    · exact .word (isWordText_singleton hb)
    · cases hq with
      | word h => exact .word (h.cons hb)
      | join h hs more => exact .join (h.cons hb) hs more
    · exact .join (isWordText_singleton hb) hs more

theorem concat {p w : Text} {s : UInt8} (hp : ModulePath p) (hs : isSeparator s = true)
    (hw : IsWordText w) : ModulePath (p ++ s :: w) := by
  induction hp with
  | word h => exact .join h hs (.word hw)
  | @join v rest s' h hs' _ ih =>
    rw [List.append_assoc, List.cons_append]
    exact .join h hs' ih

theorem reverse {p : Text} (hp : ModulePath p) : ModulePath p.reverse := by
  induction hp with
  | word h => exact .word h.reverse
  | @join w rest s h hs _ ih =>
    rw [List.reverse_append, List.reverse_cons, List.append_assoc, List.singleton_append]
    exact ih.concat hs h.reverse

end ModulePath

theorem pathRun_prefix (t : Text) : pathRun t <+: t := by
  fun_induction pathRun t with
  | case1 => exact List.nil_prefix
  | case2 b hb c d more h ih => simpa [List.cons_prefix_cons] using ih
  | case3 b hb c d more h ih => simpa [List.cons_prefix_cons] using ih
  | case4 b hb t h ih => simpa [List.cons_prefix_cons] using ih
  | case5 b t hb => exact List.nil_prefix

theorem modulePath_pathRun (t : Text) : pathRun t = [] ∨ ModulePath (pathRun t) := by
  fun_induction pathRun t with
  | case1 => exact .inl rfl
  | case2 b hb c d more h ih =>
    simp only [Bool.and_eq_true] at h
    have hne : pathRun (d :: more) ≠ [] := by
      rw [pathRun.eq_def]
      simp only [h.2, ↓reduceIte]
      split <;> [split; skip] <;> simp
    exact .inr (ModulePath.cons_iff.2 ⟨hb, .inr (.inr ⟨c, _, rfl, h.1, ih.resolve_left hne⟩)⟩)
  | case3 b hb c d more h ih => exact .inr (ModulePath.cons_iff.2 ⟨hb, ih.imp_right .inl⟩)
  | case4 b hb t h ih => exact .inr (ModulePath.cons_iff.2 ⟨hb, ih.imp_right .inl⟩)
  | case5 b t hb => exact .inl rfl

/-- The first byte of a path is part of a word. -/
theorem ModulePath.exists_cons {q : Text} (h : ModulePath q) :
    ∃ b rest, q = b :: rest ∧ isWord b = true := by
  cases q with
  | nil => exact absurd rfl h.ne_nil
  | cons b rest => exact ⟨b, rest, rfl, (ModulePath.cons_iff.1 h).1⟩

theorem pathRun_longest {t q : Text} (hq : ModulePath q) (ht : q <+: t) :
    q.length ≤ (pathRun t).length := by
  obtain ⟨b', q, rfl, hb'⟩ := hq.exists_cons
  fun_induction pathRun t generalizing b' q with
  | case1 => simp at ht
  | case2 b hb c d more h ih =>
    simp only [Bool.and_eq_true] at h
    rw [List.cons_prefix_cons] at ht
    obtain ⟨rfl, ht⟩ := ht
    rcases (ModulePath.cons_iff.1 hq).2 with rfl | hq' | ⟨s, rest, rfl, -, hrest⟩
    · simp
    · obtain ⟨c', _, rfl, hc'⟩ := hq'.exists_cons
      rw [List.cons_prefix_cons] at ht
      rw [ht.1, isWord_of_isSeparator h.1] at hc'
      cases hc'
    · obtain ⟨d', rest, rfl, hd'⟩ := hrest.exists_cons
      have hle := ih d' rest hd' hrest (List.cons_prefix_cons.1 ht).2
      simpa using hle
  | case3 b hb c d more h ih =>
    rw [List.cons_prefix_cons] at ht
    obtain ⟨rfl, ht⟩ := ht
    rcases (ModulePath.cons_iff.1 hq).2 with rfl | hq' | ⟨s, rest, rfl, hs, hrest⟩
    · simp
    · obtain ⟨c', rest, rfl, hc'⟩ := hq'.exists_cons
      have hle := ih c' rest hc' hq' ht
      simpa using hle
    · obtain ⟨d', rest, rfl, hd'⟩ := hrest.exists_cons
      obtain ⟨rfl, ht₁⟩ := List.cons_prefix_cons.1 ht
      rw [(List.cons_prefix_cons.1 ht₁).1] at hd'
      simp [hs, hd'] at h
  | case4 b hb t h ih =>
    rw [List.cons_prefix_cons] at ht
    obtain ⟨rfl, ht⟩ := ht
    rcases (ModulePath.cons_iff.1 hq).2 with rfl | hq' | ⟨s, rest, rfl, -, hrest⟩
    · simp
    · obtain ⟨c', rest, rfl, hc'⟩ := hq'.exists_cons
      have hle := ih c' rest hc' hq' ht
      simpa using hle
    · obtain ⟨d', rest, rfl, -⟩ := hrest.exists_cons
      obtain ⟨more, rfl⟩ := ht
      exact absurd rfl (h _ _ _)
  | case5 b t hb =>
    rw [List.cons_prefix_cons] at ht
    rw [ht.1] at hb'
    exact absurd hb' hb

/-- The path that is read off the end of a text is the longest one there. -/
theorem isTrailingPath_trailingPath (t : Text) : IsTrailingPath t (trailingPath t) where
  suffix := by
    rw [trailingPath, ← List.reverse_prefix, List.reverse_reverse]
    exact pathRun_prefix t.reverse
  modulePath := by
    rcases modulePath_pathRun t.reverse with h | h
    · exact .inl (by rw [trailingPath, h]; rfl)
    · exact .inr h.reverse
  longest := by
    intro q hq hs
    rw [trailingPath, List.length_reverse, ← List.length_reverse]
    exact pathRun_longest hq.reverse (List.reverse_prefix.2 hs)

end ScriptNav.Script
