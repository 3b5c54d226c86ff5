import Mathlib.Data.List.Basic
import Mathlib.Tactic.SplitIfs
import ScriptNav.Script.Definition

/-! What may stand between the marks of a definition, and the table that tells from which points of a
text the next mark is reached. A comment inside the phrase is any text of the right shape, as long or
as short as the phrase needs it, so the table is exact: it reports a mark from a point if and only if
some reading of the text in between leads there. -/
namespace ScriptNav.Script

open Text

/-- Comments of either kind and bytes of one class, in any number and order. -/
inductive Filler (isFiller : UInt8 → Bool) : Text → Prop
  | nil : Filler isFiller []
  | byte {b : UInt8} {rest : Text} (h : isFiller b = true) (more : Filler isFiller rest) :
      Filler isFiller (b :: rest)
  | line {body rest : Text} (h : newline ∉ body) (more : Filler isFiller rest) :
      Filler isFiller (slash :: slash :: (body ++ rest))
  | block {body rest : Text} (more : Filler isFiller rest) :
      Filler isFiller (slash :: asterisk :: (body ++ asterisk :: slash :: rest))

/-- An option picks from a predicate: what it holds satisfies the predicate, and it holds something
as soon as anything does. -/
def Picks {α : Type} (o : Option α) (P : α → Prop) : Prop :=
  (∀ v, o = some v → P v) ∧ ((∃ v, P v) → o.isSome)

namespace Picks

variable {α : Type} {o o' : Option α} {P Q : α → Prop}

theorem none (h : ∀ v, ¬ P v) : Picks none P := ⟨by simp, fun ⟨v, hv⟩ => absurd hv (h v)⟩

theorem some {v : α} (h : P v) : Picks (some v) P := ⟨by rintro _ ⟨⟩; exact h, fun _ => rfl⟩

theorem congr (h : Picks o P) (hPQ : ∀ v, Q v ↔ P v) : Picks o Q :=
  ⟨fun v hv => (hPQ v).2 (h.1 v hv), fun ⟨v, hv⟩ => h.2 ⟨v, (hPQ v).1 hv⟩⟩

theorem or (h : Picks o P) (h' : Picks o' Q) : Picks (o.or o') (fun v => P v ∨ Q v) := by
  constructor
  · intro v hv
    rcases Option.or_eq_some_iff.1 hv with hv | ⟨-, hv⟩
    · exact .inl (h.1 v hv)
    · exact .inr (h'.1 v hv)
  · rintro ⟨v, hv | hv⟩
    · simp [h.2 ⟨v, hv⟩]
    · simp [h'.2 ⟨v, hv⟩]

theorem map {β : Type} {f : α → β} {R : β → Prop} (h : Picks o P) (hf : ∀ v, P v → R (f v))
    (hR : ∀ w, R w → ∃ v, P v) : Picks (o.map f) R := by
  constructor
  · intro w hw
    obtain ⟨v, hv, rfl⟩ := Option.map_eq_some_iff.1 hw
    exact hf v (h.1 v hv)
  · rintro ⟨w, hw⟩
    rw [Option.isSome_map]
    exact h.2 (hR w hw)

/-- Whether anything is picked is whether anything can be. -/
theorem isSome_iff (h : Picks o P) : o.isSome ↔ ∃ v, P v := by
  refine ⟨fun ho => ?_, h.2⟩
  obtain ⟨v, hv⟩ := Option.isSome_iff_exists.1 ho
  exact ⟨v, h.1 v hv⟩

end Picks

section Reading
variable {α : Type} (isFiller : UInt8 → Bool) (Mark : Text → α → Prop)

/-- Filler leads to a mark. -/
def CodeLeads (t : Text) (v : α) : Prop :=
  ∃ filler rest, t = filler ++ rest ∧ Filler isFiller filler ∧ Mark rest v

/-- The rest of a line comment, and filler after it, lead to a mark. -/
def LineLeads (t : Text) (v : α) : Prop :=
  ∃ body rest, t = body ++ rest ∧ newline ∉ body ∧ CodeLeads isFiller Mark rest v

/-- The rest of a block comment, and filler after it, lead to a mark. -/
def BlockLeads (t : Text) (v : α) : Prop :=
  ∃ body rest, t = body ++ asterisk :: slash :: rest ∧ CodeLeads isFiller Mark rest v

/-- A mark begins with a byte that begins no filler. -/
def IsMark : Prop :=
  isFiller slash = false ∧
    ∀ t v, Mark t v → ∃ b rest, t = b :: rest ∧ b ≠ slash ∧ isFiller b = false

end Reading

section Leads
variable {α : Type} {isFiller : UInt8 → Bool} {Mark : Text → α → Prop}
variable {b : UInt8} {t : Text} {v : α}

/-- The four ways in which filler leads from a byte to a mark. -/
theorem codeLeads_cons :
    CodeLeads isFiller Mark (b :: t) v ↔
      Mark (b :: t) v ∨ (isFiller b = true ∧ CodeLeads isFiller Mark t v) ∨
      (∃ more, b = slash ∧ t = slash :: more ∧ LineLeads isFiller Mark more v) ∨
      ∃ more, b = slash ∧ t = asterisk :: more ∧ BlockLeads isFiller Mark more v := by
  constructor
  · rintro ⟨filler, rest, ht, hf, hv⟩
    cases hf with
    | nil =>
      rw [List.nil_append] at ht
      exact .inl (ht ▸ hv)
    | @byte _ more h hmore =>
      obtain ⟨rfl, rfl⟩ := List.cons.inj ht
      exact .inr (.inl ⟨h, more, rest, rfl, hmore, hv⟩)
    | @line body more h hmore =>
      obtain ⟨rfl, rfl⟩ := List.cons.inj ht
      exact .inr (.inr (.inl ⟨body ++ more ++ rest, rfl, by simp, body, more ++ rest, by simp, h,
        more, rest, rfl, hmore, hv⟩))
    | @block body more hmore =>
      obtain ⟨rfl, rfl⟩ := List.cons.inj ht
      exact .inr (.inr (.inr ⟨body ++ asterisk :: slash :: more ++ rest, rfl, by simp, body,
        more ++ rest, by simp, more, rest, rfl, hmore, hv⟩))
  · rintro (hv | ⟨h, filler, rest, rfl, hf, hv⟩ |
      ⟨_, rfl, rfl, body, _, rfl, h, filler, rest, rfl, hf, hv⟩ |
      ⟨_, rfl, rfl, body, _, rfl, filler, rest, rfl, hf, hv⟩)
    · exact ⟨[], b :: t, rfl, .nil, hv⟩
    · exact ⟨b :: filler, rest, rfl, .byte h hf, hv⟩
    · exact ⟨slash :: slash :: (body ++ filler), rest, by simp, .line h hf, hv⟩
    · exact ⟨slash :: asterisk :: (body ++ asterisk :: slash :: filler), rest, by simp, .block hf, hv⟩

/-- A line comment ends at once, or goes on with a byte that ends no line. -/
theorem lineLeads_cons :
    LineLeads isFiller Mark (b :: t) v ↔
      CodeLeads isFiller Mark (b :: t) v ∨ (b ≠ newline ∧ LineLeads isFiller Mark t v) := by
  constructor
  · rintro ⟨body, rest, ht, h, hv⟩
    cases body with
    | nil =>
      rw [List.nil_append] at ht
      exact .inl (ht ▸ hv)
    | cons c body =>
      obtain ⟨rfl, rfl⟩ := List.cons.inj ht
      simp only [List.mem_cons, not_or] at h
      exact .inr ⟨fun hb => h.1 hb.symm, body, rest, rfl, h.2, hv⟩
  · rintro (hv | ⟨hb, body, rest, rfl, h, hv⟩)
    · exact ⟨[], b :: t, rfl, by simp, hv⟩
    · exact ⟨b :: body, rest, rfl, by simp [h, Ne.symm hb], hv⟩

/-- A block comment ends with the next two bytes, or goes on. -/
theorem blockLeads_cons :
    BlockLeads isFiller Mark (b :: t) v ↔
      (∃ more, b = asterisk ∧ t = slash :: more ∧ CodeLeads isFiller Mark more v) ∨
      BlockLeads isFiller Mark t v := by
  constructor
  · rintro ⟨body, rest, ht, hv⟩
    cases body with
    | nil =>
      obtain ⟨rfl, rfl⟩ := List.cons.inj ht
      exact .inl ⟨rest, rfl, rfl, hv⟩
    | cons c body =>
      obtain ⟨rfl, rfl⟩ := List.cons.inj ht
      exact .inr ⟨body, rest, rfl, hv⟩
  · rintro (⟨rest, rfl, rfl, hv⟩ | ⟨body, rest, rfl, hv⟩)
    · exact ⟨[], rest, rfl, hv⟩
    · exact ⟨b :: body, rest, rfl, hv⟩

theorem not_codeLeads_nil (hM : IsMark isFiller Mark) : ¬ CodeLeads isFiller Mark [] v := by
  rintro ⟨filler, rest, ht, -, hv⟩
  obtain ⟨_, _, rfl, -⟩ := hM.2 rest v hv
  simp at ht

theorem not_lineLeads_nil (hM : IsMark isFiller Mark) : ¬ LineLeads isFiller Mark [] v := by
  rintro ⟨body, rest, ht, -, hv⟩
  obtain ⟨rfl, rfl⟩ := List.append_eq_nil_iff.1 ht.symm
  exact not_codeLeads_nil hM hv

theorem not_blockLeads_nil : ¬ BlockLeads isFiller Mark [] v := by
  rintro ⟨body, rest, ht, -⟩
  simp at ht

end Leads

/-- A table entry at a point of a text picks from what the text leads to there. -/
structure Reach.Exact {α : Type} (isFiller : UInt8 → Bool) (Mark : Text → α → Prop) (r : Reach α)
    (t : Text) : Prop where
  code : Picks r.code (CodeLeads isFiller Mark t)
  line : Picks r.line (LineLeads isFiller Mark t)
  block : Picks r.block (BlockLeads isFiller Mark t)

namespace Reach

variable {α : Type} {isFiller : UInt8 → Bool} {Mark : Text → α → Prop}

theorem exact_nothing (hM : IsMark isFiller Mark) : Exact isFiller Mark nothing [] where
  code := .none fun _ => not_codeLeads_nil hM
  line := .none fun _ => not_lineLeads_nil hM
  block := .none fun _ => not_blockLeads_nil

/-- The code part of a step. The marks begin no filler, so at most one way is open at each byte. -/
theorem picks_step_code (hM : IsMark isFiller Mark) {b : UInt8} {t : Text} {goal : Option α}
    {first second : Reach α} (hgoal : Picks goal (Mark (b :: t))) (h₁ : Exact isFiller Mark first t)
    (h₂ : Exact isFiller Mark second t.tail) :
    Picks (step isFiller b t.head? goal first second).code (CodeLeads isFiller Mark (b :: t)) := by
  have hmark : ∀ v, Mark (b :: t) v → b ≠ slash ∧ isFiller b = false := by
    intro v hv
    obtain ⟨_, _, ht, hb, hf⟩ := hM.2 _ v hv
    obtain ⟨rfl, rfl⟩ := List.cons.inj ht
    exact ⟨hb, hf⟩
  simp only [step]
  split_ifs with hl hb hf
  · simp only [Bool.and_eq_true, beq_iff_eq, List.head?_eq_some_iff] at hl
    obtain ⟨rfl, more, rfl⟩ := hl
    refine h₂.line.congr fun v => ?_
    have hm : ¬ Mark (slash :: slash :: more) v := fun hv => (hmark v hv).1 rfl
    simp [codeLeads_cons, hM.1, hm, show slash ≠ asterisk by decide]
  · simp only [Bool.and_eq_true, beq_iff_eq, List.head?_eq_some_iff] at hb
    obtain ⟨rfl, more, rfl⟩ := hb
    refine h₂.block.congr fun v => ?_
    have hm : ¬ Mark (slash :: asterisk :: more) v := fun hv => (hmark v hv).1 rfl
    simp [codeLeads_cons, hM.1, hm, show asterisk ≠ slash by decide]
  · refine h₁.code.congr fun v => ?_
    have hs : b ≠ slash := by rintro rfl; rw [hM.1] at hf; cases hf
    have hm : ¬ Mark (b :: t) v := fun hv => by rw [(hmark v hv).2] at hf; cases hf
    simp [codeLeads_cons, hs, hf, hm]
  · refine hgoal.congr fun v => ?_
    simp only [Bool.and_eq_true, beq_iff_eq, List.head?_eq_some_iff] at hl hb
    have hl' : ¬ ∃ more, b = slash ∧ t = slash :: more ∧ LineLeads isFiller Mark more v :=
      fun ⟨more, h, ht, _⟩ => hl ⟨h, more, ht⟩
    have hb' : ¬ ∃ more, b = slash ∧ t = asterisk :: more ∧ BlockLeads isFiller Mark more v :=
      fun ⟨more, h, ht, _⟩ => hb ⟨h, more, ht⟩
    simp [codeLeads_cons, hf, hl', hb']

theorem exact_step (hM : IsMark isFiller Mark) {b : UInt8} {t : Text} {goal : Option α}
    {first second : Reach α} (hgoal : Picks goal (Mark (b :: t))) (h₁ : Exact isFiller Mark first t)
    (h₂ : Exact isFiller Mark second t.tail) :
    Exact isFiller Mark (step isFiller b t.head? goal first second) (b :: t) where
  code := picks_step_code hM hgoal h₁ h₂
  line := by
    have hcode := picks_step_code hM hgoal h₁ h₂
    simp only [step] at hcode ⊢
    by_cases hb : b = newline
    · rw [if_pos (beq_iff_eq.2 hb)]
      refine hcode.congr fun v => ?_
      simp [lineLeads_cons, hb]
    · rw [if_neg (by simpa using hb)]
      refine (h₁.line.or hcode).congr fun v => ?_
      simp [lineLeads_cons, hb, or_comm]
  block := by
    simp only [step]
    split_ifs with hb
    · simp only [Bool.and_eq_true, beq_iff_eq, List.head?_eq_some_iff] at hb
      obtain ⟨rfl, more, rfl⟩ := hb
      refine (h₂.code.or h₁.block).congr fun v => ?_
      simp [blockLeads_cons (b := asterisk)]
    · refine h₁.block.congr fun v => ?_
      simp only [Bool.and_eq_true, beq_iff_eq, List.head?_eq_some_iff] at hb
      rw [blockLeads_cons, or_iff_right]
      exact fun ⟨more, h, ht, _⟩ => hb ⟨h, more, ht⟩

end Reach

section Table

/-- The brace that opens a body. -/
def OpensBody (t : Text) (_ : Unit) : Prop := ∃ rest, t = openBrace :: rest

/-- A parenthesis from which blanks and comments lead to a body. -/
def ClosesParams (t v : Text) : Prop :=
  v = t ∧ ∃ rest, t = closeParen :: rest ∧ CodeLeads isSpace OpensBody rest ()

theorem isMark_opensBody : IsMark isSpace OpensBody := by
  refine ⟨by decide, ?_⟩
  rintro _ _ ⟨rest, rfl⟩
  exact ⟨openBrace, rest, rfl, by decide, by decide⟩

theorem isMark_closesParams : IsMark isParam ClosesParams := by
  refine ⟨by decide, ?_⟩
  rintro _ _ ⟨-, rest, rfl, -⟩
  exact ⟨closeParen, rest, rfl, by decide, by decide⟩

/-- The entry for the first point of a text. -/
def prospectAt (t : Text) : Prospect := (prospects t).headD .nothing

theorem prospects_cons (b : UInt8) (t : Text) :
    prospects (b :: t) = prospect b t (prospects t) :: prospects t := by
  have hfold : ∀ t : Text, (t.foldr (fun b (s : Text × List Prospect) =>
      (b :: s.1, prospect b s.1 s.2 :: s.2)) ([], [])).1 = t := by
    intro t
    induction t with
    | nil => rfl
    | cons b t ih => simp [ih]
  simp only [prospects, List.foldr_cons]
  rw [hfold]

theorem prospects_tail (t : Text) : (prospects t).tail = prospects t.tail := by
  cases t with
  | nil => rfl
  | cons b t => rw [prospects_cons, List.tail_cons, List.tail_cons]

theorem prospects_drop (n : Nat) (t : Text) : (prospects t).drop n = prospects (t.drop n) := by
  induction n generalizing t with
  | zero => rfl
  | succ n ih =>
    cases t with
    | nil => rfl
    | cons b t => rw [prospects_cons, List.drop_succ_cons, List.drop_succ_cons, ih]

theorem prospectAt_cons (b : UInt8) (t : Text) :
    prospectAt (b :: t) = prospect b t (prospects t) := by
  rw [prospectAt, prospects_cons, List.headD_cons]

/-- The table is exact at every point: from the end of the text backwards, each entry is a step from
the two after it. -/
theorem prospectAt_exact (t : Text) :
    (prospectAt t).body.Exact isSpace OpensBody t ∧
      (prospectAt t).params.Exact isParam ClosesParams t := by
  induction hn : t.length using Nat.strongRecOn generalizing t with
  | ind n ih =>
    cases t with
    | nil => exact ⟨Reach.exact_nothing isMark_opensBody, Reach.exact_nothing isMark_closesParams⟩
    | cons b t =>
      have hlen : t.length < n := by simp [← hn]
      have h₁ := ih _ hlen t rfl
      have h₂ := ih _ (Nat.lt_of_le_of_lt (by simp) hlen) t.tail rfl
      have hbody : Picks (if b == openBrace then some () else none) (OpensBody (b :: t)) := by
        split_ifs with hb
        · exact .some ⟨t, by rw [beq_iff_eq.1 hb]⟩
        · refine .none ?_
          rintro _ ⟨rest, ht⟩
          exact hb (beq_iff_eq.2 (List.cons.inj ht).1)
      have hclose : Picks (if b == closeParen && (prospectAt t).body.code.isSome then some (b :: t)
          else none) (ClosesParams (b :: t)) := by
        have hcode := h₁.1.code.isSome_iff
        split_ifs with hb
        · simp only [Bool.and_eq_true, beq_iff_eq, hcode] at hb
          obtain ⟨rfl, ⟨⟩, hv⟩ := hb
          exact .some ⟨rfl, t, rfl, hv⟩
        · refine .none ?_
          rintro _ ⟨-, rest, ht, hv⟩
          obtain ⟨rfl, rfl⟩ := List.cons.inj ht
          simp only [beq_self_eq_true, Bool.true_and] at hb
          exact hb (hcode.2 ⟨(), hv⟩)
      rw [prospectAt_cons]
      simp only [prospect, prospects_tail]
      exact ⟨Reach.exact_step isMark_opensBody hbody h₁.1 h₂.1,
        Reach.exact_step isMark_closesParams hclose h₁.2 h₂.2⟩

end Table
end ScriptNav.Script
