import ScriptNav.Proofs.Server.PointOffsets

/-! Changes of a text by ranges that may lie anywhere: behind the end of a line or of the text, inside
a pair of units, or with their ends in the wrong order. Each change is made within the text, and no
change makes an ill-formed text of a well-formed one. -/
namespace ScriptNav

open Text Utf8

/-- What lies between two offsets of a text, if they are offsets in it and in their order. -/
def Text.slice? (t : Text) (start stop : Nat) : Option Text :=
  if start ≤ stop ∧ stop ≤ t.length then some ((t.take stop).drop start) else none

namespace Server

/-- The offset of a column, by slices of the text from the offsets that the scan comes to. -/
def columnOffset? (t : Text) (limit done : UInt32) (i : Nat) : Option Nat :=
  if i < t.length ∧ done < limit then
    match t.slice? i t.length, t.slice? (i + 1) t.length with
    | some (b :: rest), some next =>
      if b == newline || (b == carriage && next.head? == some newline) then some i
      else if limit < done + units (decode b rest).1 then some i
      else columnOffset? t limit (done + units (decode b rest).1) (i + (decode b rest).2)
    | _, _ => none
  else some i
termination_by t.length - i
decreasing_by
  have := decode_width_pos b rest
  omega

/-- The offset of a point, by slices of the text. -/
def offsetOf? (t : Text) (p : Point) : Option Nat :=
  match fromLine? p.line.toNat t with
  | none => some t.length
  | some rest => columnOffset? t p.character 0 (t.length - rest.length)

/-- The text after a change, by slices of the text before it. -/
def Change.sliced? (t : Text) (c : Change) : Option Text :=
  match c.range with
  | none => some c.text
  | some r => do
    let start ← offsetOf? t r.start
    let stop ← offsetOf? t r.stop
    let front ← t.slice? 0 start
    let rest ← t.slice? (max start stop) t.length
    return front ++ c.text ++ rest

/-- The text `t'` is `t` with `new` in place of what lies between two offsets. -/
structure Replaces (t : Text) (start stop : Nat) (new t' : Text) : Prop where
  le : start ≤ stop
  inside : stop ≤ t.length
  before : t'.take start = t.take start
  between : (t'.drop start).take new.length = new
  after : t'.drop (start + new.length) = t.drop stop

section Slices
variable {t : Text} {start stop i : Nat} {limit done : UInt32}

theorem slice?_eq (hle : start ≤ stop) (hin : stop ≤ t.length) :
    t.slice? start stop = some ((t.take stop).drop start) :=
  if_pos ⟨hle, hin⟩

theorem slice?_from (h : i ≤ t.length) : t.slice? i t.length = some (t.drop i) := by
  rw [slice?_eq h (Nat.le_refl _), List.take_length]

/-- The slices at an offset are the rest of the text and the rest behind its first byte. -/
theorem drop_eq_of_slices {b : UInt8} {rest next : Text} (hlt : i < t.length)
    (hrest : t.slice? i t.length = some (b :: rest)) (hnext : t.slice? (i + 1) t.length = some next) :
    t.drop i = b :: rest ∧ next = rest := by
  rw [slice?_from (Nat.le_of_lt hlt), Option.some.injEq] at hrest
  rw [slice?_from hlt, Option.some.injEq] at hnext
  refine ⟨hrest, ?_⟩
  rw [← hnext, Nat.succ_eq_add_one, ← List.drop_drop, hrest, List.drop_one, List.tail_cons]

/-- The scan never leaves the text, since what is decoded at an offset ends in the text. -/
theorem columnOffset?_eq (h : i ≤ t.length) :
    columnOffset? t limit done i = some (i + columnLength limit done 0 (t.drop i)) := by
  fun_induction columnOffset? t limit done i with
  | case1 done i hin b rest next hnext hrest hbreak =>
    obtain ⟨hdrop, rfl⟩ := drop_eq_of_slices hin.1 hrest hnext
    rw [hdrop, columnLength_cons, if_neg (UInt32.not_le.2 hin.2), if_pos hbreak, Nat.add_zero]
  | case2 done i hin b rest next hnext hrest hbreak hwide =>
    obtain ⟨hdrop, rfl⟩ := drop_eq_of_slices hin.1 hrest hnext
    rw [hdrop, columnLength_cons, if_neg (UInt32.not_le.2 hin.2), if_neg hbreak, if_pos hwide,
      Nat.add_zero]
  | case3 done i hin b rest next hnext hrest hbreak hwide ih =>
    obtain ⟨hdrop, rfl⟩ := drop_eq_of_slices hin.1 hrest hnext
    have hlength := congrArg List.length hdrop
    have hwidth := decode_width_le b next
    rw [List.length_drop, List.length_cons] at hlength
    rw [ih (by omega), hdrop, columnLength_cons, if_neg (UInt32.not_le.2 hin.2), if_neg hbreak,
      if_neg hwide, ← hdrop, List.drop_drop, Nat.add_assoc]
  | case4 done i hin hnone =>
    have hrest : t.slice? i t.length = some (t[i] :: t.drop (i + 1)) := by
      rw [slice?_from h, List.drop_eq_getElem_cons hin.1]
    exact (hnone _ _ _ hrest (slice?_from hin.1)).elim
  | case5 done i hout =>
    by_cases hlt : i < t.length
    · have hle : limit ≤ done := UInt32.not_lt.1 fun hlimit => hout ⟨hlt, hlimit⟩
      rw [columnLength_of_le hle, Nat.add_zero]
    · rw [List.drop_eq_nil_of_le (Nat.le_of_not_lt hlt), columnLength, Nat.add_zero]

theorem offsetOf?_eq (t : Text) (p : Point) : offsetOf? t p = some (offsetOf t p) := by
  rw [offsetOf?, offsetOf]
  cases hline : fromLine? p.line.toNat t with
  | none => rfl
  | some rest =>
    obtain ⟨before, rfl, -⟩ := fromLine?_eq_some_iff.1 hline
    dsimp only
    rw [columnOffset?_eq (Nat.sub_le _ _), List.length_append, Nat.add_sub_cancel, List.drop_left]

end Slices

namespace Change

section Step
variable {t : Text} {c : Change} {r : Range}

theorem sliced?_eq (t : Text) (c : Change) : c.sliced? t = some (c.apply t) := by
  rw [sliced?, apply]
  cases c.range with
  | none => rfl
  | some r =>
    have hstart := offsetOf_le t r.start
    have hstop := offsetOf_le t r.stop
    simp only [offsetOf?_eq, Option.bind_eq_bind, Option.bind_some,
      slice?_eq (Nat.zero_le _) hstart, slice?_from (Nat.max_le.2 ⟨hstart, hstop⟩)]
    rfl

/-- A change replaces a piece of the text and keeps what lies before and after it. -/
theorem replaces_apply (h : c.range = some r) :
    Replaces t (offsetOf t r.start) (max (offsetOf t r.start) (offsetOf t r.stop)) c.text
      (c.apply t) := by
  have hstart := offsetOf_le t r.start
  have hstop := offsetOf_le t r.stop
  have hlength : (t.take (offsetOf t r.start)).length = offsetOf t r.start :=
    List.length_take_of_le hstart
  have happly : c.apply t = t.take (offsetOf t r.start) ++
      (c.text ++ t.drop (max (offsetOf t r.start) (offsetOf t r.stop))) := by
    rw [apply, h]
    exact List.append_assoc _ _ _
  refine ⟨Nat.le_max_left _ _, Nat.max_le.2 ⟨hstart, hstop⟩, ?_, ?_, ?_⟩
  · rw [happly, List.take_left' hlength]
  · rw [happly, List.drop_left' hlength, List.take_left]
  · rw [happly, ← List.drop_drop, List.drop_left' hlength, List.drop_left]

/-- A change leaves a well-formed text, since it cuts the text between characters. -/
theorem isUtf8_apply (ht : IsUtf8 t) (hc : IsUtf8 c.text) : IsUtf8 (c.apply t) := by
  rw [apply]
  split
  · exact hc
  · next r hr =>
    have hstart := (isCut_offsetOf ht r.start).boundary
    have hstop : IsBoundary t (max (offsetOf t r.start) (offsetOf t r.stop)) := by
      rcases Nat.le_total (offsetOf t r.start) (offsetOf t r.stop) with h | h
      · rw [Nat.max_eq_right h]
        exact (isCut_offsetOf ht r.stop).boundary
      · rw [Nat.max_eq_left h]
        exact hstart
    exact ((ht.split hstart).1.append hc).append (ht.split hstop).2

end Step

section Run
variable {t : Text} {changes : List Change}

theorem foldlM_sliced? (t : Text) (changes : List Change) :
    changes.foldlM sliced? t = some (applyAll t changes) := by
  induction changes generalizing t with
  | nil => rfl
  | cons c changes ih =>
    rw [List.foldlM_cons, sliced?_eq]
    exact ih (c.apply t)

theorem isUtf8_applyAll (ht : IsUtf8 t) (h : ∀ c ∈ changes, IsUtf8 c.text) :
    IsUtf8 (applyAll t changes) := by
  induction changes generalizing t with
  | nil => exact ht
  | cons c changes ih =>
    rw [List.forall_mem_cons] at h
    exact ih (isUtf8_apply ht h.1) h.2

theorem applyAll_take_succ {i : Nat} {c : Change} (h : changes[i]? = some c) :
    applyAll t (changes.take (i + 1)) = c.apply (applyAll t (changes.take i)) := by
  rw [applyAll, List.take_add_one, h, List.foldl_append]
  rfl

end Run

/-- Changes by any ranges are safe. All of the text that is looked at lies in the text; each change of
a range replaces a piece of what the changes before it left, and keeps all that lies before and after
the piece; and well-formed texts make a well-formed text after each of the changes. -/
theorem applyAll_isSafe (t : Text) (changes : List Change) :
    changes.foldlM sliced? t = some (applyAll t changes) ∧
    (∀ i c r u, changes[i]? = some c → c.range = some r → applyAll t (changes.take i) = u →
      Replaces u (offsetOf u r.start) (max (offsetOf u r.start) (offsetOf u r.stop)) c.text
        (applyAll t (changes.take (i + 1)))) ∧
    (IsUtf8 t → (∀ c ∈ changes, IsUtf8 c.text) →
      ∀ i, IsUtf8 (applyAll t (changes.take i))) := by
  refine ⟨foldlM_sliced? t changes, ?_, ?_⟩
  · rintro i c r _ hi hr rfl
    rw [applyAll_take_succ hi]
    exact replaces_apply hr
  · intro ht htexts i
    exact isUtf8_applyAll ht fun c hc => htexts c (List.mem_of_mem_take hc)

/-- A range that ends before it begins, in the middle of a pair, and one that lies behind the end. -/
theorem applyAll_isSafe_reversed :
    let t := ofString "😀\r\nx"
    let reversed : Range := ⟨⟨1, 7⟩, ⟨0, 1⟩⟩
    let changes : List Change :=
      [⟨some reversed, ofString "é"⟩, ⟨some ⟨⟨0, 1⟩, ⟨9, 0⟩⟩, []⟩, ⟨none, ofString "y"⟩]
    IsUtf8 t ∧ (∀ c ∈ changes, IsUtf8 c.text) ∧
    Replaces t 7 7 (ofString "é") (applyAll t (changes.take 1)) ∧
    ∀ i, IsUtf8 (applyAll t (changes.take i)) := by
  intro t reversed changes
  have ht : IsUtf8 t := by decide
  have htexts : ∀ c ∈ changes, IsUtf8 c.text := by decide
  obtain ⟨-, hreplaces, hutf8⟩ := applyAll_isSafe t changes
  have hfirst := hreplaces 0 _ reversed t rfl rfl rfl
  have hstart : offsetOf t reversed.start = 7 := by decide
  have hstop : offsetOf t reversed.stop = 0 := by decide
  rw [hstart, hstop] at hfirst
  exact ⟨ht, htexts, hfirst, hutf8 ht htexts⟩

end Change
end Server
end ScriptNav
