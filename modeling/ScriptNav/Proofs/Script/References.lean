import ScriptNav.Proofs.Script.ModulePathRun
import ScriptNav.Proofs.Text.Line
import ScriptNav.Script.Reference

/-! The reference at an offset against a description that names no search: the longest identifier that
touches the offset, and what stands on its line before and behind it. -/
namespace ScriptNav.Script

open Text

/-- The bytes from `start` to `stop` are all the identifier bytes around an offset. -/
structure IdentifierRun (t : Text) (offset : Int) (start stop : Nat) : Prop where
  start_le : start ≤ offset
  le_stop : offset ≤ stop
  stop_le : stop ≤ t.length
  word : ∀ b ∈ (t.take stop).drop start, isWord b = true
  left : ∀ b, (t.take start).getLast? = some b → isWord b = false
  right : ∀ b, (t.drop stop).head? = some b → isWord b = false

/-- An identifier byte stands at an offset or just before it. -/
def TouchesWord (t : Text) (offset : Int) : Prop :=
  ∃ i : Nat, (i = offset ∨ i + 1 = offset) ∧ ∃ b, t[i]? = some b ∧ isWord b = true

/-- The separator `::` stands before `start` on its line, with blanks in between; `front` is what the
line holds before the separator and the blanks in front of that. -/
def Separated (t : Text) (start : Nat) (front : Text) : Prop :=
  ∃ before blanks blanks',
    t.take start = before ++ (front ++ (blanks ++ colon :: colon :: blanks')) ∧
    (before = [] ∨ before.getLast? = some newline) ∧ newline ∉ front ++ (blanks ++ blanks') ∧
    IsLastRun isSpace front blanks ∧ ∀ b ∈ blanks', isSpace b = true

/-- An argument list opens behind `stop` on the same line, after blanks. -/
def CallAfter (t : Text) (stop : Nat) : Prop :=
  ∃ blanks rest, t.drop stop = blanks ++ openParen :: rest ∧ newline ∉ blanks ∧
    ∀ b ∈ blanks, isSpace b = true

/-- A reference says what stands on its line: the name from its start to its stop, a call or else a
pointer, and the longest module path before the separator. -/
structure Describes (t : Text) (r : Reference) : Prop where
  name : r.name = (t.take r.stop).drop r.start
  call : CallAfter t r.stop → r.shape = .call
  pointer : ¬ CallAfter t r.stop → r.shape = .pointer
  bare : (¬ ∃ front, Separated t r.start front) → r.namespacePath = []
  qualified : ∀ front, Separated t r.start front → IsTrailingPath front r.namespacePath

section Identifier
variable {t : Text} {offset : Int} {start stop : Nat}

/-- There is a run around every offset of a text, be it empty. -/
theorem exists_identifierRun (h0 : 0 ≤ offset) (h1 : offset ≤ t.length) :
    ∃ start stop, IdentifierRun t offset start stop := by
  obtain ⟨o, rfl⟩ := Int.eq_ofNat_of_zero_le h0
  have ho : o ≤ t.length := by omega
  obtain ⟨before, back, hback, hb⟩ := exists_isLastRun isWord (t.take o)
  obtain ⟨ahead, after, hahead, ha⟩ := exists_isRun isWord (t.drop o)
  have hlen : o = before.length + back.length := by
    rw [← List.length_append, ← hback, List.length_take, Nat.min_eq_left ho]
  have ht : t = before ++ (back ++ (ahead ++ after)) := by
    rw [← hahead, ← List.append_assoc, ← hback, List.take_append_drop]
  subst ht
  refine ⟨before.length, before.length + back.length + ahead.length, ?_, ?_, ?_, ?_, ?_, ?_⟩
  · omega
  · omega
  · simp; omega
  · intro b hb'
    have hdrop : ((before ++ (back ++ (ahead ++ after))).take
        (before.length + back.length + ahead.length)).drop before.length = back ++ ahead := by
      rw [Nat.add_assoc, List.take_length_add_append, List.drop_left, List.take_length_add_append,
        List.take_left]
    rw [hdrop, List.mem_append] at hb'
    exact hb'.elim (hb.all b) (ha.all b)
  · intro b hb'
    rw [List.take_left] at hb'
    exact hb.stop b hb'
  · intro b hb'
    have hdrop : (before ++ (back ++ (ahead ++ after))).drop
        (before.length + back.length + ahead.length) = after := by
      simp [← List.drop_drop]
    rw [hdrop] at hb'
    exact ha.stop b hb'

/-- The two counts from an offset meet the ends of the run around it. -/
theorem IdentifierRun.identifierAt_eq (h : IdentifierRun t offset start stop) :
    identifierAt t offset.toNat = (start, stop) := by
  obtain ⟨o, rfl⟩ := Int.eq_ofNat_of_zero_le (Int.le_trans (Int.natCast_nonneg start) h.start_le)
  have hs : start ≤ o := by have := h.start_le; omega
  have he : o ≤ stop := by have := h.le_stop; omega
  have hstop := h.stop_le
  have hback : IsLastRun isWord (t.take start) ((t.take o).drop start) := by
    refine ⟨fun b hb => h.word b ?_, h.left⟩
    rw [List.drop_take] at hb ⊢
    exact List.take_subset_take_left _ (by omega) hb
  have hahead : IsRun isWord ((t.take stop).drop o) (t.drop stop) := by
    refine ⟨fun b hb => h.word b ?_, h.right⟩
    rw [← Nat.add_sub_cancel' hs, ← List.drop_drop] at hb
    exact List.mem_of_mem_drop hb
  have htake : t.take start ++ (t.take o).drop start = t.take o := by
    rw [← Nat.min_eq_left hs, ← List.take_take, Nat.min_eq_left hs, List.take_append_drop]
  have hdrop : (t.take stop).drop o ++ t.drop stop = t.drop o := by
    rw [← List.drop_append_of_le_length (by simp; omega), List.take_append_drop]
  have hb := congrArg List.length hback.takeWhile_reverse_eq
  have ha := congrArg List.length hahead.takeWhile_eq
  rw [htake] at hb
  rw [hdrop] at ha
  simp only [List.length_reverse, List.length_drop, List.length_take] at hb ha
  simp only [identifierAt, Int.toNat_natCast, hb, ha, Prod.mk.injEq]
  omega

/-- A run is not empty if and only if an identifier byte touches the offset. -/
theorem IdentifierRun.touchesWord_iff (h : IdentifierRun t offset start stop) :
    TouchesWord t offset ↔ start < stop := by
  have hs := h.start_le
  have he := h.le_stop
  have hstop := h.stop_le
  have hword : ∀ i, start ≤ i → i < stop → ∃ b, t[i]? = some b ∧ isWord b = true := by
    intro i hsi hit
    refine ⟨t[i], List.getElem?_eq_getElem _, h.word _ ?_⟩
    rw [List.mem_iff_getElem]
    exact ⟨i - start, by simp; omega, by simp [Nat.add_sub_cancel' hsi]⟩
  constructor
  · rintro ⟨i, hi, b, hb, hbw⟩
    by_contra hlt
    have hs' : stop = start := by omega
    rcases hi with hi | hi
    · have hi' : i = stop := by omega
      rw [h.right b (by rw [List.head?_drop, ← hi', hb])] at hbw
      cases hbw
    · have hi' : start = i + 1 := by omega
      rw [h.left b (by rw [List.getLast?_take, hi']; simp [hb])] at hbw
      cases hbw
  · intro hlt
    by_cases hse : offset = stop
    · obtain ⟨b, hb⟩ := hword (stop - 1) (by omega) (by omega)
      exact ⟨stop - 1, .inr (by omega), b, hb⟩
    · obtain ⟨b, hb⟩ := hword offset.toNat (by omega) (by omega)
      exact ⟨offset.toNat, .inl (by omega), b, hb⟩

end Identifier

section Line
variable {t : Text} {start stop : Nat}

theorem opensCall_iff {back : Text} :
    opensCall back = true ↔
      ∃ blanks rest, back = blanks ++ openParen :: rest ∧ ∀ b ∈ blanks, isSpace b = true := by
  rw [opensCall, startsWith, List.isPrefixOf_iff_prefix]
  constructor
  · rintro ⟨rest, hrest⟩
    refine ⟨back.takeWhile isSpace, rest, ?_, (isRun_while isSpace back).all⟩
    rw [← List.singleton_append, hrest, List.takeWhile_append_dropWhile]
  · rintro ⟨blanks, rest, rfl, hblanks⟩
    have hrun : IsRun isSpace blanks (openParen :: rest) :=
      ⟨hblanks, fun b hb => by cases hb; decide⟩
    exact ⟨rest, by rw [hrun.dropWhile_eq]; rfl⟩

/-- The first line opens a call whether or not a carriage return ends it. -/
theorem opensCall_firstLine_iff :
    opensCall (firstLine (t.drop stop)) = true ↔ CallAfter t stop := by
  obtain ⟨tail, hline, htail⟩ := takeWhile_eq_firstLine (t.drop stop)
  have hrun := isRun_while (· != newline) (t.drop stop)
  rw [opensCall_iff]
  constructor
  · rintro ⟨blanks, rest, hfirst, hblanks⟩
    refine ⟨blanks, rest ++ (tail ++ (t.drop stop).dropWhile (· != newline)), ?_, fun hn => ?_,
      hblanks⟩
    · conv_lhs => rw [← List.takeWhile_append_dropWhile (p := (· != newline)) (l := t.drop stop)]
      rw [hline, hfirst]
      simp
    · have := hrun.all newline (by rw [hline, hfirst]; simp [hn])
      simp at this
  · rintro ⟨blanks, rest, ht, hn, hblanks⟩
    have hall : ∀ b ∈ blanks, (b != newline) = true := fun b hb => bne_iff_ne.2 fun h => hn (h ▸ hb)
    have htake : (t.drop stop).takeWhile (· != newline) =
        blanks ++ openParen :: rest.takeWhile (· != newline) := by
      rw [ht, List.takeWhile_append_of_pos hall]
      rfl
    rw [hline] at htake
    rcases htail with rfl | rfl
    · exact ⟨blanks, _, by rw [← htake, List.append_nil], hblanks⟩
    · rcases List.eq_nil_or_concat (rest.takeWhile (· != newline)) with hr | ⟨more, c, hr⟩
      · rw [hr] at htake
        exact absurd (List.append_inj_right' htake rfl) (by decide)
      · rw [hr, List.concat_eq_append, ← List.cons_append, ← List.append_assoc] at htake
        exact ⟨blanks, more, List.append_inj_left' htake rfl, hblanks⟩

theorem qualifier?_lastLine_eq_some_iff {path : Text} :
    qualifier? (lastLine (t.take start)) = some path ↔
      ∃ front, Separated t start front ∧ path = trailingPath front := by
  rw [qualifier?, Option.map_eq_some_iff]
  constructor
  · rintro ⟨rest, h, rfl⟩
    obtain ⟨before, line, htake, hline⟩ := exists_isLastRun (· != newline) (t.take start)
    rw [htake, lastLine_append hline] at h
    obtain ⟨_, blanks', rfl, hblanks'⟩ := exists_isLastRun isSpace line
    rw [hblanks'.dropEndWhile_eq] at h
    obtain rfl := before?_eq_some_iff.1 h
    obtain ⟨front, blanks, rfl, hblanks⟩ := exists_isLastRun isSpace rest
    obtain ⟨hbefore, hn⟩ := isLastRun_line.1 hline
    refine ⟨front, ⟨before, blanks, blanks', by simp [htake], hbefore, ?_, hblanks, hblanks'.all⟩,
      by rw [hblanks.dropEndWhile_eq]⟩
    simp only [List.mem_append, not_or] at hn ⊢
    exact ⟨hn.1.1.1, hn.1.1.2, hn.2⟩
  · rintro ⟨front, ⟨before, blanks, blanks', htake, hbefore, hn, hblanks, hblanks'⟩, rfl⟩
    have hline :
        IsLastRun (· != newline) before (front ++ (blanks ++ colon :: colon :: blanks')) := by
      refine isLastRun_line.2 ⟨hbefore, ?_⟩
      simp only [List.mem_append, List.mem_cons, not_or] at hn ⊢
      exact ⟨hn.1, hn.2.1, by decide, by decide, hn.2.2⟩
    have hend : IsLastRun isSpace (front ++ blanks ++ [colon, colon]) blanks' := by
      refine ⟨hblanks', fun b hb => ?_⟩
      rw [List.getLast?_append, List.getLast?_cons_cons, List.getLast?_singleton, Option.some_or] at hb
      cases hb
      decide
    have hsplit : front ++ (blanks ++ colon :: colon :: blanks') =
        front ++ blanks ++ [colon, colon] ++ blanks' := by simp
    refine ⟨front ++ blanks, ?_, by rw [hblanks.dropEndWhile_eq]⟩
    rw [htake, lastLine_append hline, hsplit, hend.dropEndWhile_eq]
    exact before?_eq_some_iff.2 rfl

/-- A separator stands before an identifier just where a module path is read there, be it empty. -/
theorem exists_separated_iff :
    (∃ front, Separated t start front) ↔ qualifier? (lastLine (t.take start)) ≠ none := by
  rw [Option.ne_none_iff_exists']
  simp only [qualifier?_lastLine_eq_some_iff]
  exact ⟨fun ⟨front, hf⟩ => ⟨_, front, hf, rfl⟩, fun ⟨_, front, hf, _⟩ => ⟨front, hf⟩⟩

instance (t : Text) (start : Nat) : Decidable (∃ front, Separated t start front) :=
  decidable_of_iff (qualifier? (lastLine (t.take start)) ≠ none) exists_separated_iff.symm

end Line

section Reference
variable {t : Text} {offset : Int} {start stop : Nat}

/-- A reference is worked out from the ends of its identifier alone. -/
theorem IdentifierRun.referenceAt_eq (h : IdentifierRun t offset start stop) :
    referenceAt t offset = if start == stop then none else
      match qualifier? (lastLine (t.take start)), opensCall (firstLine (t.drop stop)) with
      | none, false => none
      | none, true => some ⟨(t.take stop).drop start, [], .call, start, stop⟩
      | some path, called =>
        some ⟨(t.take stop).drop start, path, if called then .call else .pointer, start, stop⟩ := by
  have hs := h.start_le
  have he := h.le_stop
  have hstop := h.stop_le
  have hin : (decide (offset < 0) || decide ((t.length : Int) < offset)) = false := by
    simp only [Bool.or_eq_false_iff, decide_eq_false_iff_not]
    omega
  cases hq : qualifier? (lastLine (t.take start)) <;>
    cases hc : opensCall (firstLine (t.drop stop)) <;>
    simp [referenceAt, hin, h.identifierAt_eq, hq, hc]

/-- There is a reference to an identifier if and only if its line says so. -/
theorem IdentifierRun.exists_referenceAt_iff (h : IdentifierRun t offset start stop) :
    (∃ r, referenceAt t offset = some r) ↔
      start < stop ∧ ((∃ front, Separated t start front) ∨ CallAfter t stop) := by
  have hle : start ≤ stop := by have := h.start_le; have := h.le_stop; omega
  rw [h.referenceAt_eq]
  by_cases hss : start = stop
  · simp [hss]
  have hlt : start < stop := by omega
  have hne : (start == stop) = false := by simpa using hss
  simp only [hne, Bool.false_eq_true, ↓reduceIte, hlt, true_and]
  rw [exists_separated_iff, ← opensCall_firstLine_iff]
  cases qualifier? (lastLine (t.take start)) with
  | none => cases opensCall (firstLine (t.drop stop)) <;> simp
  | some path => simp

/-- A reference says what its line says. -/
theorem IdentifierRun.describes (h : IdentifierRun t offset start stop) {r : Reference}
    (hr : referenceAt t offset = some r) : r.start = start ∧ r.stop = stop ∧ Describes t r := by
  have hcall : opensCall (firstLine (t.drop stop)) = true ↔ CallAfter t stop :=
    opensCall_firstLine_iff
  have hsep (front : Text) (hf : Separated t start front) :
      qualifier? (lastLine (t.take start)) = some (trailingPath front) :=
    qualifier?_lastLine_eq_some_iff.2 ⟨front, hf, rfl⟩
  rw [h.referenceAt_eq] at hr
  split_ifs at hr
  cases hq : qualifier? (lastLine (t.take start)) with
  | none =>
    have hnone : ¬ ∃ front, Separated t start front := by
      rintro ⟨front, hf⟩
      rw [hsep front hf] at hq
      cases hq
    cases hc : opensCall (firstLine (t.drop stop)) with
    | false => simp [hq, hc] at hr
    | true =>
      simp only [hq, hc, Option.some.injEq] at hr
      subst hr
      exact ⟨rfl, rfl, rfl, fun _ => rfl, fun hn => absurd (hcall.1 hc) hn, fun _ => rfl,
        fun front hf => absurd ⟨front, hf⟩ hnone⟩
  | some path =>
    simp only [hq, Option.some.injEq] at hr
    subst hr
    refine ⟨rfl, rfl, rfl, fun hc => ?_, fun hc => ?_, fun hn => ?_, fun front hf => ?_⟩
    · simp [hcall.2 hc]
    · simp [mt hcall.1 hc]
    · obtain ⟨front, hf, -⟩ := qualifier?_lastLine_eq_some_iff.1 hq
      exact absurd ⟨front, hf⟩ hn
    · have hpath := hsep front hf
      rw [hq] at hpath
      cases hpath
      exact isTrailingPath_trailingPath front

/-- A reference is one to the identifier around the offset, and says what its line says. -/
theorem describes_of_referenceAt {r : Reference} (hr : referenceAt t offset = some r) :
    IdentifierRun t offset r.start r.stop ∧ r.start < r.stop ∧ Describes t r := by
  have hin : 0 ≤ offset ∧ offset ≤ t.length := by
    rw [referenceAt] at hr
    split_ifs at hr with hout
    simp at hout
    omega
  obtain ⟨start, stop, h⟩ := exists_identifierRun hin.1 hin.2
  obtain ⟨hlt, -⟩ := h.exists_referenceAt_iff.1 ⟨r, hr⟩
  obtain ⟨rfl, rfl, hdescribes⟩ := h.describes hr
  exact ⟨h, hlt, hdescribes⟩

/-- The name of a reference is an identifier. -/
theorem isWordText_of_referenceAt {r : Reference} (hr : referenceAt t offset = some r) :
    IsWordText r.name := by
  obtain ⟨h, hlt, hdescribes⟩ := describes_of_referenceAt hr
  have hstop := h.stop_le
  rw [hdescribes.name]
  refine ⟨List.ne_nil_of_length_pos ?_, h.word⟩
  rw [List.length_drop, List.length_take_of_le hstop]
  omega

end Reference

/-- The reference at an offset. There is one if and only if the offset touches an identifier that is
called or follows a separator on its line; it says what the line says; and it is the same at every
offset from the beginning of the identifier to its end. -/
theorem referenceAt_iff_line (t : Text) (offset : Int) :
    ((∃ r, referenceAt t offset = some r) ↔
      (0 ≤ offset ∧ offset ≤ t.length) ∧ TouchesWord t offset ∧
      ∃ start stop, IdentifierRun t offset start stop ∧
        ((∃ front, Separated t start front) ∨ CallAfter t stop)) ∧
    ∀ r, referenceAt t offset = some r →
      IdentifierRun t offset r.start r.stop ∧ Describes t r ∧
      ∀ offset' : Int, r.start ≤ offset' → offset' ≤ r.stop → referenceAt t offset' = some r := by
  have hin : ∀ r, referenceAt t offset = some r → 0 ≤ offset ∧ offset ≤ t.length := by
    intro r hr
    rw [referenceAt] at hr
    split_ifs at hr with hout
    simp at hout
    omega
  constructor
  · constructor
    · rintro ⟨r, hr⟩
      obtain ⟨h0, h1⟩ := hin r hr
      obtain ⟨start, stop, h⟩ := exists_identifierRun h0 h1
      obtain ⟨hlt, hline⟩ := h.exists_referenceAt_iff.1 ⟨r, hr⟩
      exact ⟨⟨h0, h1⟩, h.touchesWord_iff.2 hlt, start, stop, h, hline⟩
    · rintro ⟨-, htouch, start, stop, h, hline⟩
      exact h.exists_referenceAt_iff.2 ⟨h.touchesWord_iff.1 htouch, hline⟩
  · intro r hr
    obtain ⟨h0, h1⟩ := hin r hr
    obtain ⟨start, stop, h⟩ := exists_identifierRun h0 h1
    obtain ⟨rfl, rfl, hdesc⟩ := h.describes hr
    refine ⟨h, hdesc, fun offset' hs he => ?_⟩
    have h' : IdentifierRun t offset' r.start r.stop := { h with start_le := hs, le_stop := he }
    rw [h'.referenceAt_eq, ← h.referenceAt_eq, hr]

example : referenceAt ("x = a::b/c\\d :: f;" : String) 16 =
    some ⟨("f" : String), ("b/c\\d" : String), .pointer, 16, 17⟩ := by
  decide

end ScriptNav.Script
