import ScriptNav.Json.Parser
import ScriptNav.Json.Printer
import ScriptNav.Proofs.Text.Cut
import ScriptNav.Proofs.Text.Utf8

/-! Quoted strings. What is written between quotes is read back as it was, character by character,
whether a character stands for itself or is written as an escape. -/
namespace ScriptNav.Json

open Text Utf8

section Escapes
variable (out t : Text)

theorem stringFrom_drop (skip : Nat) : stringFrom out skip t = stringFrom out 0 (t.drop skip) := by
  induction skip generalizing t with
  | zero => rfl
  | succ skip ih =>
    cases t with
    | nil => rfl
    | cons b t => rw [stringFrom, ih, List.drop_succ_cons]

theorem stringFrom_simple {c byte : UInt8} (hc : c ≠ 117) (h : simpleEscape? c = some byte) :
    stringFrom out 0 (backslash :: c :: t) = stringFrom (byte :: out) 0 t := by
  rw [stringFrom, if_neg (by decide), if_pos (by decide)]
  simp only [beq_iff_eq, if_neg hc, h]
  exact stringFrom_drop _ _ 1

theorem hexValue?_hexDigit : ∀ n < 16, hexValue? (hexDigit n) = some n := by
  decide

theorem hex4?_digits (code : Nat) (h : code < 0x10000) :
    hex4? (hexDigit (code / 4096 % 16) :: hexDigit (code / 256 % 16) :: hexDigit (code / 16 % 16) ::
      hexDigit (code % 16) :: t) = some code := by
  simp only [hex4?, List.take_succ_cons, List.take_zero, List.mapM_cons, List.mapM_nil,
    hexValue?_hexDigit _ (Nat.mod_lt _ (by decide)), Option.pure_def, Option.bind_eq_bind,
    Option.bind_some, Option.some.injEq]
  omega

/-- The escape of a code point below the surrogates stands for its character. -/
theorem stringFrom_unicode {code : Nat} (h : code < 0xD800) :
    stringFrom out 0 (unicodeEscape code ++ t) = stringFrom ((encode code).reverse ++ out) 0 t := by
  have hfour := fun t => hex4?_digits t code (by omega)
  have hescape : unicodeEscape? (hexDigit (code / 4096 % 16) :: hexDigit (code / 256 % 16) ::
      hexDigit (code / 16 % 16) :: hexDigit (code % 16) :: t) = some (code, 4) := by
    rw [unicodeEscape?, hfour, Option.map_some]
    dsimp only
    split
    · rw [if_neg (by simp; omega)]
    · rfl
  rw [unicodeEscape]
  simp only [List.cons_append, List.nil_append]
  rw [stringFrom, if_neg (by decide), if_pos (by decide)]
  simp only [beq_self_eq_true, ↓reduceIte, hescape]
  exact stringFrom_drop _ _ 5

end Escapes

/-- A byte that stands for itself in a string. -/
def IsPlain (b : UInt8) : Prop := b ≠ quote ∧ b ≠ backslash ∧ ¬ b < 32

theorem stringFrom_plain (out t : Text) {plain : Text} (h : ∀ b ∈ plain, IsPlain b) :
    stringFrom out 0 (plain ++ t) = stringFrom (plain.reverse ++ out) 0 t := by
  induction plain generalizing out with
  | nil => rfl
  | cons b plain ih =>
    obtain ⟨hquote, hback, hlow⟩ := h b List.mem_cons_self
    rw [List.cons_append, stringFrom.eq_def]
    dsimp only
    rw [if_neg (by simpa using hquote), if_neg (by simpa using hback), if_neg hlow,
      ih _ fun b hb => h b (List.mem_cons_of_mem _ hb)]
    simp

/-- The code points that are escaped by a letter or mark of their own. -/
def shortEscapes : List Nat := [34, 92, 8, 12, 10, 13, 9]

theorem escapeRune_short {code : Nat} (h : code ∈ shortEscapes) (bytes : Text) :
    ∃ c, escapeRune (code, bytes) = [backslash, c] ∧ c ≠ 117 ∧
      simpleEscape? c = some code.toUInt8 ∧ encode code = [code.toUInt8] := by
  simp only [shortEscapes, List.mem_cons, List.not_mem_nil, or_false] at h
  rcases h with rfl | rfl | rfl | rfl | rfl | rfl | rfl <;>
    exact ⟨_, rfl, by decide, by decide, by decide⟩

theorem escapeRune_of_notMem {code : Nat} (h : code ∉ shortEscapes) (bytes : Text) :
    escapeRune (code, bytes) =
      if code < 32 || isUnsafe code then unicodeEscape code
      else if code == replacement && bytes.length == 1 then "\\ufffd"
      else bytes := by
  simp only [shortEscapes, List.mem_cons, List.not_mem_nil, or_false, not_or] at h
  simp [escapeRune, h]

section Characters
variable {lead : UInt8} {cont : Text}

/-- The bytes of a character are plain if its code point is. -/
theorem isPlain_of_isCharacter (h : IsCharacter lead cont) (hquote : assemble lead cont ≠ 34)
    (hback : assemble lead cont ≠ 92) (hlow : ¬ assemble lead cont < 32) :
    ∀ b ∈ lead :: cont, IsPlain b := by
  have hhigh (b : UInt8) (hb : 0x80 ≤ b.toNat) : IsPlain b := by
    refine ⟨?_, ?_, ?_⟩
    · rintro rfl
      exact absurd hb (by decide)
    · rintro rfl
      exact absurd hb (by decide)
    · rw [UInt8.lt_iff_toNat_lt]
      exact fun hlt => absurd hb (by simp at hlt; omega)
  intro b hb
  rcases List.mem_cons.1 hb with rfl | hb
  · have hlead := toNat_of_announced h.length
    by_cases hnil : cont = []
    · subst hnil
      have hcode : assemble b [] = b.toNat := by simp [assemble, h.length]
      rw [hcode] at hquote hback hlow
      refine ⟨?_, ?_, ?_⟩
      · rintro rfl
        exact hquote rfl
      · rintro rfl
        exact hback rfl
      · rw [UInt8.lt_iff_toNat_lt]
        exact hlow
    · have := List.length_pos_iff.2 hnil
      exact hhigh b (by omega)
  · exact hhigh b (toNat_of_isContinuation (h.all_isContinuation b hb)).1

theorem stringFrom_escapeRune (h : IsCharacter lead cont) (out t : Text) :
    stringFrom out 0 (escapeRune (assemble lead cont, lead :: cont) ++ t) =
      stringFrom ((lead :: cont).reverse ++ out) 0 t := by
  have hplain := isPlain_of_isCharacter h
  have hbytes := encode_assemble h
  generalize assemble lead cont = code at hplain hbytes ⊢
  rw [← hbytes] at hplain ⊢
  by_cases hshort : code ∈ shortEscapes
  · obtain ⟨c, hescape, hc, hsimple, hcode⟩ := escapeRune_short hshort (encode code)
    rw [hescape, hcode]
    exact stringFrom_simple _ _ hc hsimple
  rw [escapeRune_of_notMem hshort]
  simp only [shortEscapes, List.mem_cons, not_or] at hshort
  split_ifs with hunicode hbad
  · refine stringFrom_unicode _ _ ?_
    simp only [isUnsafe, Bool.or_eq_true, decide_eq_true_eq, beq_iff_eq] at hunicode
    omega
  · -- The replacement character has three bytes, so it stands for no single stray byte here.
    simp only [Bool.and_eq_true, beq_iff_eq] at hbad
    rw [hbad.1] at hbad
    exact absurd hbad.2 (by decide)
  · refine stringFrom_plain _ _ (hplain hshort.1 hshort.2.1 ?_)
    intro hlow
    exact hunicode (by simp [hlow])

end Characters

theorem stringFrom_escaped {t : Text} (ht : IsUtf8 t) (out rest : Text) :
    stringFrom out 0 ((runes t).flatMap escapeRune ++ quote :: rest) =
      some (out.reverse ++ t, rest) := by
  induction ht generalizing out with
  | nil => simp [runes, runesFrom, stringFrom]
  | cons h _ ih =>
    rw [runes_character h, List.flatMap_cons, List.append_assoc, stringFrom_escapeRune h, ih]
    simp

/-- A quoted text is read back. -/
theorem string?_quoted {t : Text} (ht : IsUtf8 t) (rest : Text) :
    ∃ body, quoted t ++ rest = quote :: body ∧ string? body = some (t, rest) := by
  refine ⟨(runes t).flatMap escapeRune ++ quote :: rest, by simp [quoted], ?_⟩
  rw [string?, stringFrom_escaped ht]
  simp [valid_iff.2 ht]

end ScriptNav.Json
