import ScriptNav.Proofs.Script.Dialect
import ScriptNav.Proofs.Script.ModulePathRun

/-! The files that a module names. A relative path names a file in some directory if its last segments
are those of the file, whatever the case of the ASCII letters. Letters outside ASCII that fold into it
do not matter: they take more than one byte, and bytes are counted before letters are compared. -/
namespace ScriptNav

open Text Utf8

namespace Utf8

theorem length_codes_le (t : Text) : (codes t).length ≤ t.length := by
  induction hn : t.length using Nat.strongRecOn generalizing t with
  | ind n ih =>
    cases t with
    | nil => exact Nat.zero_le n
    | cons lead rest =>
      rw [List.length_cons] at hn
      have hdrop : (rest.drop ((decode lead rest).2 - 1)).length ≤ rest.length := by
        rw [List.length_drop]
        omega
      have hcodes := ih _ (by omega) (rest.drop ((decode lead rest).2 - 1)) rfl
      rw [codes_cons, List.length_cons]
      omega

/-- A byte outside ASCII begins a character of several bytes, or belongs to none. -/
theorem decode_of_le {lead : UInt8} (h : 0x80 ≤ lead) (rest : Text) :
    decode lead rest = (replacement, 1) ∨ 2 ≤ (decode lead rest).2 := by
  rw [decode]
  split_ifs with hc
  · refine .inr ?_
    obtain ⟨cont, rest, rfl, hcharacter⟩ := completes_iff.1 hc
    have hlead := toNat_of_announced hcharacter.length
    simp only [UInt8.le_iff_toNat_le, UInt8.reduceToNat] at h
    rw [hcharacter.continued_append]
    dsimp only
    omega
  · exact .inl rfl

theorem codes_cons_ascii {b : UInt8} (h : b < 0x80) (t : Text) :
    codes (b :: t) = b.toNat :: codes t := by
  rw [codes_cons, decode_ascii h]
  rfl

theorem length_codes_ascii {t : Text} (h : ∀ b ∈ t, b < 0x80) : (codes t).length = t.length := by
  rw [codes, runes_ascii h, List.length_map, List.length_map]

end Utf8

namespace Letter

theorem fold_ascii {b : UInt8} (h : b < 0x80) : fold b.toNat = (lowerByte b).toNat := by
  have hb : b.toNat < 0x80 := UInt8.lt_iff_toNat_lt.1 h
  have hne : ¬ (b.toNat == 0x130) = true := by
    rw [beq_iff_eq]
    omega
  rw [fold, if_neg hne]
  dsimp only
  rw [if_pos (lower_lt hb), lower_ascii h]

end Letter

namespace Text

section Folding
variable {s t : Text}

theorem lowerByte_lt {b : UInt8} (h : b < 0x80) : lowerByte b < 0x80 := by
  rw [UInt8.lt_iff_toNat_lt, ← Letter.lower_ascii h]
  exact Letter.lower_lt (UInt8.lt_iff_toNat_lt.1 h)

theorem equalFold_iff :
    equalFold s t = true ↔ (codes s).map Letter.fold = (codes t).map Letter.fold :=
  beq_iff_eq

/-- A text as long as a text of ASCII folds to the same letters only if it is in ASCII itself. -/
theorem equalFold_ascii (ht : ∀ b ∈ t, b < 0x80) (hlength : s.length = t.length) :
    equalFold s t = true ↔ s.map lowerByte = t.map lowerByte := by
  rw [equalFold_iff]
  induction t generalizing s with
  | nil =>
    obtain rfl := List.length_eq_zero_iff.1 hlength
    exact iff_of_true rfl rfl
  | cons c t ih =>
    obtain ⟨b, s, rfl⟩ := List.exists_cons_of_length_eq_add_one hlength
    have hc : c < 0x80 := ht c List.mem_cons_self
    have hs : s.length = t.length := Nat.succ.inj hlength
    have hascii : ∀ b ∈ t, b < 0x80 := fun b hb => ht b (List.mem_cons_of_mem _ hb)
    rw [codes_cons_ascii hc, List.map_cons, List.map_cons, List.map_cons, Letter.fold_ascii hc]
    by_cases hb : b < 0x80
    · rw [codes_cons_ascii hb, List.map_cons, Letter.fold_ascii hb, List.cons.injEq,
        List.cons.injEq, UInt8.toNat_inj, ih hascii hs]
    · refine iff_of_false (fun heq => ?_) fun heq => ?_
      · rw [codes_cons, List.map_cons, List.cons.injEq] at heq
        obtain hnone | hwide := decode_of_le (UInt8.not_lt.1 hb) s
        · -- A byte that belongs to no character folds to no ASCII letter.
          have hsmall := UInt8.lt_iff_toNat_lt.1 (lowerByte_lt hc)
          rw [← heq.1, hnone] at hsmall
          exact absurd hsmall (by decide +kernel)
        · -- A character of several bytes leaves fewer code points than `t` has.
          have hcodes := congrArg List.length heq.2
          have hle := length_codes_le (s.drop ((decode b s).2 - 1))
          have hwidth := decode_width_le b s
          rw [List.length_map, List.length_map, length_codes_ascii hascii] at hcodes
          rw [List.length_drop] at hle
          omega
      · rw [List.cons.injEq] at heq
        exact hb (lt_of_lowerByte_lt (heq.1 ▸ lowerByte_lt hc))

end Folding

section Pieces
variable {p : UInt8 → Bool}

/-- Bytes that do not divide a text go on with its first piece. -/
theorem splitBy_append {front t piece : Text} {pieces : List Text}
    (hfront : ∀ b ∈ front, p b = false) (ht : splitBy p t = piece :: pieces) :
    splitBy p (front ++ t) = (front ++ piece) :: pieces := by
  induction front with
  | nil => exact ht
  | cons b front ih =>
    have hb : p b = false := hfront b List.mem_cons_self
    have hrest := ih fun c hc => hfront c (List.mem_cons_of_mem _ hc)
    rw [List.cons_append, splitBy, List.foldr_cons, ← splitBy, hrest, hb]
    rfl

end Pieces
end Text

namespace Script

section Spelling

/-- A module path that puts separators of either kind between words. -/
inductive Spells : List Text → Text → Prop
  | word {w : Text} (h : IsWordText w) : Spells [w] w
  | join {w path : Text} {s : UInt8} {words : List Text} (h : IsWordText w)
      (hs : isSeparator s = true) (more : Spells words path) : Spells (w :: words) (w ++ s :: path)

variable {words : List Text} {path : Text}

theorem Spells.modulePath (h : Spells words path) : ModulePath path := by
  induction h with
  | word h => exact .word h
  | join h hs _ ih => exact .join h hs ih

/-- The module paths are the texts that spell words, a last one among them. -/
theorem modulePath_iff_spells :
    ModulePath path ↔ ∃ front last, Spells (front ++ [last]) path := by
  constructor
  · intro h
    induction h with
    | @word w h => exact ⟨[], w, .word h⟩
    | @join w _ _ h hs _ ih =>
      obtain ⟨front, last, hwords⟩ := ih
      exact ⟨w :: front, last, .join h hs hwords⟩
  · rintro ⟨front, last, h⟩
    exact h.modulePath

theorem Spells.isWordText (h : Spells words path) : ∀ w ∈ words, IsWordText w := by
  induction h with
  | word h => simpa using h
  | join h _ _ ih => simpa using ⟨h, ih⟩

theorem Spells.splitBy_eq (h : Spells words path) : splitBy isSeparator path = words := by
  induction h with
  | word h =>
    have hsplit := splitBy_append (t := []) (fun b hb => isSeparator_of_isWord (h.2 b hb)) rfl
    rwa [List.append_nil] at hsplit
  | @join w path s words h hs _ ih =>
    have hsplit : splitBy isSeparator (s :: path) = [] :: words := by
      rw [splitBy, List.foldr_cons, ← splitBy, ih, hs]
      rfl
    rw [splitBy_append (fun b hb => isSeparator_of_isWord (h.2 b hb)) hsplit, List.append_nil]

/-- The segments of a module path are its words, whichever separators stand between them. -/
theorem Spells.segments_eq (h : Spells words path) : segments path = words := by
  rw [segments, h.splitBy_eq, List.filter_eq_self]
  intro w hw
  simpa using (h.isWordText w hw).1

end Spelling

section Matching
variable {path pattern : Text}

theorem lowerByte_eq_slash_iff {b : UInt8} : lowerByte b = slash ↔ b = slash :=
  ⟨eq_of_lowerByte (by decide), by rintro rfl; decide⟩

/-- A path names a file if it is the file's name, or ends with it behind a slash, when all letters
of ASCII are in lower case. -/
theorem namesFile_iff (h : ∀ b ∈ pattern, b < 0x80) :
    namesFile path pattern = true ↔ path.map lowerByte = pattern.map lowerByte ∨
      slash :: pattern.map lowerByte <:+ path.map lowerByte := by
  have hequal : path.map lowerByte = pattern.map lowerByte → path.length = pattern.length := by
    intro heq
    simpa using congrArg List.length heq
  have hlonger : slash :: pattern.map lowerByte <:+ path.map lowerByte →
      pattern.length < path.length := by
    intro hsuffix
    simpa [Nat.succ_le_iff] using hsuffix.length_le
  rw [namesFile]
  split_ifs with hshort hsame
  · refine iff_of_false id ?_
    rintro (heq | hsuffix)
    · have := hequal heq
      omega
    · have := hlonger hsuffix
      omega
  · have hsame : path.length = pattern.length := beq_iff_eq.1 hsame
    rw [equalFold_ascii h hsame, or_iff_left fun hsuffix => absurd (hlonger hsuffix) (by omega)]
  · have hsame : path.length ≠ pattern.length := mt beq_iff_eq.2 hsame
    -- The byte at `n` is the one before the part that is as long as the pattern.
    obtain ⟨n, hn⟩ : ∃ n, path.length - pattern.length = n + 1 :=
      ⟨path.length - pattern.length - 1, by omega⟩
    have hlt : n < path.length := by omega
    have hfold : equalFold (path.drop (n + 1)) pattern = true ↔
        (path.drop (n + 1)).map lowerByte = pattern.map lowerByte := by
      refine equalFold_ascii h ?_
      rw [List.length_drop]
      omega
    have hlast : slash :: pattern.map lowerByte <:+ path.map lowerByte ↔
        (path.drop n).map lowerByte = slash :: pattern.map lowerByte := by
      have hdrop : (path.map lowerByte).length - (slash :: pattern.map lowerByte).length = n := by
        rw [List.length_cons, List.length_map, List.length_map]
        omega
      rw [List.suffix_iff_eq_drop, hdrop, ← List.map_drop, eq_comm]
    rw [or_iff_right (mt hequal hsame), hlast, List.drop_eq_getElem_cons hlt, List.map_cons,
      List.cons.injEq, lowerByte_eq_slash_iff, ← hfold, Bool.and_eq_true, beq_iff_eq, hn,
      Nat.add_sub_cancel, List.getElem?_eq_getElem hlt, Option.some.injEq]

/-- Segments that are the last ones of others, up to the case of ASCII letters. -/
def AreLastUpToCase (segments others : List Text) : Prop :=
  segments.map (List.map lowerByte) <:+ others.map (List.map lowerByte)

instance (segments others : List Text) : Decidable (AreLastUpToCase segments others) :=
  inferInstanceAs (Decidable (_ <:+ _))

theorem namesFile_iff_areLast (h : ∀ b ∈ pattern, b < 0x80) :
    namesFile path pattern = true ↔
      AreLastUpToCase (pattern.split slash) (path.split slash) := by
  rw [namesFile_iff h, AreLastUpToCase, ← split_map fun _ => lowerByte_eq_slash_iff,
    ← split_map fun _ => lowerByte_eq_slash_iff, split_suffix_iff]

variable {front : List Text} {last extension : Text}

theorem Spells.moduleFile_eq (h : Spells (front ++ [last]) path) :
    moduleFile path extension = Text.join [slash] (front ++ [last ++ extension]) := by
  rw [moduleFile, h.segments_eq]
  by_cases hfront : front = []
  · rw [hfront, List.nil_append, List.nil_append, Text.join, Text.join, List.intercalate_singleton,
      List.intercalate_singleton]
  · rw [join_append hfront (List.cons_ne_nil _ _), join_append hfront (List.cons_ne_nil _ _),
      List.append_assoc, List.cons_append, Text.join, Text.join, Text.join,
      List.intercalate_singleton, List.intercalate_singleton]

/-- The segments of a module's file are the words of the module, the extension being part of the
last one. -/
theorem Spells.split_moduleFile (h : Spells (front ++ [last]) path)
    (hextension : slash ∉ extension) :
    (moduleFile path extension).split slash = front ++ [last ++ extension] := by
  have hword : ∀ w ∈ front ++ [last], slash ∉ w := fun w hw hslash =>
    absurd ((h.isWordText w hw).2 slash hslash) (by decide)
  rw [h.moduleFile_eq]
  refine split_join (by simp) fun w hw => ?_
  rcases List.mem_append.1 hw with hw | hw
  · exact hword w (List.mem_append_left _ hw)
  · rw [List.mem_singleton.1 hw, List.mem_append, not_or]
    exact ⟨hword last (by simp), hextension⟩

theorem Spells.moduleFile_ascii (h : Spells (front ++ [last]) path)
    (hextension : ∀ b ∈ extension, b < 0x80) : ∀ b ∈ moduleFile path extension, b < 0x80 := by
  intro b hb
  rw [moduleFile, h.segments_eq, List.mem_append] at hb
  rcases hb with hb | hb
  · obtain rfl | ⟨w, hw, hb⟩ := mem_join hb
    · decide
    · exact lt_of_isWord ((h.isWordText w hw).2 b hb)
  · exact hextension b hb

/-- Module lookup goes by segments, up to letter case: a path names a file in some directory if and
only if the file's segments are its last ones. Every module path spells words, and a path names the
file of the module if and only if these words are its last segments, with the extension behind the
last one. -/
theorem namesFile_iff_segments :
    (∀ path pattern : Text, (∀ b ∈ pattern, b < 0x80) →
      (namesFile path pattern = true ↔
        AreLastUpToCase (pattern.split slash) (path.split slash))) ∧
    (∀ module, ModulePath module ↔ ∃ front last, Spells (front ++ [last]) module) ∧
    ∀ (path module extension : Text) (front : List Text) (last : Text),
      Spells (front ++ [last]) module → (∀ b ∈ extension, b < 0x80 ∧ b ≠ slash) →
      (namesFile path (moduleFile module extension) = true ↔
        AreLastUpToCase (front ++ [last ++ extension]) (path.split slash)) := by
  refine ⟨fun path pattern h => namesFile_iff_areLast h, fun _ => modulePath_iff_spells, ?_⟩
  intro path module extension front last hmodule hextension
  have hascii := hmodule.moduleFile_ascii fun b hb => (hextension b hb).1
  rw [namesFile_iff_areLast hascii,
    hmodule.split_moduleFile fun hslash => (hextension slash hslash).2 rfl]

/-- A module that is spelled with both separators, found in a directory whose name folds to ASCII;
and such a name in place of one in ASCII. -/
theorem namesFile_iff_segments_kelvin :
    let module := ofString "maps" ++ backslash :: (ofString "mp" ++ slash :: ofString "_k")
    let words := [ofString "maps", ofString "mp"] ++ [ofString "_k"]
    let kelvin : Text := [0xE2, 0x84, 0xAA]
    Spells words module ∧
    namesFile (kelvin ++ ofString "/Maps/MP/_K.GSC") (moduleFile module (ofString ".gsc")) = true ∧
    codes kelvin = [0x212A] ∧ Letter.fold 0x212A = Letter.fold 0x6B ∧
    namesFile (kelvin ++ ofString ".gsc") (ofString "k.gsc") = false := by
  intro module words kelvin
  have hmodule : Spells words module :=
    .join ⟨by decide, by decide +kernel⟩ (by decide)
      (.join ⟨by decide, by decide +kernel⟩ (by decide) (.word ⟨by decide, by decide +kernel⟩))
  refine ⟨hmodule, ?_, by decide, by decide +kernel, ?_⟩
  · exact (namesFile_iff_segments.2.2 _ _ _ _ _ hmodule (by decide +kernel)).2 (by decide)
  · rw [Bool.eq_false_iff, Ne, namesFile_iff_segments.1 _ _ (by decide +kernel)]
    decide

end Matching
end Script
end ScriptNav
