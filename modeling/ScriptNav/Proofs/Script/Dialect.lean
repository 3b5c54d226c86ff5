import ScriptNav.Proofs.Path
import ScriptNav.Proofs.Text.Trim
import ScriptNav.Script.Dialect

/-! The names of scripts. Extensions are compared in lower case over all of Unicode, but no letter
outside ASCII has a letter of an extension for its lower case, so a script is told by the ASCII
letters at the end of its name, in either case. -/
namespace ScriptNav

open Text Utf8

namespace Letter

/-- Outside ASCII only the capital I with a dot and the Kelvin sign have lower-case forms in it. -/
theorem lower_of_le {code : Nat} (h : 0x80 ≤ code) :
    0x80 ≤ lower code ∨ lower code = 105 ∨ lower code = 107 := by
  have htable : ∀ r ∈ lowerRanges, 0x80 ≤ r.last → 0x80 ≤ r.first + r.shift ∨
      r.first = r.last ∧ (r.first + r.shift = 105 ∨ r.first + r.shift = 107) := by
    decide +kernel
  rw [lower, if_neg (by omega)]
  split
  · next r hr =>
    have hmem := List.mem_of_find?_eq_some hr
    have hin := List.find?_some hr
    simp only [Bool.and_eq_true, decide_eq_true_eq, beq_iff_eq] at hin
    have hrow := htable r hmem (by omega)
    omega
  · exact .inl h

theorem lower_lt {code : Nat} (h : code < 0x80) : lower code < 0x80 := by
  rw [lower, if_pos h]
  split_ifs with hupper
  · simp only [Bool.and_eq_true, decide_eq_true_eq] at hupper
    omega
  · exact h

theorem lower_ascii {b : UInt8} (h : b < 0x80) : lower b.toNat = (lowerByte b).toNat := by
  have hb : b.toNat < 0x80 := UInt8.lt_iff_toNat_lt.1 h
  rw [lower, if_pos hb, lowerByte, isUpper]
  simp only [UInt8.le_iff_toNat_le, UInt8.reduceToNat, Bool.and_eq_true, decide_eq_true_eq]
  split_ifs
  · simp only [UInt8.toNat_add, UInt8.reduceToNat]
    omega
  · rfl

end Letter

namespace Utf8

/-- A byte outside ASCII begins no ASCII character. -/
theorem le_decode {lead : UInt8} (h : 0x80 ≤ lead) (rest : Text) : 0x80 ≤ (decode lead rest).1 := by
  rw [decode]
  split_ifs with hc
  · obtain ⟨cont, rest, rfl, hcharacter⟩ := completes_iff.1 hc
    rw [hcharacter.continued_append, List.take_left]
    by_contra hlt
    have hencode := encode_assemble hcharacter
    rw [encode, if_pos (by omega)] at hencode
    have hlead := congrArg UInt8.toNat (List.cons.inj hencode).1
    simp only [UInt8.le_iff_toNat_le, UInt8.reduceToNat] at h
    simp only [Nat.toUInt8, UInt8.toNat_ofNat'] at hlead
    omega
  · decide

/-- A code point outside ASCII is written without ASCII. -/
theorem exists_mem_encode {code : Nat} (h : 0x80 ≤ code) : ∃ b ∈ encode code, 0x80 ≤ b := by
  have hlead {n : Nat} (hn : 0x80 ≤ n) (hn' : n < 256) : 0x80 ≤ n.toUInt8 := by
    simp only [UInt8.le_iff_toNat_le, Nat.toUInt8, UInt8.toNat_ofNat', UInt8.reduceToNat]
    omega
  rw [encode, if_neg (by omega)]
  split_ifs with h₁ h₂ h₃
  · exact ⟨_, List.mem_cons_self, hlead (by omega) (by omega)⟩
  · exact ⟨_, List.mem_cons_self, hlead (by omega) (by simp at h₂; omega)⟩
  · exact ⟨_, List.mem_cons_self, hlead (by omega) (by simp at h₃; omega)⟩
  · exact ⟨_, List.mem_cons_self, by decide⟩

end Utf8

namespace Text

theorem toLower_cons (b : UInt8) (t : Text) :
    toLower (b :: t) =
      encode (Letter.lower (decode b t).1) ++ toLower (t.drop ((decode b t).2 - 1)) := by
  rw [toLower, codes_cons, List.map_cons]
  rfl

theorem toLower_cons_ascii {b : UInt8} (h : b < 0x80) (t : Text) :
    toLower (b :: t) = lowerByte b :: toLower t := by
  have hlower : (lowerByte b).toNat < 0x80 := by
    rw [← Letter.lower_ascii h]
    exact Letter.lower_lt (UInt8.lt_iff_toNat_lt.1 h)
  rw [toLower_cons, decode_ascii h, Letter.lower_ascii h, encode, if_pos hlower, toUInt8_eq rfl]
  rfl

/-- What is in lower case and has no i and no k was written in ASCII, if it is in ASCII. -/
theorem toLower_eq_map {t : Text} (h : ∀ b ∈ toLower t, b < 0x80 ∧ b ≠ 105 ∧ b ≠ 107) :
    toLower t = t.map lowerByte := by
  induction t with
  | nil => rfl
  | cons b t ih =>
    by_cases hb : b < 0x80
    · rw [toLower_cons_ascii hb] at h ⊢
      rw [ih fun c hc => h c (List.mem_cons_of_mem _ hc), List.map_cons]
    · -- The character that begins here would leave a byte that does not occur.
      have hhead : ∀ c ∈ encode (Letter.lower (decode b t).1), c < 0x80 ∧ c ≠ 105 ∧ c ≠ 107 := by
        intro c hc
        rw [toLower_cons] at h
        exact h c (List.mem_append_left _ hc)
      obtain hle | hi | hk := Letter.lower_of_le (le_decode (UInt8.not_lt.1 hb) t)
      · obtain ⟨c, hc, hlarge⟩ := exists_mem_encode hle
        exact absurd (hhead c hc).1 (UInt8.not_lt.2 hlarge)
      · rw [hi] at hhead
        exact absurd rfl (hhead 105 (by decide)).2.1
      · rw [hk] at hhead
        exact absurd rfl (hhead 107 (by decide)).2.2

theorem toLower_ascii {t : Text} (h : ∀ b ∈ t, b < 0x80) : toLower t = t.map lowerByte := by
  induction t with
  | nil => rfl
  | cons b t ih =>
    rw [toLower_cons_ascii (h b List.mem_cons_self), ih fun c hc => h c (List.mem_cons_of_mem _ hc),
      List.map_cons]

theorem lt_of_lowerByte_lt {b : UInt8} (h : lowerByte b < 0x80) : b < 0x80 := by
  rw [lowerByte] at h
  split_ifs at h with hupper
  · rw [isUpper, Bool.and_eq_true, decide_eq_true_eq, decide_eq_true_eq] at hupper
    exact UInt8.lt_of_le_of_lt hupper.2 (by decide)
  · exact h

/-- Only letters have another byte for their lower case. -/
theorem eq_of_lowerByte {b c : UInt8} (hc : isLower c = false) (h : lowerByte b = c) : b = c := by
  rw [lowerByte] at h
  split_ifs at h with hupper
  · have hsum : (b.toNat + 32) % 256 = c.toNat := by
      rw [← h]
      exact (UInt8.toNat_add b 32).symm
    simp only [isUpper, isLower, Bool.and_eq_true, Bool.and_eq_false_iff, decide_eq_true_eq,
      decide_eq_false_iff_not, UInt8.le_iff_toNat_le, UInt8.reduceToNat] at hupper hc
    omega
  · exact h

end Text

namespace Path

theorem extension_append_dot {tail : Text} (hdot : dot ∉ tail) (hslash : slash ∉ tail)
    (stem : Text) : extension (stem ++ dot :: tail) = dot :: tail := by
  have hname : ∀ b ∈ tail.reverse ++ [dot], (b != slash) = true := by
    intro b hb
    rw [bne_iff_ne]
    rintro rfl
    simp only [List.mem_append, List.mem_reverse, List.mem_singleton] at hb
    exact hb.elim hslash (by decide)
  have hlast : (stem ++ dot :: tail).reverse.takeWhile (· != slash) =
      tail.reverse ++ dot :: stem.reverse.takeWhile (· != slash) := by
    rw [List.reverse_append, List.reverse_cons, List.takeWhile_append_of_pos hname,
      List.append_assoc, List.singleton_append]
  have hrun (rest : Text) : (tail.reverse ++ dot :: rest).takeWhile (· != dot) = tail.reverse := by
    rw [List.takeWhile_append_of_pos fun b hb => by
      simpa using fun h : b = dot => hdot (h ▸ List.mem_reverse.1 hb)]
    simp
  rw [extension, hlast, if_pos (by simp), hrun, List.reverse_reverse]

/-- An extension stands at the end of a path. -/
theorem extension_suffix (path : Text) : extension path <:+ path := by
  by_cases hdot : dot ∈ path.reverse.takeWhile (· != slash)
  · obtain ⟨front, rest, hlast, hfront⟩ := List.eq_append_cons_of_mem hdot
    obtain ⟨more, hmore⟩ := List.takeWhile_prefix (· != slash) (l := path.reverse)
    have hslash : slash ∉ front := fun hmem => by
      have hin : slash ∈ path.reverse.takeWhile (· != slash) :=
        hlast ▸ List.mem_append_left _ hmem
      simpa using List.mem_takeWhile_imp hin
    have hpath : path = (rest ++ more).reverse ++ dot :: front.reverse := by
      rw [← List.reverse_reverse path, ← hmore, hlast]
      simp
    rw [hpath, extension_append_dot (mt List.mem_reverse.1 hfront) (mt List.mem_reverse.1 hslash)]
    exact List.suffix_append _ _
  · rw [extension, if_neg (mt List.contains_iff_mem.1 hdot)]
    exact List.nil_suffix

end Path

namespace Script.Dialect

theorem ofExtension?_eq_some_iff {ext : Text} {d : Dialect} :
    ofExtension? ext = some d ↔ ext.map lowerByte = d.extension := by
  constructor
  · intro h
    rw [ofExtension?] at h
    have hlower : d.extension = toLower ext := by simpa using List.find?_some h
    rw [hlower, toLower_eq_map]
    rw [← hlower]
    cases d <;> decide +kernel
  · intro h
    have hascii : ∀ b ∈ ext, b < 0x80 := by
      have hall : ∀ b ∈ d.extension, b < 0x80 := by cases d <;> decide +kernel
      intro b hb
      exact lt_of_lowerByte_lt (hall _ (h ▸ List.mem_map_of_mem hb))
    rw [ofExtension?, toLower_ascii hascii, h]
    cases d <;> decide

/-- A name ends with the extension of a dialect, in any letter case. -/
def Names (d : Dialect) (name : Text) : Prop :=
  ∃ stem ext, name = stem ++ ext ∧ ext.map lowerByte = d.extension

theorem ofExtension?_extension_iff {d : Dialect} {name : Text} :
    ofExtension? (Path.extension name) = some d ↔ d.Names name := by
  rw [ofExtension?_eq_some_iff]
  constructor
  · intro h
    obtain ⟨stem, hstem⟩ := Path.extension_suffix name
    exact ⟨stem, _, hstem.symm, h⟩
  · rintro ⟨stem, ext, rfl, h⟩
    rw [extension] at h
    obtain ⟨b, tail, rfl, hb, htail⟩ := List.map_eq_cons_iff.1 h
    obtain rfl := eq_of_lowerByte (by decide) hb
    have hnone : lowerByte dot ∉ d.name ∧ lowerByte slash ∉ d.name := by cases d <;> decide
    rw [← htail] at hnone
    rw [Path.extension_append_dot (mt List.mem_map_of_mem hnone.1) (mt List.mem_map_of_mem hnone.2)]
    exact h

end Script.Dialect
end ScriptNav
