import ScriptNav.Proofs.Path
import ScriptNav.Server.Uri

/-! Identifiers of files. A path is escaped byte by byte, and what is escaped is worked out again as
it was, so that the identifier of a file leads back to its path. Since escapes are worked out twice,
the path must hold no percent sign. -/
namespace ScriptNav.Server

open Text

section Escapes

/-- A byte that can stand in an escaped path. -/
def IsEscaped (b : UInt8) : Prop := isPathByte b = true ∨ b = 37

theorem hexValue?_upperHexDigit : ∀ n < 16, hexValue? (upperHexDigit n) = some n := by decide

theorem isPathByte_upperHexDigit : ∀ n < 16, isPathByte (upperHexDigit n) = true := by decide

theorem isEscaped_of_mem_escapeByte {b c : UInt8} (h : c ∈ escapeByte b) : IsEscaped c := by
  have hb := b.toNat_lt
  rw [escapeByte] at h
  split_ifs at h with hpath
  · exact .inl (List.mem_singleton.1 h ▸ hpath)
  · simp only [List.mem_cons, List.not_mem_nil, or_false] at h
    rcases h with rfl | rfl | rfl
    · exact .inr rfl
    · exact .inl (isPathByte_upperHexDigit _ (by omega))
    · exact .inl (isPathByte_upperHexDigit _ (by omega))

theorem isEscaped_of_mem_escapePath {path : Text} {c : UInt8} (h : c ∈ escapePath path) :
    IsEscaped c := by
  obtain ⟨b, -, hc⟩ := List.mem_flatMap.1 h
  exact isEscaped_of_mem_escapeByte hc

theorem unescapeFrom_plain {b : UInt8} (h : b ≠ 37) (t : Text) :
    unescapeFrom .path 0 (b :: t) = (unescapeFrom .path 0 t).map (b :: ·) := by
  rw [unescapeFrom.eq_def]
  dsimp only
  rw [if_neg (by simpa using h), if_pos (by rfl)]

theorem unescapeFrom_hex {high low : UInt8} {m n : Nat} (hm : hexValue? high = some m)
    (hn : hexValue? low = some n) (t : Text) :
    unescapeFrom .path 0 (37 :: high :: low :: t) =
      (unescapeFrom .path 0 t).map ((m * 16 + n).toUInt8 :: ·) := by
  rw [unescapeFrom, if_pos (by rfl)]
  simp only [hm, hn]
  rw [if_pos (by rfl)]
  rfl

/-- A byte is worked out as it was, whatever follows it. -/
theorem unescapeFrom_escapeByte (b : UInt8) (t : Text) :
    unescapeFrom .path 0 (escapeByte b ++ t) = (unescapeFrom .path 0 t).map (b :: ·) := by
  have hb := b.toNat_lt
  rw [escapeByte]
  split_ifs with hpath
  · refine unescapeFrom_plain ?_ t
    rintro rfl
    exact absurd hpath (by decide)
  · have hvalue : b.toNat / 16 * 16 + b.toNat % 16 = b.toNat := by omega
    refine (unescapeFrom_hex (hexValue?_upperHexDigit _ (by omega))
      (hexValue?_upperHexDigit _ (by omega)) t).trans ?_
    rw [hvalue, Nat.toUInt8, UInt8.ofNat_toNat]

theorem unescape?_escapePath (path : Text) : unescape? .path (escapePath path) = some path := by
  induction path with
  | nil => rfl
  | cons b path ih =>
    rw [unescape?] at ih
    rw [unescape?, escapePath, List.flatMap_cons, ← escapePath, unescapeFrom_escapeByte, ih]
    rfl

/-- Where nothing is escaped, nothing is worked out. -/
theorem unescape?_of_notMem {t : Text} (h : 37 ∉ t) : unescape? .path t = some t := by
  induction t with
  | nil => rfl
  | cons b t ih =>
    obtain ⟨hb, ht⟩ := not_or.1 (mt List.mem_cons.2 h)
    have hrest := ih ht
    rw [unescape?] at hrest
    rw [unescape?, unescapeFrom_plain (Ne.symm hb), hrest]
    rfl

end Escapes

section Identifiers
variable {cwd path : Text}

theorem isControl_of_isPathByte {b : UInt8} (h : isPathByte b = true) :
    Uri.isControl b = false := by
  have hlow : ∀ n < 32, isPathByte (UInt8.ofNat n) = false := by decide
  rw [Uri.isControl, Bool.or_eq_false_iff, decide_eq_false_iff_not, beq_eq_false_iff_ne]
  constructor
  · intro hlt
    have hb := hlow b.toNat (UInt8.lt_iff_toNat_lt.1 hlt)
    rw [UInt8.ofNat_toNat, h] at hb
    cases hb
  · rintro rfl
    exact absurd h (by decide)

/-- The bytes of an escaped path end neither a path nor an identifier. -/
theorem IsEscaped.inPath {b : UInt8} (h : IsEscaped b) :
    b ≠ hashSign ∧ b ≠ 63 ∧ Uri.isControl b = false := by
  rcases h with h | rfl
  · refine ⟨?_, ?_, isControl_of_isPathByte h⟩ <;>
      rintro rfl <;> exact absurd h (by decide)
  · decide

/-- The identifier of a rooted path has the scheme of files and that path. -/
theorem parse?_file (path : Text) :
    Uri.parse? ("file://" ++ escapePath (slash :: path)) = some ⟨"file", slash :: path⟩ := by
  have hescape : escapePath (slash :: path) = slash :: escapePath path := rfl
  have hbytes : ∀ b ∈ escapePath (slash :: path), b ≠ hashSign ∧ b ≠ 63 ∧ Uri.isControl b = false :=
    fun b hb => (isEscaped_of_mem_escapePath hb).inPath
  have hpath := unescape?_escapePath (slash :: path)
  rw [hescape] at hbytes hpath ⊢
  set rest := slash :: escapePath path
  have hhash : hashSign ∉ ("file://" : Text) ++ rest := by
    rw [List.mem_append]
    exact not_or.2 ⟨by decide, fun h => (hbytes _ h).1 rfl⟩
  have hcontrol : (("file://" : Text) ++ rest).any Uri.isControl = false := by
    rw [List.any_append, Bool.or_eq_false_iff]
    exact ⟨by decide, List.any_eq_false.2 fun b hb => by simp [(hbytes b hb).2.2]⟩
  have hscheme : scheme? ("file://" ++ rest) = some (("file" : Text), ("//" : Text) ++ rest) := rfl
  have hquery : (("//" : Text) ++ rest).takeWhile (· != 63) = "//" ++ rest := by
    rw [List.takeWhile_eq_self_iff]
    intro b hb
    rcases List.mem_append.1 hb with hb | hb
    · exact List.all_eq_true.1 (by decide : ("//" : Text).all (· != 63) = true) b hb
    · exact bne_iff_ne.2 (hbytes b hb).2.1
  have hhierarchy : Uri.hierarchy? "file" ("//" ++ rest) = some ⟨"file", slash :: path⟩ := by
    have hdrop : (("//" : Text) ++ rest).drop 2 = rest := rfl
    have hauthority : rest.takeWhile (· != slash) = [] := rfl
    have hempty : isAuthority [] = true := by decide
    rw [Uri.hierarchy?, if_pos (by rfl), hdrop, hauthority]
    simp only [hempty, if_true, List.length_nil, Nat.add_zero, hdrop, Option.bind_some, hpath]
    rfl
  rw [Uri.parse?, cut?_of_notMem hhash]
  simp only [Option.getD_none, hcontrol, Bool.false_eq_true, if_false]
  rw [if_neg (by rintro ⟨⟩), hscheme]
  simp only [Option.bind_eq_bind, Option.bind_some, hquery]
  rw [if_pos (by rfl), hhierarchy]
  rfl

theorem parse?_uriOfPath (hpath : Path.IsAbsolute path) :
    Uri.parse? (uriOfPath cwd path) = some ⟨"file", path⟩ := by
  obtain ⟨rest, rfl⟩ : ∃ rest, path = slash :: rest := by
    obtain ⟨p, hrooted, -, rfl⟩ := hpath
    rw [Path.Parts.toText, if_pos hrooted]
    exact ⟨_, rfl⟩
  rw [uriOfPath, hpath.absolute_eq]
  exact parse?_file rest

/-- The identifier of a file leads to its path with the escapes worked out once more. -/
theorem pathOfUri_uriOfPath_eq (hpath : Path.IsAbsolute path) :
    pathOfUri cwd (uriOfPath cwd path) =
      Path.absolute cwd ((unescape? .path path).getD path) := by
  have hne : ¬ (uriOfPath cwd path).isEmpty = true := by
    rw [uriOfPath, if_neg (by simpa using hpath.ne_nil)]
    rintro ⟨⟩
  rw [pathOfUri, if_neg hne, parse?_uriOfPath hpath]
  rfl

/-- The identifier of a file leads back to its path. -/
theorem pathOfUri_uriOfPath (hpath : Path.IsAbsolute path) (hpercent : 37 ∉ path) :
    pathOfUri cwd (uriOfPath cwd path) = path := by
  rw [pathOfUri_uriOfPath_eq hpath, unescape?_of_notMem hpercent, Option.getD_some,
    hpath.absolute_eq]

/-- Whatever an identifier names is a rooted path. -/
theorem isAbsolute_pathOfUri (hcwd : Path.isRooted cwd = true) {uri : Text}
    (h : pathOfUri cwd uri ≠ []) : Path.IsAbsolute (pathOfUri cwd uri) := by
  rw [pathOfUri] at h ⊢
  split_ifs at h ⊢
  · exact absurd rfl h
  · cases hparse : Uri.parse? uri with
    | none =>
      rw [hparse] at h
      exact absurd rfl h
    | some parsed =>
      rw [hparse] at h
      dsimp only at h ⊢
      split_ifs at h ⊢
      · exact Path.isAbsolute_absolute hcwd _
      · exact Path.isAbsolute_absolute hcwd _
      · exact absurd rfl h

end Identifiers
end ScriptNav.Server
