import ScriptNav.Proofs.Server.Uri
import ScriptNav.Source

/-! Identifiers there and back. The path of a file stands in its identifier without loss, but what is
read from an identifier has its escapes worked out a second time. A path survives that unless it reads
as escaped itself: it holds a percent sign, and two hexadecimal digits follow each of them. -/
namespace ScriptNav.Server

open Text

/-- Two hexadecimal digits begin a text. -/
def BeginsWithHex (t : Text) : Prop :=
  ∃ high low rest, t = high :: low :: rest ∧ (hexValue? high).isSome ∧ (hexValue? low).isSome

/-- A path that reads as escaped: it holds percent signs, and two hexadecimal digits follow each. -/
structure LooksEscaped (path : Text) : Prop where
  percent : 37 ∈ path
  digits : ∀ front rest, path = front ++ 37 :: rest → BeginsWithHex rest

section Unescape
variable {t unescaped : Text}

/-- Texts are taken apart as escapes are worked out: byte by byte, and a percent sign with the two
digits behind it, if they are there. -/
theorem escape_induction {motive : Text → Prop} (nil : motive [])
    (plain : ∀ b t, b ≠ 37 → motive t → motive (b :: t))
    (digits : ∀ high low t, (hexValue? high).isSome → (hexValue? low).isSome → motive t →
      motive (37 :: high :: low :: t))
    (stray : ∀ t, ¬ BeginsWithHex t → motive (37 :: t)) (t : Text) : motive t := by
  induction hn : t.length using Nat.strongRecOn generalizing t with
  | ind n ih =>
    cases t with
    | nil => exact nil
    | cons b t =>
      rw [List.length_cons] at hn
      by_cases hb : b = 37
      · subst hb
        by_cases hhex : BeginsWithHex t
        · obtain ⟨high, low, rest, rfl, hhigh, hlow⟩ := hhex
          rw [List.length_cons, List.length_cons] at hn
          exact digits high low rest hhigh hlow (ih rest.length (by omega) rest rfl)
        · exact stray t hhex
      · exact plain b t hb (ih t.length (by omega) t rfl)

theorem unescape?_cons {b : UInt8} (hb : b ≠ 37) (t : Text) :
    unescape? .path (b :: t) = (unescape? .path t).map (b :: ·) := unescapeFrom_plain hb t

theorem unescape?_digits {high low : UInt8} (hhigh : (hexValue? high).isSome)
    (hlow : (hexValue? low).isSome) (t : Text) :
    ∃ b, unescape? .path (37 :: high :: low :: t) = (unescape? .path t).map (b :: ·) := by
  obtain ⟨m, hm⟩ := Option.isSome_iff_exists.1 hhigh
  obtain ⟨n, hn⟩ := Option.isSome_iff_exists.1 hlow
  exact ⟨_, unescapeFrom_hex hm hn t⟩

theorem unescape?_stray (h : ¬ BeginsWithHex t) : unescape? .path (37 :: t) = none := by
  rw [unescape?, unescapeFrom.eq_def]
  dsimp only
  rw [if_pos (by rfl)]
  split
  · next high low rest =>
    split
    · next hhigh hlow =>
      exact absurd ⟨high, low, rest, rfl, by simp [hhigh], by simp [hlow]⟩ h
    · rfl
  · rfl

/-- Escapes can be worked out just if two digits follow every percent sign. -/
theorem isSome_unescape?_iff :
    (unescape? .path t).isSome ↔ ∀ front rest, t = front ++ 37 :: rest → BeginsWithHex rest := by
  -- A byte before the text that is no percent sign does not matter.
  have hcons {b : UInt8} (hb : b ≠ 37) (t : Text) :
      (∀ front rest, b :: t = front ++ 37 :: rest → BeginsWithHex rest) ↔
        ∀ front rest, t = front ++ 37 :: rest → BeginsWithHex rest := by
    refine ⟨fun h front rest ht => h (b :: front) rest (by rw [ht]; rfl), ?_⟩
    intro h front rest ht
    cases front with
    | nil => exact absurd (List.cons.inj ht).1 hb
    | cons c front => exact h front rest (List.cons.inj ht).2
  induction t using escape_induction with
  | nil => exact ⟨fun _ front rest h => by simp at h, fun _ => rfl⟩
  | plain b t hb ih =>
    rw [unescape?_cons hb, Option.isSome_map, hcons hb]
    exact ih
  | digits high low t hhigh hlow ih =>
    have hne {b : UInt8} (h : (hexValue? b).isSome) : b ≠ 37 := by
      rintro rfl
      exact absurd h (by decide)
    obtain ⟨b, hb⟩ := unescape?_digits hhigh hlow t
    rw [hb, Option.isSome_map]
    refine ih.trans ?_
    rw [← hcons (hne hlow) t, ← hcons (hne hhigh) (low :: t)]
    refine ⟨fun h front rest ht => ?_, fun h front rest ht => h (37 :: front) rest (by rw [ht]; rfl)⟩
    cases front with
    | nil => exact ⟨high, low, t, (List.cons.inj ht).2.symm, hhigh, hlow⟩
    | cons c front => exact h front rest (List.cons.inj ht).2
  | stray t ht =>
    rw [unescape?_stray ht]
    exact ⟨nofun, fun h => absurd (h [] t rfl) ht⟩

theorem length_unescape?_le (h : unescape? .path t = some unescaped) :
    unescaped.length ≤ t.length ∧ (37 ∈ t → unescaped.length < t.length) := by
  induction t using escape_induction generalizing unescaped with
  | nil =>
    cases h
    simp
  | plain b t hb ih =>
    rw [unescape?_cons hb] at h
    obtain ⟨rest, hrest, rfl⟩ := Option.map_eq_some_iff.1 h
    obtain ⟨hle, hlt⟩ := ih hrest
    simp only [List.length_cons, List.mem_cons, Ne.symm hb, false_or]
    exact ⟨by omega, fun hmem => Nat.succ_lt_succ (hlt hmem)⟩
  | digits high low t hhigh hlow ih =>
    obtain ⟨b, hb⟩ := unescape?_digits hhigh hlow t
    rw [hb] at h
    obtain ⟨rest, hrest, rfl⟩ := Option.map_eq_some_iff.1 h
    have hle := (ih hrest).1
    simp only [List.length_cons]
    exact ⟨by omega, fun _ => by omega⟩
  | stray t ht =>
    rw [unescape?_stray ht] at h
    cases h

theorem looksEscaped_iff {path : Text} :
    LooksEscaped path ↔ 37 ∈ path ∧ (unescape? .path path).isSome :=
  ⟨fun h => ⟨h.percent, isSome_unescape?_iff.2 h.digits⟩,
    fun h => ⟨h.1, isSome_unescape?_iff.1 h.2⟩⟩

instance (path : Text) : Decidable (LooksEscaped path) := decidable_of_iff _ looksEscaped_iff.symm

end Unescape

section RoundTrip
variable {cwd path : Text}

theorem pathOfUri_of_not_looksEscaped (hpath : Path.IsAbsolute path) (h : ¬ LooksEscaped path) :
    pathOfUri cwd (uriOfPath cwd path) = path := by
  by_cases hpercent : 37 ∈ path
  · have hnone : unescape? .path path = none := by
      rw [← Option.not_isSome_iff_eq_none]
      exact fun hsome => h (looksEscaped_iff.2 ⟨hpercent, hsome⟩)
    rw [pathOfUri_uriOfPath_eq hpath, hnone, Option.getD_none, hpath.absolute_eq]
  · exact pathOfUri_uriOfPath hpath hpercent

/-- The path that is read instead is shorter. -/
theorem pathOfUri_ne_of_looksEscaped (hpath : Path.IsAbsolute path) (h : LooksEscaped path) :
    pathOfUri cwd (uriOfPath cwd path) ≠ path := by
  obtain ⟨hpercent, hsome⟩ := looksEscaped_iff.1 h
  obtain ⟨unescaped, hunescaped⟩ := Option.isSome_iff_exists.1 hsome
  have hrooted : Path.isRooted unescaped = true := by
    obtain ⟨p, hp, -, rfl⟩ := hpath
    rw [Path.Parts.toText, if_pos hp, unescape?_cons (by decide)] at hunescaped
    obtain ⟨rest, -, rfl⟩ := Option.map_eq_some_iff.1 hunescaped
    rfl
  have hclean := Path.length_clean_le hrooted
  have hlt := (length_unescape?_le hunescaped).2 hpercent
  rw [pathOfUri_uriOfPath_eq hpath, hunescaped, Option.getD_some, Path.absolute, if_pos hrooted]
  intro heq
  rw [heq] at hclean
  omega

end RoundTrip

/-- The identifier of a file holds its path, and leads back to the path just if the path does not read
as escaped. Files whose paths do not are told apart by the keys of their identifiers. -/
theorem uriOfPath_leadsBack_iff {path other : Text} (cwd : Text) (hpath : Path.IsAbsolute path)
    (hother : Path.IsAbsolute other) :
    Uri.parse? (uriOfPath cwd path) = some ⟨"file", path⟩ ∧
    (pathOfUri cwd (uriOfPath cwd path) = path ↔ ¬ LooksEscaped path) ∧
    (¬ LooksEscaped path → ¬ LooksEscaped other →
      Source.key cwd (pathOfUri cwd (uriOfPath cwd path)) =
        Source.key cwd (pathOfUri cwd (uriOfPath cwd other)) → path = other) := by
  refine ⟨parse?_uriOfPath hpath, ⟨fun h hescaped => ?_, pathOfUri_of_not_looksEscaped hpath⟩, ?_⟩
  · exact pathOfUri_ne_of_looksEscaped hpath hescaped h
  · intro hplain hplain' hkey
    rwa [pathOfUri_of_not_looksEscaped hpath hplain, pathOfUri_of_not_looksEscaped hother hplain',
      Source.key, Source.key, hpath.absolute_eq, hother.absolute_eq] at hkey

/-- Blanks, marks of identifiers, control characters and a percent sign that escapes nothing. -/
theorem uriOfPath_leadsBack_oddName :
    let path : Text := "/w/a b?#\x01\t/é 100%/%zz%41.gsc"
    let other : Text := "/w/a b?#\x01\t/é 100%/%zzA.gsc"
    Path.IsAbsolute path ∧ Path.IsAbsolute other ∧ ¬ LooksEscaped path ∧
      pathOfUri "/" (uriOfPath "/" path) = path ∧
      Source.key "/" (pathOfUri "/" (uriOfPath "/" path)) ≠
        Source.key "/" (pathOfUri "/" (uriOfPath "/" other)) := by
  intro path other
  have hpath : Path.IsAbsolute path := by decide
  have hother : Path.IsAbsolute other := by decide
  have hplain : ¬ LooksEscaped path := by decide
  obtain ⟨-, hback, hkey⟩ := uriOfPath_leadsBack_iff "/" hpath hother
  refine ⟨hpath, hother, hplain, hback.2 hplain, fun heq => ?_⟩
  exact absurd (hkey hplain (by decide) heq) (by decide)

/-- A name that reads as escaped is taken for another one, and two files share a key. -/
theorem uriOfPath_sharedKey :
    let path : Text := "/a%41.gsc"
    let other : Text := "/aA.gsc"
    Path.IsAbsolute path ∧ Path.IsAbsolute other ∧ path ≠ other ∧
      pathOfUri "/" (uriOfPath "/" path) = other ∧
      Source.key "/" (pathOfUri "/" (uriOfPath "/" path)) =
        Source.key "/" (pathOfUri "/" (uriOfPath "/" other)) := by
  decide

end ScriptNav.Server
