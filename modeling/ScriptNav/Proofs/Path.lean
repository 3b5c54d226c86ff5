import Mathlib.Algebra.GroupWithZero.Nat
import Mathlib.Tactic.SplitIfs
import ScriptNav.Path
import ScriptNav.Proofs.Text.Cut

/-! Paths by their names. A path that is spelled without detours is the text of its names, and the
functions on paths are functions on names there. -/
namespace ScriptNav.Path

open Text

/-- A name that can stand in a directory. -/
def IsName (name : Text) : Prop := name ≠ [] ∧ slash ∉ name ∧ name ≠ here ∧ name ≠ up

instance (name : Text) : Decidable (IsName name) :=
  inferInstanceAs (Decidable (_ ∧ _ ∧ _ ∧ _))

/-- Every name of a path can stand in a directory. -/
def Parts.IsPlain (p : Parts) : Prop := ∀ name ∈ p.names, IsName name

instance (p : Parts) : Decidable p.IsPlain :=
  inferInstanceAs (Decidable (∀ name ∈ p.names, IsName name))

/-- A rooted path in its shortest spelling. -/
def IsAbsolute (path : Text) : Prop := ∃ p : Parts, p.rooted = true ∧ p.IsPlain ∧ path = p.toText

section Names
variable {p q : Parts}

theorem Parts.IsPlain.of_subset (h : p.IsPlain) (hnames : q.names ⊆ p.names) : q.IsPlain :=
  fun name hname => h name (hnames hname)

theorem push_name {name : Text} (h : IsName name) (rooted : Bool) (stack : List Text) :
    push rooted stack name = name :: stack := by
  obtain ⟨hne, -, hhere, hup⟩ := h
  simp [push, hne, hhere, hup]

theorem foldl_push_names {names : List Text} (h : ∀ name ∈ names, IsName name) (rooted : Bool)
    (stack : List Text) : names.foldl (push rooted) stack = names.reverse ++ stack := by
  induction names generalizing stack with
  | nil => rfl
  | cons name names ih =>
    rw [List.foldl_cons, push_name (h name List.mem_cons_self),
      ih fun n hn => h n (List.mem_cons_of_mem _ hn)]
    simp

theorem foldl_push_join {names : List Text} (h : ∀ name ∈ names, IsName name) (rooted : Bool)
    (stack : List Text) :
    (split slash (join [slash] names)).foldl (push rooted) stack = names.reverse ++ stack := by
  by_cases hne : names = []
  · subst hne
    rfl
  · rw [split_join hne fun name hn => (h name hn).2.1, foldl_push_names h]

/-- The pieces of a path without detours are its names. -/
theorem Parts.IsPlain.foldl_push (h : p.IsPlain) (rooted : Bool) (stack : List Text) :
    (split slash p.toText).foldl (push rooted) stack = p.names.reverse ++ stack := by
  obtain ⟨_ | _, names⟩ := p
  · cases names with
    | nil => rfl
    | cons name names => exact foldl_push_join h rooted stack
  · rw [toText, if_pos rfl, show ∀ t : Text, slash :: t = [] ++ slash :: t from fun _ => rfl,
      split_append, List.foldl_append]
    exact foldl_push_join h rooted stack

/-- The text of names begins with a byte of the first one. -/
theorem join_eq_cons_of_names {names : List Text} (hne : names ≠ [])
    (h : ∀ name ∈ names, IsName name) : ∃ b t, join [slash] names = b :: t ∧ b ≠ slash := by
  obtain ⟨name, names, rfl⟩ := List.exists_cons_of_ne_nil hne
  obtain ⟨hname, hslash, -⟩ := h name List.mem_cons_self
  obtain ⟨b, name, rfl⟩ := List.exists_cons_of_ne_nil hname
  have hb : b ≠ slash := fun hb => hslash (hb ▸ List.mem_cons_self)
  cases names with
  | nil => exact ⟨b, name, List.append_nil _, hb⟩
  | cons next names => exact ⟨b, _, join_cons_cons .., hb⟩

theorem Parts.toText_relative (name : Text) (names : List Text) :
    (Parts.mk false (name :: names)).toText = join [slash] (name :: names) := rfl

theorem Parts.IsPlain.isRooted_append (h : p.IsPlain) (t : Text) :
    isRooted (p.toText ++ t) = p.rooted := by
  obtain ⟨_ | _, names⟩ := p
  · cases names with
    | nil => rfl
    | cons name names =>
      obtain ⟨b, rest, hjoin, hb⟩ := join_eq_cons_of_names (List.cons_ne_nil _ _) h
      rw [toText_relative, hjoin]
      simpa [isRooted] using hb
  · rfl

theorem Parts.IsPlain.toText_ne_nil (h : p.IsPlain) : p.toText ≠ [] := by
  obtain ⟨_ | _, names⟩ := p
  · cases names with
    | nil => exact List.cons_ne_nil _ _
    | cons name names =>
      obtain ⟨b, rest, hjoin, -⟩ := join_eq_cons_of_names (List.cons_ne_nil _ _) h
      rw [toText_relative, hjoin]
      exact List.cons_ne_nil _ _
  · exact List.cons_ne_nil _ _

/-- A path without detours is taken apart into its names. -/
theorem Parts.IsPlain.parts_toText (h : p.IsPlain) : parts p.toText = p := by
  have hrooted := h.isRooted_append []
  rw [List.append_nil] at hrooted
  rw [parts, h.foldl_push, hrooted, List.append_nil, List.reverse_reverse]

theorem Parts.IsPlain.toText_inj (hp : p.IsPlain) (hq : q.IsPlain) (h : p.toText = q.toText) :
    p = q := by
  rw [← hp.parts_toText, h, hq.parts_toText]

/-- Paths one after the other have the names of the one and then of the other. -/
theorem Parts.IsPlain.append_toText (hp : p.IsPlain) (hq : q.IsPlain) :
    append p.toText q.toText = (Parts.mk p.rooted (p.names ++ q.names)).toText := by
  rw [append, if_neg (by simpa using hp.toText_ne_nil), clean, parts, split_append,
    List.foldl_append, hp.foldl_push, hq.foldl_push, hp.isRooted_append]
  simp

end Names

section Absolute
variable {path cwd : Text}

theorem IsAbsolute.isRooted (h : IsAbsolute path) : isRooted path = true := by
  obtain ⟨p, hrooted, hp, rfl⟩ := h
  have happend := hp.isRooted_append []
  rwa [List.append_nil, hrooted] at happend

theorem IsAbsolute.ne_nil (h : IsAbsolute path) : path ≠ [] := by
  obtain ⟨p, -, hp, rfl⟩ := h
  exact hp.toText_ne_nil

theorem IsAbsolute.absolute_eq (h : IsAbsolute path) : absolute cwd path = path := by
  rw [absolute, if_pos h.isRooted]
  obtain ⟨p, -, hp, rfl⟩ := h
  rw [clean, hp.parts_toText]

/-- A rooted path in its shortest spelling is known by its names. -/
theorem IsAbsolute.names_inj {other : Text} (h : IsAbsolute path) (hother : IsAbsolute other)
    (hnames : (parts path).names = (parts other).names) : path = other := by
  obtain ⟨⟨_, names⟩, rfl, hp, rfl⟩ := h
  obtain ⟨⟨_, names'⟩, rfl, hq, rfl⟩ := hother
  rw [hp.parts_toText, hq.parts_toText] at hnames
  exact congrArg (fun names => (Parts.mk true names).toText) hnames

theorem IsAbsolute.isName (h : IsAbsolute path) : ∀ name ∈ (parts path).names, IsName name := by
  obtain ⟨p, -, hp, rfl⟩ := h
  rw [hp.parts_toText]
  exact hp

/-- The bytes of a path are slashes and those of its names. -/
theorem IsAbsolute.mem_iff {b : UInt8} (h : IsAbsolute path) :
    b ∈ path ↔ b = slash ∨ ∃ name ∈ (parts path).names, b ∈ name := by
  obtain ⟨⟨_, names⟩, rfl, hp, rfl⟩ := h
  rw [hp.parts_toText, Parts.toText, if_pos rfl, List.mem_cons]
  constructor
  · rintro (hslash | hjoin)
    · exact .inl hslash
    · exact mem_join hjoin
  · rintro (hslash | ⟨name, hname, hb⟩)
    · exact .inl hslash
    · exact .inr (mem_join_of_mem hname hb)

/-- No slash stands at the end of a path that has names. -/
theorem IsAbsolute.endsWith_slash (h : IsAbsolute path) (hne : (parts path).names ≠ []) :
    endsWith [slash] path = false := by
  obtain ⟨⟨_, names⟩, rfl, hplain, rfl⟩ := h
  rw [hplain.parts_toText] at hne
  rw [Bool.eq_false_iff]
  intro hends
  obtain ⟨front, hfront⟩ := List.isSuffixOf_iff_suffix.1 hends
  have hpieces := congrArg (split slash) hfront
  rw [split_append, Parts.toText, if_pos rfl, split_cons, if_pos rfl,
    split_join hne fun name hname => (hplain name hname).2.1] at hpieces
  -- The last piece would be empty, and it is a name.
  have hlast := congrArg List.getLast? hpieces
  rw [List.getLast?_append, List.getLast?_cons_of_ne_nil hne] at hlast
  exact (hplain [] (List.mem_of_getLast? hlast.symm)).1 rfl

theorem isName_of_mem_push {stack : List Text} {piece : Text}
    (hstack : ∀ name ∈ stack, IsName name) (hpiece : slash ∉ piece) :
    ∀ name ∈ push true stack piece, IsName name := by
  rw [push.eq_def]
  by_cases hnone : (piece.isEmpty || piece == here) = true
  · rw [if_pos hnone]
    exact hstack
  rw [if_neg hnone]
  by_cases hup : (piece == up) = true
  · rw [if_pos hup]
    cases stack with
    | nil => exact hstack
    | cons top below =>
      have htop : top ≠ up := (hstack top List.mem_cons_self).2.2.2
      simpa [htop] using fun name hn => hstack name (List.mem_cons_of_mem _ hn)
  · obtain ⟨hne, hhere⟩ : piece ≠ [] ∧ piece ≠ here := by simpa using hnone
    rw [if_neg hup]
    intro name hname
    obtain rfl | hname := List.mem_cons.1 hname
    · exact ⟨hne, hpiece, hhere, by simpa using hup⟩
    · exact hstack name hname

/-- Steps up are worked out in a rooted path, so that none of them is left. -/
theorem isPlain_parts (h : Path.isRooted path = true) : (parts path).IsPlain := by
  -- A step up takes away a name, or nothing at the top, so the stack holds names only.
  have hfold (pieces : List Text) (hpieces : ∀ piece ∈ pieces, slash ∉ piece) (stack : List Text)
      (hstack : ∀ name ∈ stack, IsName name) :
      ∀ name ∈ pieces.foldl (push true) stack, IsName name := by
    induction pieces generalizing stack with
    | nil => exact hstack
    | cons piece pieces ih =>
      exact ih (fun p hp => hpieces p (List.mem_cons_of_mem _ hp)) _
        (isName_of_mem_push hstack (hpieces piece List.mem_cons_self))
  intro name hname
  rw [parts, h] at hname
  exact hfold _ (fun piece hp => notMem_of_mem_split hp) [] (by simp) name
    (List.mem_reverse.1 hname)

theorem isAbsolute_clean (h : Path.isRooted path = true) : IsAbsolute (clean path) :=
  ⟨parts path, h, isPlain_parts h, rfl⟩

theorem isAbsolute_iff : IsAbsolute path ↔ Path.isRooted path = true ∧ clean path = path := by
  constructor
  · intro h
    refine ⟨h.isRooted, ?_⟩
    obtain ⟨p, -, hp, rfl⟩ := h
    rw [clean, hp.parts_toText]
  · rintro ⟨hrooted, hclean⟩
    exact hclean ▸ isAbsolute_clean hrooted

instance (path : Text) : Decidable (IsAbsolute path) := decidable_of_iff _ isAbsolute_iff.symm

theorem isAbsolute_append {base : Text} (h : Path.isRooted base = true) (path : Text) :
    IsAbsolute (append base path) := by
  obtain ⟨b, base, rfl⟩ : ∃ b t, base = b :: t := by
    cases base with
    | nil => cases h
    | cons b t => exact ⟨b, t, rfl⟩
  exact isAbsolute_clean h

theorem isAbsolute_absolute (hcwd : Path.isRooted cwd = true) (path : Text) :
    IsAbsolute (absolute cwd path) := by
  rw [absolute]
  split_ifs with hrooted
  · exact isAbsolute_clean hrooted
  · exact isAbsolute_append hcwd path

/-- The directory of a rooted path is rooted. -/
theorem isAbsolute_parent (h : Path.isRooted path = true) : IsAbsolute (parent path) := by
  obtain ⟨front, name, rfl, hname⟩ := exists_isLastRun (· != slash) path
  rw [parent, hname.dropEndWhile_eq]
  refine isAbsolute_clean ?_
  cases front with
  | nil =>
    -- The slash at the beginning is none of the bytes behind the last slash.
    cases name with
    | nil => cases h
    | cons b name =>
      have hb : b = slash := Option.some.inj (eq_of_beq h)
      exact absurd (hname.all b List.mem_cons_self) (by simp [hb])
  | cons b front => exact h

/-- The directory of a path has all its names but the last; the topmost directory is its own. -/
theorem Parts.IsPlain.parent_toText {names : List Text} (h : (Parts.mk true names).IsPlain) :
    parent (Parts.mk true names).toText = (Parts.mk true names.dropLast).toText := by
  obtain rfl | ⟨front, name, rfl⟩ := List.eq_nil_or_concat' names
  · rfl
  have hfront : (Parts.mk true front).IsPlain := h.of_subset (List.subset_append_left _ _)
  have hslash : slash ∉ name := (h name (by simp)).2.1
  have hname (before : Text) : IsLastRun (· != slash) (before ++ [slash]) name := by
    refine ⟨fun b hb => bne_iff_ne.2 fun heq => hslash (heq ▸ hb), fun b hb => ?_⟩
    obtain rfl : slash = b := by simpa using hb
    simp
  rw [List.dropLast_concat]
  by_cases hnil : front = []
  · subst hnil
    have htext : (Parts.mk true ([] ++ [name])).toText = ([] ++ [slash]) ++ name := by
      simp [Parts.toText, join]
    rw [parent, htext, (hname []).dropEndWhile_eq]
    rfl
  · have htext : (Parts.mk true (front ++ [name])).toText =
        (Parts.mk true front).toText ++ [slash] ++ name := by
      rw [Parts.toText, if_pos rfl, join_append hnil (List.cons_ne_nil _ _), Parts.toText,
        if_pos rfl]
      simp [join]
    rw [parent, htext, (hname _).dropEndWhile_eq, clean, parts, split_append, List.foldl_append,
      hfront.foldl_push, hfront.isRooted_append]
    simp [split, splitBy, push]

theorem IsAbsolute.names_parent (h : IsAbsolute path) :
    (parts (parent path)).names = (parts path).names.dropLast := by
  obtain ⟨⟨_, names⟩, rfl, hplain, rfl⟩ := h
  have hfront : (Parts.mk true names.dropLast).IsPlain := hplain.of_subset (List.dropLast_subset _)
  rw [hplain.parent_toText, hfront.parts_toText, hplain.parts_toText]

theorem IsAbsolute.parent_eq_self_iff (h : IsAbsolute path) :
    parent path = path ↔ (parts path).names = [] := by
  have hnames := h.names_parent
  constructor
  · intro hself
    rw [hself] at hnames
    have hlength := congrArg List.length hnames
    rw [List.length_dropLast] at hlength
    exact List.eq_nil_of_length_eq_zero (by omega)
  · intro hnil
    rw [hnil] at hnames
    exact (isAbsolute_parent h.isRooted).names_inj h (hnames.trans hnil.symm)

/-- The parents of a path have fewer and fewer names, until the topmost one is its own parent; so an
induction may go from each path to its parent. -/
theorem IsAbsolute.parent_induction {motive : Text → Prop}
    (step : ∀ path, IsAbsolute path → (parent path ≠ path → motive (parent path)) → motive path)
    (h : IsAbsolute path) : motive path := by
  induction hlength : (parts path).names.length generalizing path with
  | zero =>
    have htop := h.parent_eq_self_iff.2 (List.eq_nil_of_length_eq_zero hlength)
    exact step path h fun hne => absurd htop hne
  | succ n ih =>
    refine step path h fun _ => ih (isAbsolute_parent h.isRooted) ?_
    rw [h.names_parent, List.length_dropLast, hlength, Nat.add_sub_cancel]

end Absolute

section Relative
variable {root path other : Text}

/-- A path is seen from a root by the names that follow those of the root, or as it is. -/
theorem IsAbsolute.relative_cases (h : IsAbsolute path) (root : Text) :
    relative root path = path ∨ ∃ rest : List Text, (Parts.mk false rest).IsPlain ∧
      path = (Parts.mk true ((parts root).names ++ rest)).toText ∧
        relative root path = (Parts.mk false rest).toText := by
  obtain ⟨⟨rooted, names⟩, rfl, hp, rfl⟩ := h
  rw [relative]
  split_ifs with hroot
  · exact .inl rfl
  cases hbeneath : beneath? root (Parts.mk true names).toText with
  | none => exact .inl rfl
  | some rest =>
    rw [beneath?, hp.parts_toText] at hbeneath
    dsimp only at hbeneath
    split_ifs at hbeneath with hrooted
    obtain ⟨found, hfound, hup⟩ := Option.bind_eq_some_iff.1 hbeneath
    split_ifs at hup
    cases hup
    have hnames := List.isPrefixOf?_eq_some_iff_append_eq.1 hfound
    subst hnames
    exact .inr ⟨rest, fun name hn => hp name (List.mem_append_right _ hn), rfl, rfl⟩

/-- What lies beneath a root is seen from there by the names that follow. -/
theorem relative_toText {front more : List Text} (hfront : (Parts.mk true front).IsPlain)
    (hmore : (Parts.mk false more).IsPlain) :
    relative (Parts.mk true front).toText (Parts.mk true (front ++ more)).toText =
      (Parts.mk false more).toText := by
  have hall : (Parts.mk true (front ++ more)).IsPlain := fun name hn =>
    (List.mem_append.1 hn).elim (hfront name) (hmore name)
  have hup : up ∉ more := fun hmem => (hmore up hmem).2.2.2 rfl
  have hrest : front.isPrefixOf? (front ++ more) = some more :=
    List.isPrefixOf?_eq_some_iff_append_eq.2 rfl
  have hbeneath : beneath? (Parts.mk true front).toText (Parts.mk true (front ++ more)).toText =
      some more := by
    simp [beneath?, hfront.parts_toText, hall.parts_toText, hrest, hup]
  rw [relative, if_neg (by simpa using hfront.toText_ne_nil), hbeneath]

/-- Paths are told apart by how they are seen from a root. -/
theorem relative_inj (hpath : IsAbsolute path) (hother : IsAbsolute other)
    (h : relative root path = relative root other) : path = other := by
  -- What is seen as it is stays rooted, and what is seen by names is not.
  have hrooted {rest : List Text} (hrest : (Parts.mk false rest).IsPlain) {absolute : Text}
      (habsolute : IsAbsolute absolute) : (Parts.mk false rest).toText ≠ absolute := by
    intro heq
    have hrooted := hrest.isRooted_append []
    rw [List.append_nil, heq, habsolute.isRooted] at hrooted
    cases hrooted
  obtain hp | ⟨rest, hrest, rfl, hp⟩ := hpath.relative_cases root <;>
    obtain ho | ⟨rest', hrest', rfl, ho⟩ := hother.relative_cases root <;>
    rw [hp, ho] at h
  · exact h
  · exact absurd h.symm (hrooted hrest' hpath)
  · exact absurd h (hrooted hrest hother)
  · rw [(Parts.mk.inj (hrest.toText_inj hrest' h)).2]

/-- A rooted path is a root or lies beneath it: it goes on behind the root with a slash, or the root
is the topmost directory. -/
def IsBeneath (root path : Text) : Prop :=
  path = root ∨ root = [slash] ∨ root ++ [slash] <+: path

instance (root path : Text) : Decidable (IsBeneath root path) :=
  inferInstanceAs (Decidable (_ ∨ _ ∨ _))

/-- What lies beneath a root has the names of the root and then some. -/
theorem isBeneath_toText_iff {front names : List Text} (hfront : (Parts.mk true front).IsPlain)
    (hnames : (Parts.mk true names).IsPlain) :
    IsBeneath (Parts.mk true front).toText (Parts.mk true names).toText ↔ front <+: names := by
  by_cases hnil : front = []
  · subst hnil
    exact iff_of_true (.inr (.inl rfl)) List.nil_prefix
  have htext (more : List Text) : (Parts.mk true more).toText = slash :: join [slash] more := rfl
  have hsplit := split_join hnil fun name hname => (hfront name hname).2.1
  constructor
  · rintro (hsame | htop | ⟨rest, hrest⟩)
    · obtain rfl : names = front := (Parts.mk.inj (hnames.toText_inj hfront hsame)).2
      exact List.prefix_rfl
    · obtain ⟨b, t, hjoin, -⟩ := join_eq_cons_of_names hnil hfront
      rw [htext, hjoin] at htop
      cases htop
    · -- The slash behind the root cuts the pieces of the path in two.
      rw [htext, htext, List.append_assoc, List.cons_append, List.cons.injEq] at hrest
      have hpieces := congrArg (split slash) hrest.2
      rw [List.singleton_append, split_append, hsplit] at hpieces
      by_cases hnone : names = []
      · subst hnone
        have hlength := congrArg List.length hrest.2
        simp [join] at hlength
      · rw [split_join hnone fun name hname => (hnames name hname).2.1] at hpieces
        exact ⟨_, hpieces⟩
  · rintro ⟨more, rfl⟩
    by_cases hmore : more = []
    · rw [hmore, List.append_nil]
      exact .inl rfl
    · refine .inr (.inr ⟨join [slash] more, ?_⟩)
      rw [htext, htext, join_append hnil hmore]
      simp

/-- A path is seen as it is from a root that it does not lie beneath. -/
theorem relative_of_not_prefix {front names : List Text} (hfront : (Parts.mk true front).IsPlain)
    (hnames : (Parts.mk true names).IsPlain) (h : ¬ front <+: names) :
    relative (Parts.mk true front).toText (Parts.mk true names).toText =
      (Parts.mk true names).toText := by
  have hnone : front.isPrefixOf? names = none := by
    rw [Option.eq_none_iff_forall_ne_some]
    intro rest hrest
    exact h ⟨rest, List.isPrefixOf?_eq_some_iff_append_eq.1 hrest⟩
  rw [relative, if_neg (by simpa using hfront.toText_ne_nil), beneath?, hfront.parts_toText,
    hnames.parts_toText]
  simp [hnone]

/-- A relative path without detours has no step up. -/
theorem Parts.IsPlain.up_notMem_split {names : List Text} (h : (Parts.mk false names).IsPlain) :
    up ∉ split slash (Parts.mk false names).toText := by
  by_cases hnil : names = []
  · subst hnil
    decide
  obtain ⟨name, rest, rfl⟩ := List.exists_cons_of_ne_nil hnil
  rw [toText_relative, split_join hnil fun name hname => (h name hname).2.1]
  exact fun hmem => (h up hmem).2.2.2 rfl

/-- Paths seen from a root. No two of them are seen alike; one that is the root or lies beneath it is
seen by a relative path without steps up, which leads from the root back to it; and any other one is
seen as it is. -/
theorem relative_isInvertible (hroot : IsAbsolute root) (hpath : IsAbsolute path)
    (hother : IsAbsolute other) :
    (relative root path = relative root other → path = other) ∧
    (IsBeneath root path →
      isRooted (relative root path) = false ∧ up ∉ split slash (relative root path) ∧
        append root (relative root path) = path) ∧
    (¬ IsBeneath root path → relative root path = path) := by
  refine ⟨relative_inj hpath hother, ?_⟩
  obtain ⟨⟨_, front⟩, rfl, hfront, rfl⟩ := hroot
  obtain ⟨⟨_, names⟩, rfl, hnames, rfl⟩ := hpath
  rw [isBeneath_toText_iff hfront hnames]
  refine ⟨?_, relative_of_not_prefix hfront hnames⟩
  rintro ⟨more, rfl⟩
  have hmore : (Parts.mk false more).IsPlain := fun name hname =>
    hnames name (List.mem_append_right _ hname)
  have hrooted := hmore.isRooted_append []
  rw [List.append_nil] at hrooted
  rw [relative_toText hfront hmore]
  exact ⟨hrooted, hmore.up_notMem_split, hfront.append_toText hmore⟩

/-- A name that begins with dots beneath the root, and one that the root is only the beginning of. -/
theorem relative_isInvertible_dottedNames :
    IsAbsolute "/ws" ∧ IsAbsolute "/ws/..a/b" ∧ IsAbsolute "/ws..a" ∧
    IsBeneath "/ws" "/ws/..a/b" ∧ relative "/ws" "/ws/..a/b" = "..a/b" ∧
    up ∉ split slash (relative "/ws" "/ws/..a/b") ∧
    append "/ws" (relative "/ws" "/ws/..a/b") = "/ws/..a/b" ∧
    ¬ IsBeneath "/ws" "/ws..a" ∧ relative "/ws" "/ws..a" = "/ws..a" ∧
    relative "/ws" "/ws/..a/b" ≠ relative "/ws" "/ws..a" := by
  have hroot : IsAbsolute "/ws" := by decide
  have hpath : IsAbsolute "/ws/..a/b" := by decide
  have hother : IsAbsolute "/ws..a" := by decide
  have hbeneath : IsBeneath "/ws" "/ws/..a/b" := by decide
  have haside : ¬ IsBeneath "/ws" "/ws..a" := by decide
  obtain ⟨hinj, hin, -⟩ := relative_isInvertible hroot hpath hother
  obtain ⟨-, -, hout⟩ := relative_isInvertible hroot hother hpath
  obtain ⟨-, hup, hback⟩ := hin hbeneath
  refine ⟨hroot, hpath, hother, hbeneath, by decide, hup, hback, haside, hout haside, fun hsame => ?_⟩
  exact absurd (hinj hsame) (by decide)

end Relative

section Extension

/-- The extension of a path is that of its last name. -/
theorem extension_append_slash (front rest : Text) :
    extension (front ++ slash :: rest) = extension rest := by
  have hstop (back : Text) : (back ++ slash :: front.reverse).takeWhile (· != slash) =
      back.takeWhile (· != slash) := by
    induction back with
    | nil => rfl
    | cons b back ih => simp [List.takeWhile_cons, ih]
  have hlast := hstop rest.reverse
  rw [extension, extension, List.reverse_append, List.reverse_cons, List.append_assoc,
    List.singleton_append, hlast]

theorem extension_join (names : List Text) :
    extension (join [slash] names) = extension (names.getLastD []) := by
  induction names with
  | nil => rfl
  | cons name names ih =>
    cases names with
    | nil => rw [join, List.intercalate_singleton]; rfl
    | cons next names => rw [join_cons_cons, extension_append_slash, ih]; rfl

theorem extension_toText (p : Parts) (h : p.rooted = true ∨ p.names ≠ []) :
    extension p.toText = extension (p.names.getLastD []) := by
  obtain ⟨_ | _, names⟩ := p
  · obtain ⟨name, names, rfl⟩ := List.exists_cons_of_ne_nil (h.resolve_left (by simp))
    exact extension_join _
  · exact (extension_append_slash [] _).trans (extension_join names)

end Extension

section Length

/-- The bytes of names, and a slash for each. -/
def spread (names : List Text) : Nat := (names.map fun name => name.length + 1).sum

theorem spread_cons (name : Text) (names : List Text) :
    spread (name :: names) = name.length + 1 + spread names := List.sum_cons

theorem length_join_add_one {names : List Text} (hne : names ≠ []) :
    (join [slash] names).length + 1 = spread names := by
  induction names with
  | nil => exact absurd rfl hne
  | cons name names ih =>
    cases names with
    | nil => simp [join, spread]
    | cons next names =>
      rw [join_cons_cons, spread_cons, ← ih (List.cons_ne_nil _ _), List.length_append,
        List.length_cons]
      omega

theorem spread_split (t : Text) : spread (split slash t) = t.length + 1 := by
  induction t with
  | nil => rfl
  | cons b t ih =>
    obtain ⟨piece, pieces, ht⟩ := List.exists_cons_of_ne_nil (split_ne_nil slash t)
    rw [ht, spread_cons] at ih
    rw [split_cons, ht, List.length_cons]
    split_ifs
    · rw [spread_cons, spread_cons, List.length_nil]
      omega
    · rw [List.headD_cons, List.tail_cons, spread_cons, List.length_cons]
      omega

theorem spread_push_le (rooted : Bool) (stack : List Text) (name : Text) :
    spread (push rooted stack name) ≤ name.length + 1 + spread stack := by
  rw [push.eq_def]
  by_cases hnone : (name.isEmpty || name == here) = true
  · rw [if_pos hnone]
    exact Nat.le_add_left _ _
  rw [if_neg hnone]
  by_cases hup : (name == up) = true
  · rw [if_pos hup, eq_of_beq hup]
    cases stack with
    | nil => cases rooted <;> simp [spread]
    | cons top below =>
      dsimp only
      split_ifs
      · exact (spread_cons up _).le
      · rw [spread_cons]
        omega
  · rw [if_neg hup, spread_cons]

theorem spread_foldl_push_le (rooted : Bool) (pieces stack : List Text) :
    spread (pieces.foldl (push rooted) stack) ≤ spread pieces + spread stack := by
  induction pieces generalizing stack with
  | nil => exact Nat.le_add_left _ _
  | cons piece pieces ih =>
    have hpush := spread_push_le rooted stack piece
    have hrest := ih (push rooted stack piece)
    rw [List.foldl_cons, spread_cons]
    omega

/-- The shortest spelling of a rooted path is not longer than the path. -/
theorem length_clean_le {path : Text} (h : isRooted path = true) :
    (clean path).length ≤ path.length := by
  obtain ⟨rest, rfl⟩ : ∃ rest : Text, path = slash :: rest := by
    cases path with
    | nil => cases h
    | cons b rest => exact ⟨rest, by rw [Option.some.inj (eq_of_beq h)]⟩
  have hnames : spread (parts (slash :: rest)).names ≤ rest.length + 1 := by
    have hfold := spread_foldl_push_le true (split slash rest) []
    rw [spread_split] at hfold
    rw [parts, h, split_cons, if_pos rfl, List.foldl_cons, show push true [] [] = [] from rfl]
    simpa [spread, List.sum_reverse] using hfold
  rw [clean, Parts.toText, if_pos (show (parts (slash :: rest)).rooted = true from h),
    List.length_cons, List.length_cons]
  by_cases hne : (parts (slash :: rest)).names = []
  · rw [hne]
    exact Nat.succ_le_succ (Nat.zero_le _)
  · rw [length_join_add_one hne]
    exact hnames

end Length
end ScriptNav.Path
