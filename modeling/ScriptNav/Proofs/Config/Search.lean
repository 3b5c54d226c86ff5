import Mathlib.Data.List.Induction
import ScriptNav.Config.Basic
import ScriptNav.Proofs.Disk

/-! The search for a configuration file, from a directory upwards. It goes to the directory above as
long as a candidate is missing, and ends at the latest in the directory that is its own parent. A
candidate that the system fails to look at for another reason ends the search at once. As long as no
such candidate comes first, the search finds the nearest file, and what stands below or beside its way
does not matter. What the system can look at is left open; on a disk without links it is whatever is
there, and what is not there is missing, unless a path cannot be one of the disk. -/
namespace ScriptNav.Config

open Text

/-- The rooted path of the directory in which the search begins. -/
def beginning (cwd dir : Text) : Text := Path.absolute cwd (if dir.isEmpty then Path.here else dir)

/-- The directory `dir` is `start` or lies above it. -/
structure IsAncestor (start dir : Text) : Prop where
  isAbsolute : Path.IsAbsolute dir
  isBeneath : Path.IsBeneath dir start

/-- A system that knows a tree without links by `stat`. What it reports at a path is what the names
of the path lead to; it may fail to look there, and say so in any way. -/
structure IsView (stat : Text → Except FileError Entry) (root : Entry) : Prop where
  isLinkless : root.IsLinkless
  found : ∀ {path : Text} {entry : Entry}, Path.IsAbsolute path → stat path = .ok entry →
    root.descend? (Path.parts path).names = some entry

/-- A directory has an entry with the name of a configuration file that can be looked at. -/
def HoldsFile (stat : Text → Except FileError Entry) (root : Entry) (dir : Text) : Prop :=
  ∃ entries entry, root.descend? (Path.parts dir).names = some (.directory entries) ∧
    (fileName, entry) ∈ entries ∧ stat (Path.append dir fileName) = .ok entry

/-- The directory `dir` is the deepest one with a configuration file, at `start` or above it. -/
structure IsNearest (stat : Text → Except FileError Entry) (root : Entry) (start dir : Text) : Prop
    where
  isAncestor : IsAncestor start dir
  holdsFile : HoldsFile stat root dir
  deepest : ∀ other, IsAncestor start other → HoldsFile stat root other → Path.IsBeneath other dir

/-- The candidate of a directory cannot be looked at, and not because it is missing. -/
def Refuses (stat : Text → Except FileError Entry) (dir : Text) (error : FileError) : Prop :=
  stat (Path.append dir fileName) = .error error ∧ error.fault ≠ .missing

/-- No candidate is refused on the way from `start` upwards before one is found. -/
def IsSearchable (stat : Text → Except FileError Entry) (root : Entry) (start : Text) : Prop :=
  ∀ dir error, IsAncestor start dir → Refuses stat dir error →
    ∃ deeper, IsAncestor start deeper ∧ Path.IsBeneath dir deeper ∧ HoldsFile stat root deeper

/-- The first candidate from `start` upwards that is not missing is that of `dir`, and is refused. -/
structure IsBlocked (stat : Text → Except FileError Entry) (start dir : Text) (error : FileError) :
    Prop where
  isAncestor : IsAncestor start dir
  refuses : Refuses stat dir error
  isFirst : ∀ deeper, IsAncestor start deeper → Path.IsBeneath dir deeper → deeper ≠ dir →
    ∃ other, stat (Path.append deeper fileName) = .error other ∧ other.fault = .missing

/-- The search from a directory upwards, by its rounds, and what it ends with. A round looks at one
candidate; the next one is about the parent. -/
inductive Climbs (stat : Text → Except FileError Entry) :
    Text → Nat → Except Error (Option Text) → Prop
  | found {dir : Text} {entry : Entry} (hstat : stat (Path.append dir fileName) = .ok entry) :
    Climbs stat dir 1 (.ok (some (Path.append dir fileName)))
  | failed {dir : Text} {error : FileError} (hrefuses : Refuses stat dir error) :
    Climbs stat dir 1 (.error (.unsearchable (Path.append dir fileName) error))
  | top {dir : Text} {error : FileError}
      (hstat : stat (Path.append dir fileName) = .error error)
      (hfault : error.fault = .missing) (hparent : Path.parent dir = dir) :
    Climbs stat dir 1 (.ok none)
  | rise {dir : Text} {error : FileError} {rounds : Nat} {result : Except Error (Option Text)}
      (hstat : stat (Path.append dir fileName) = .error error)
      (hfault : error.fault = .missing) (hparent : Path.parent dir ≠ dir)
      (hrest : Climbs stat (Path.parent dir) rounds result) :
    Climbs stat dir (rounds + 1) result

/-- What a search from `start` should give: the candidate of the nearest directory with a file, or
nothing if there is none. -/
inductive IsAnswer (stat : Text → Except FileError Entry) (root : Entry) (start : Text) :
    Except Error (Option Text) → Prop
  | nearest {dir : Text} (h : IsNearest stat root start dir) :
    IsAnswer stat root start (.ok (some (Path.append dir fileName)))
  | nowhere (h : ∀ dir, IsAncestor start dir → ¬ HoldsFile stat root dir) :
    IsAnswer stat root start (.ok none)

variable {stat stat' : Text → Except FileError Entry} {root root' : Entry} {disk : Disk}
  {cwd start dir : Text} {rounds : Nat} {result : Except Error (Option Text)}

section Ancestors

/-- The directories above a path are spelled with the first of its names. -/
theorem isAncestor_toText_iff {names : List Text} (h : (Path.Parts.mk true names).IsPlain) :
    IsAncestor (Path.Parts.mk true names).toText dir ↔
      ∃ front, front <+: names ∧ dir = (Path.Parts.mk true front).toText := by
  constructor
  · rintro ⟨⟨⟨_, front⟩, rfl, hfront, rfl⟩, hbeneath⟩
    exact ⟨front, (Path.isBeneath_toText_iff hfront h).1 hbeneath, rfl⟩
  · rintro ⟨front, hbegins, rfl⟩
    have hfront : (Path.Parts.mk true front).IsPlain := h.of_subset hbegins.subset
    exact ⟨⟨_, rfl, hfront, rfl⟩, (Path.isBeneath_toText_iff hfront h).2 hbegins⟩

/-- At a directory or above it is the directory and, unless it is the topmost one, what is at its
parent or above that. -/
theorem isAncestor_iff (hstart : Path.IsAbsolute start) :
    IsAncestor start dir ↔
      dir = start ∨ Path.parent start ≠ start ∧ IsAncestor (Path.parent start) dir := by
  have hself := hstart.parent_eq_self_iff
  obtain ⟨⟨_, names⟩, rfl, hplain, rfl⟩ := hstart
  have hfront : (Path.Parts.mk true names.dropLast).IsPlain :=
    hplain.of_subset (List.dropLast_subset _)
  rw [Ne, hself, hplain.parts_toText, hplain.parent_toText, isAncestor_toText_iff hplain,
    isAncestor_toText_iff hfront]
  obtain rfl | ⟨front, name, rfl⟩ := List.eq_nil_or_concat' names
  · simp
  · simp only [List.dropLast_concat, List.prefix_concat_iff, or_and_right, exists_or,
      exists_eq_left, List.append_eq_nil_iff, List.cons_ne_nil, and_false, not_false_eq_true,
      true_and]

theorem IsAncestor.refl (hstart : Path.IsAbsolute start) : IsAncestor start start :=
  (isAncestor_iff hstart).2 (.inl rfl)

theorem IsAncestor.names_prefix (hstart : Path.IsAbsolute start) (h : IsAncestor start dir) :
    (Path.parts dir).names <+: (Path.parts start).names := by
  obtain ⟨⟨_, names⟩, rfl, hplain, rfl⟩ := hstart
  obtain ⟨front, hfront, rfl⟩ := (isAncestor_toText_iff hplain).1 h
  have hfrontPlain : (Path.Parts.mk true front).IsPlain := hplain.of_subset hfront.subset
  rwa [hplain.parts_toText, hfrontPlain.parts_toText]

theorem IsAncestor.trans {top : Text} (hstart : Path.IsAbsolute start) (hdir : IsAncestor start dir)
    (htop : IsAncestor dir top) : IsAncestor start top := by
  obtain ⟨⟨_, names⟩, rfl, hplain, rfl⟩ := hstart
  obtain ⟨front, hfront, rfl⟩ := (isAncestor_toText_iff hplain).1 hdir
  have hfrontPlain : (Path.Parts.mk true front).IsPlain := hplain.of_subset hfront.subset
  obtain ⟨less, hless, rfl⟩ := (isAncestor_toText_iff hfrontPlain).1 htop
  exact (isAncestor_toText_iff hplain).2 ⟨less, hless.trans hfront, rfl⟩

theorem IsAncestor.antisymm {top : Text} (hdir : IsAncestor start dir) (htop : IsAncestor start top)
    (h : Path.IsBeneath dir top) (h' : Path.IsBeneath top dir) : dir = top := by
  obtain ⟨⟨_, names⟩, rfl, hplain, rfl⟩ := hdir.isAbsolute
  obtain ⟨⟨_, names'⟩, rfl, hplain', rfl⟩ := htop.isAbsolute
  rw [Path.isBeneath_toText_iff hplain hplain'] at h
  rw [Path.isBeneath_toText_iff hplain' hplain] at h'
  rw [h.eq_of_length_le h'.length_le]

/-- The directories of a search are one after another the parents, up to the topmost one. -/
theorem ancestors_eq (hstart : Path.IsAbsolute start) :
    ancestors start =
      start :: if Path.parent start = start then [] else ancestors (Path.parent start) := by
  have hself := hstart.parent_eq_self_iff
  have hnames := hstart.names_parent
  obtain ⟨⟨_, names⟩, rfl, hplain, rfl⟩ := hstart
  rw [hplain.parts_toText] at hself hnames
  rw [ancestors, ancestors, hnames, hplain.parts_toText, List.range_succ_eq_map, List.map_cons,
    Nat.sub_zero, List.take_length, List.map_map]
  obtain rfl | ⟨front, name, rfl⟩ := List.eq_nil_or_concat' names
  · rw [if_pos (hself.2 rfl)]
    rfl
  · rw [if_neg (mt hself.1 (by simp)), List.dropLast_concat, List.length_append]
    refine congrArg _ (List.map_congr_left fun n _ => ?_)
    have htake : (front ++ [name]).take (front.length + [name].length - (n + 1)) =
        front.take (front.length - n) := by
      rw [List.length_singleton, Nat.add_sub_add_right,
        List.take_append_of_le_length (Nat.sub_le _ _)]
    exact congrArg (fun names => (Path.Parts.mk true names).toText) htake

theorem mem_ancestors_iff (hstart : Path.IsAbsolute start) :
    dir ∈ ancestors start ↔ IsAncestor start dir := by
  refine hstart.parent_induction
    (motive := fun start => dir ∈ ancestors start ↔ IsAncestor start dir) fun start hstart ih => ?_
  rw [ancestors_eq hstart, isAncestor_iff hstart, List.mem_cons]
  by_cases hparent : Path.parent start = start
  · simp [hparent]
  · rw [if_neg hparent, ih hparent, and_iff_right hparent]

theorem forall_isAncestor_iff (hstart : Path.IsAbsolute start) {p : Text → Prop} :
    (∀ dir, IsAncestor start dir → p dir) ↔ ∀ dir ∈ ancestors start, p dir := by
  simp only [mem_ancestors_iff hstart]

end Ancestors

section Rounds

/-- The search ends, after as many rounds at most as the path has names and one more. -/
theorem climbs_firstCandidate (stat : Text → Except FileError Entry)
    (hstart : Path.IsAbsolute start) :
    ∃ rounds ≤ (Path.parts start).names.length + 1,
      Climbs stat start rounds (firstCandidate stat (ancestors start)) := by
  refine hstart.parent_induction
    (motive := fun start => ∃ rounds ≤ (Path.parts start).names.length + 1,
      Climbs stat start rounds (firstCandidate stat (ancestors start))) fun start hstart ih => ?_
  rw [ancestors_eq hstart, firstCandidate]
  cases hstat : stat (Path.append start fileName) with
  | ok entry => exact ⟨1, by omega, .found hstat⟩
  | error error =>
    dsimp only
    by_cases hfault : error.fault = .missing
    · rw [if_pos (by simp [hfault])]
      by_cases hparent : Path.parent start = start
      · rw [if_pos hparent]
        exact ⟨1, by omega, .top hstat hfault hparent⟩
      · obtain ⟨rounds, hrounds, hrest⟩ := ih hparent
        have hne := mt hstart.parent_eq_self_iff.2 hparent
        have hpos := List.length_pos_iff.2 hne
        rw [hstart.names_parent, List.length_dropLast] at hrounds
        rw [if_neg hparent]
        exact ⟨rounds + 1, by omega, .rise hstat hfault hparent hrest⟩
    · rw [if_neg (by simpa using hfault)]
      exact ⟨1, by omega, .failed ⟨hstat, hfault⟩⟩

/-- However the rounds go, they end with what is found among the directories. -/
theorem Climbs.eq_firstCandidate (h : Climbs stat start rounds result)
    (hstart : Path.IsAbsolute start) : result = firstCandidate stat (ancestors start) := by
  induction h with
  | found hstat => rw [ancestors_eq hstart, firstCandidate, hstat]
  | failed hrefuses =>
    rw [ancestors_eq hstart, firstCandidate, hrefuses.1]
    exact (if_neg (by simpa using hrefuses.2)).symm
  | top hstat hfault hparent =>
    rw [ancestors_eq hstart, firstCandidate, hstat, if_pos hparent]
    exact (if_pos (by simp [hfault])).symm
  | rise hstat hfault hparent _ ih =>
    rw [ih (Path.isAbsolute_parent hstart.isRooted), ancestors_eq hstart, firstCandidate, hstat,
      if_neg hparent]
    exact (if_pos (by simp [hfault])).symm

end Rounds

section Candidates

/-- A candidate has the names of its directory and the name of a configuration file. -/
theorem names_candidate (hdir : Path.IsAbsolute dir) :
    (Path.parts (Path.append dir fileName)).names = (Path.parts dir).names ++ [fileName] := by
  obtain ⟨⟨_, names⟩, rfl, hplain, rfl⟩ := hdir
  have hfile : (Path.Parts.mk false [fileName]).IsPlain := by decide
  have hall : (Path.Parts.mk true (names ++ [fileName])).IsPlain := fun name hname =>
    (List.mem_append.1 hname).elim (hplain name) (hfile name)
  have happend := hplain.append_toText hfile
  rw [show (Path.Parts.mk false [fileName]).toText = fileName by decide] at happend
  rw [happend, hall.parts_toText, hplain.parts_toText]

theorem not_holdsFile {error : FileError} (h : stat (Path.append dir fileName) = .error error) :
    ¬ HoldsFile stat root dir := by
  rintro ⟨_, _, -, -, hstat⟩
  cases h.symm.trans hstat

/-- A candidate that can be looked at is an entry of its directory. -/
theorem holdsFile_of_stat (hview : IsView stat root) (hdir : Path.IsAbsolute dir) {entry : Entry}
    (hstat : stat (Path.append dir fileName) = .ok entry) : HoldsFile stat root dir := by
  have hfound := hview.found (Path.isAbsolute_append hdir.isRooted fileName) hstat
  rw [names_candidate hdir, Entry.descend?_append] at hfound
  obtain ⟨e, he, hfound⟩ := Option.bind_eq_some_iff.1 hfound
  obtain ⟨entries, child, rfl, hmem, -, hchild⟩ := Entry.exists_of_descend?_cons hfound
  cases hchild
  exact ⟨entries, entry, he, hmem, hstat⟩

theorem holdsFile_iff_isOk (hview : IsView stat root) (hdir : Path.IsAbsolute dir) :
    HoldsFile stat root dir ↔ (stat (Path.append dir fileName)).isOk = true := by
  cases hstat : stat (Path.append dir fileName) with
  | error error => exact iff_of_false (not_holdsFile hstat) (by simp [Except.isOk, Except.toBool])
  | ok entry => exact iff_of_true (holdsFile_of_stat hview hdir hstat) rfl

end Candidates

section Answers

/-- Where nothing is refused at a directory itself, it is enough to search its parent. -/
theorem isSearchable_parent_iff (hstart : Path.IsAbsolute start)
    (hparent : Path.parent start ≠ start) {error : FileError}
    (hstat : stat (Path.append start fileName) = .error error) (hfault : error.fault = .missing) :
    IsSearchable stat root start ↔ IsSearchable stat root (Path.parent start) := by
  have hself {other : FileError} : ¬ Refuses stat start other := by
    rintro ⟨hother, hne⟩
    cases hstat.symm.trans hother
    exact hne hfault
  have habove {dir : Text} (hdir : IsAncestor (Path.parent start) dir) : IsAncestor start dir :=
    (isAncestor_iff hstart).2 (.inr ⟨hparent, hdir⟩)
  constructor
  · intro h dir other hdir hrefuses
    obtain ⟨deeper, hdeeper, hbeneath, hholds⟩ := h dir other (habove hdir) hrefuses
    have hne : deeper ≠ start := fun heq => not_holdsFile hstat (heq ▸ hholds)
    exact ⟨deeper, (((isAncestor_iff hstart).1 hdeeper).resolve_left hne).2, hbeneath, hholds⟩
  · intro h dir other hdir hrefuses
    have hne : dir ≠ start := fun heq => hself (heq ▸ hrefuses)
    have hdir := (((isAncestor_iff hstart).1 hdir).resolve_left hne).2
    obtain ⟨deeper, hdeeper, hbeneath, hholds⟩ := h dir other hdir hrefuses
    exact ⟨deeper, habove hdeeper, hbeneath, hholds⟩

/-- The search fails just if a candidate is refused before one is found. -/
theorem Climbs.isOk_iff (h : Climbs stat start rounds result) (hview : IsView stat root)
    (hstart : Path.IsAbsolute start) : result.isOk = true ↔ IsSearchable stat root start := by
  induction h with
  | @found start _ hstat =>
    refine iff_of_true rfl fun dir _ hdir _ => ⟨start, .refl hstart, hdir.isBeneath, ?_⟩
    exact holdsFile_of_stat hview hstart hstat
  | @failed start error hrefuses =>
    refine iff_of_false (by simp [Except.isOk, Except.toBool]) fun h => ?_
    obtain ⟨deeper, hdeeper, hbeneath, hholds⟩ := h start error (.refl hstart) hrefuses
    obtain rfl := hdeeper.antisymm (.refl hstart) hdeeper.isBeneath hbeneath
    exact not_holdsFile hrefuses.1 hholds
  | @top start _ hstat hfault hparent =>
    refine iff_of_true rfl fun dir error hdir hrefuses => ?_
    obtain rfl := ((isAncestor_iff hstart).1 hdir).resolve_right fun h => h.1 hparent
    cases hstat.symm.trans hrefuses.1
    exact absurd hfault hrefuses.2
  | rise hstat hfault hparent _ ih =>
    rw [ih (Path.isAbsolute_parent hstart.isRooted),
      isSearchable_parent_iff hstart hparent hstat hfault]

/-- A search that fails tells of the first candidate that is not missing. -/
theorem Climbs.isBlocked {error : Error} (h : Climbs stat start rounds result)
    (hstart : Path.IsAbsolute start) (herror : result = .error error) :
    ∃ dir fault, IsBlocked stat start dir fault ∧
      error = .unsearchable (Path.append dir fileName) fault := by
  induction h with
  | found _ => cases herror
  | @failed start fault hrefuses =>
    cases herror
    refine ⟨start, fault, ⟨.refl hstart, hrefuses, fun deeper hdeeper hbeneath hne => ?_⟩, rfl⟩
    exact absurd (hdeeper.antisymm (.refl hstart) hdeeper.isBeneath hbeneath) hne
  | top _ _ _ => cases herror
  | rise hstat hfault hparent _ ih =>
    obtain ⟨dir, fault, hblocked, rfl⟩ := ih (Path.isAbsolute_parent hstart.isRooted) herror
    refine ⟨dir, fault, ⟨?_, hblocked.refuses, fun deeper hdeeper hbeneath hne => ?_⟩, rfl⟩
    · exact (isAncestor_iff hstart).2 (.inr ⟨hparent, hblocked.isAncestor⟩)
    · obtain rfl | ⟨-, habove⟩ := (isAncestor_iff hstart).1 hdeeper
      · exact ⟨_, hstat, hfault⟩
      · exact hblocked.isFirst deeper habove hbeneath hne

/-- The topmost directory has no parent to leave the answer to. -/
theorem IsAnswer.of_top (hstart : Path.IsAbsolute start) (hparent : Path.parent start = start)
    (hnot : ¬ HoldsFile stat root start) : IsAnswer stat root start (.ok none) := by
  refine .nowhere fun dir hdir hholds => hnot ?_
  have hsame := ((isAncestor_iff hstart).1 hdir).resolve_right fun h => h.1 hparent
  exact hsame ▸ hholds

/-- A directory without a file leaves the answer to its parent. -/
theorem IsAnswer.of_parent (hstart : Path.IsAbsolute start) (hparent : Path.parent start ≠ start)
    (hnot : ¬ HoldsFile stat root start) (h : IsAnswer stat root (Path.parent start) result) :
    IsAnswer stat root start result := by
  have habove (dir : Text) (hdir : IsAncestor start dir) (hholds : HoldsFile stat root dir) :
      IsAncestor (Path.parent start) dir :=
    (((isAncestor_iff hstart).1 hdir).resolve_left fun heq => hnot (heq ▸ hholds)).2
  cases h with
  | nearest h =>
    refine .nearest ⟨(isAncestor_iff hstart).2 (.inr ⟨hparent, h.isAncestor⟩), h.holdsFile, ?_⟩
    exact fun dir hdir hholds => h.deepest dir (habove dir hdir hholds) hholds
  | nowhere h => exact .nowhere fun dir hdir hholds => h dir (habove dir hdir hholds) hholds

/-- A search that does not fail ends with the nearest file. -/
theorem Climbs.isAnswer (h : Climbs stat start rounds result) (hview : IsView stat root)
    (hstart : Path.IsAbsolute start) (hok : result.isOk = true) :
    IsAnswer stat root start result := by
  induction h with
  | found hstat =>
    have hholds := holdsFile_of_stat hview hstart hstat
    exact .nearest ⟨.refl hstart, hholds, fun other hother _ => hother.isBeneath⟩
  | failed _ => cases hok
  | top hstat _ hparent => exact .of_top hstart hparent (not_holdsFile hstat)
  | rise hstat _ hparent _ ih =>
    refine .of_parent hstart hparent (not_holdsFile hstat) ?_
    exact ih (Path.isAbsolute_parent hstart.isRooted) hok

theorem IsNearest.unique {dir' : Text} (h : IsNearest stat root start dir)
    (h' : IsNearest stat root start dir') : dir = dir' :=
  h.isAncestor.antisymm h'.isAncestor (h'.deepest _ h.isAncestor h.holdsFile)
    (h.deepest _ h'.isAncestor h'.holdsFile)

theorem IsAnswer.unique {result' : Except Error (Option Text)} (h : IsAnswer stat root start result)
    (h' : IsAnswer stat root start result') : result = result' := by
  cases h with
  | nearest h =>
    cases h' with
    | nearest h' => rw [h.unique h']
    | nowhere h' => exact absurd h.holdsFile (h' _ h.isAncestor)
  | nowhere h =>
    cases h' with
    | nearest h' => exact absurd h'.holdsFile (h _ h'.isAncestor)
    | nowhere => rfl

/-- The answer depends on nothing but which of the directories hold a file. -/
theorem IsAnswer.congr (h : IsAnswer stat root start result)
    (hsame : ∀ dir, IsAncestor start dir → (HoldsFile stat' root' dir ↔ HoldsFile stat root dir)) :
    IsAnswer stat' root' start result := by
  cases h with
  | nearest h =>
    refine .nearest ⟨h.isAncestor, (hsame _ h.isAncestor).2 h.holdsFile, fun dir hdir hholds => ?_⟩
    exact h.deepest dir hdir ((hsame dir hdir).1 hholds)
  | nowhere h => exact .nowhere fun dir hdir hholds => h dir hdir ((hsame dir hdir).1 hholds)

theorem isAnswer_some_iff {candidate : Text} :
    IsAnswer stat root start (.ok (some candidate)) ↔
      ∃ nearest, IsNearest stat root start nearest ∧ candidate = Path.append nearest fileName := by
  constructor
  · rintro (h | _)
    exact ⟨_, h, rfl⟩
  · rintro ⟨nearest, h, rfl⟩
    exact .nearest h

theorem isAnswer_none_iff :
    IsAnswer stat root start (.ok none) ↔ ∀ dir, IsAncestor start dir → ¬ HoldsFile stat root dir :=
  ⟨fun | .nowhere h => h, .nowhere⟩

end Answers

section Find
variable (hcwd : Path.isRooted cwd = true) (dir : Text)
include hcwd

theorem isAbsolute_beginning : Path.IsAbsolute (beginning cwd dir) := Path.isAbsolute_absolute hcwd _

theorem climbs_search (stat : Text → Except FileError Entry) :
    ∃ rounds ≤ (Path.parts (beginning cwd dir)).names.length + 1,
      Climbs stat (beginning cwd dir) rounds (search stat cwd dir) :=
  climbs_firstCandidate stat (isAbsolute_beginning hcwd dir)

theorem Climbs.eq_search {dir : Text} (h : Climbs stat (beginning cwd dir) rounds result) :
    result = search stat cwd dir :=
  h.eq_firstCandidate (isAbsolute_beginning hcwd dir)

theorem isOk_search_iff (hview : IsView stat root) :
    (search stat cwd dir).isOk = true ↔ IsSearchable stat root (beginning cwd dir) := by
  obtain ⟨_, -, hclimbs⟩ := climbs_search hcwd dir stat
  exact hclimbs.isOk_iff hview (isAbsolute_beginning hcwd dir)

theorem isAnswer_search (hview : IsView stat root)
    (hsearch : IsSearchable stat root (beginning cwd dir)) :
    IsAnswer stat root (beginning cwd dir) (search stat cwd dir) := by
  obtain ⟨_, -, hclimbs⟩ := climbs_search hcwd dir stat
  exact hclimbs.isAnswer hview (isAbsolute_beginning hcwd dir)
    ((isOk_search_iff hcwd dir hview).2 hsearch)

end Find

/-- The search for a configuration file, to a system that knows a tree without links and may fail to
look at any path. The search ends, always with the same result, after as many rounds at most as the
path has names and one more. It fails just if a candidate that is refused comes before every one that
is there, and then tells of the first one that is not missing. Where it does not fail, it finds the
file in the deepest directory that has one, or nothing just if none has, and nothing but which of the
directories have a file matters. -/
theorem search_nearest_file (hview : IsView stat root) (hcwd : Path.isRooted cwd = true)
    (dir : Text) :
    (∃ rounds ≤ (Path.parts (beginning cwd dir)).names.length + 1,
      Climbs stat (beginning cwd dir) rounds (search stat cwd dir)) ∧
    (∀ rounds result, Climbs stat (beginning cwd dir) rounds result →
      result = search stat cwd dir) ∧
    ((∃ found, search stat cwd dir = .ok found) ↔ IsSearchable stat root (beginning cwd dir)) ∧
    (∀ error, search stat cwd dir = .error error → ∃ above fault,
      IsBlocked stat (beginning cwd dir) above fault ∧
        error = .unsearchable (Path.append above fileName) fault) ∧
    (IsSearchable stat root (beginning cwd dir) →
      (∀ candidate, search stat cwd dir = .ok (some candidate) ↔
        ∃ nearest, IsNearest stat root (beginning cwd dir) nearest ∧
          candidate = Path.append nearest fileName) ∧
      (search stat cwd dir = .ok none ↔
        ∀ above, IsAncestor (beginning cwd dir) above → ¬ HoldsFile stat root above) ∧
      ∀ stat' root', IsView stat' root' → IsSearchable stat' root' (beginning cwd dir) →
        (∀ above, IsAncestor (beginning cwd dir) above →
          (HoldsFile stat' root' above ↔ HoldsFile stat root above)) →
        search stat' cwd dir = search stat cwd dir) := by
  have hclimbs := climbs_search hcwd dir stat
  refine ⟨hclimbs, fun _ _ => Climbs.eq_search hcwd, ?_, fun error herror => ?_,
    fun hsearch => ?_⟩
  · rw [← isOk_search_iff hcwd dir hview]
    cases search stat cwd dir <;> simp [Except.isOk, Except.toBool]
  · obtain ⟨_, -, hclimbs⟩ := hclimbs
    exact hclimbs.isBlocked (isAbsolute_beginning hcwd dir) herror
  · have hanswer := isAnswer_search hcwd dir hview hsearch
    have hfind (found : Option Text) :
        search stat cwd dir = .ok found ↔ IsAnswer stat root (beginning cwd dir) (.ok found) :=
      ⟨fun h => h ▸ hanswer, hanswer.unique⟩
    refine ⟨fun candidate => (hfind _).trans isAnswer_some_iff, (hfind _).trans isAnswer_none_iff,
      fun stat' root' hview' hsearch' hfiles => ?_⟩
    exact (isAnswer_search hcwd dir hview' hsearch').unique (hanswer.congr hfiles)

/-! ### Disks -/

section Disks

/-- A disk without links on which nothing but directories stands at `start` and above it. -/
structure IsClear (disk : Disk) (start : Text) : Prop where
  isLinkless : disk.root.IsLinkless
  isDirectory : ∀ dir, IsAncestor start dir → ∀ e, disk.stat dir = .ok e → e.isDirectory = true

/-- A path that the names of directories can make up. -/
structure IsSpellable (path : Text) : Prop where
  nonzero : 0 ∉ path
  length : ∀ name ∈ (Path.parts path).names, name.length ≤ Disk.nameLimit

theorem isView_stat (hlinkless : disk.root.IsLinkless) : IsView disk.stat disk.root where
  isLinkless := hlinkless
  found hpath hstat := (Disk.lookup_eq_ok_iff hlinkless hpath true).1 (Disk.stat_eq_ok_iff.1 hstat)

/-- The way up is clear if it is at each of its directories. -/
theorem isClear_of_all (hlinkless : disk.root.IsLinkless) (hstart : Path.IsAbsolute start)
    (h : (ancestors start).all fun dir => (disk.stat dir).toOption.all Entry.isDirectory) :
    IsClear disk start where
  isLinkless := hlinkless
  isDirectory := by
    rw [forall_isAncestor_iff hstart]
    intro dir hdir e he
    have hall := List.all_eq_true.1 h dir hdir
    rwa [he] at hall

theorem IsClear.of_isAncestor (hclear : IsClear disk start) (hstart : Path.IsAbsolute start)
    (hdir : IsAncestor start dir) : IsClear disk dir where
  isLinkless := hclear.isLinkless
  isDirectory above habove := hclear.isDirectory above (hdir.trans hstart habove)

theorem IsSpellable.of_isAncestor (hspell : IsSpellable start) (hstart : Path.IsAbsolute start)
    (hdir : IsAncestor start dir) : IsSpellable dir where
  nonzero := by
    have hnames := hdir.names_prefix hstart
    have hzero := hspell.nonzero
    rw [hdir.isAbsolute.mem_iff]
    rw [hstart.mem_iff] at hzero
    rintro (hslash | ⟨name, hname, hmem⟩)
    · exact hzero (.inl hslash)
    · exact hzero (.inr ⟨name, hnames.subset hname, hmem⟩)
  length name hname := hspell.length name ((hdir.names_prefix hstart).subset hname)

theorem IsSpellable.candidate (hspell : IsSpellable dir) (hdir : Path.IsAbsolute dir) :
    IsSpellable (Path.append dir fileName) := by
  have hzero : 0 ∉ fileName := by decide
  have hlength : fileName.length ≤ Disk.nameLimit := by decide
  constructor
  · have hnonzero := hspell.nonzero
    rw [hdir.mem_iff] at hnonzero
    rw [(Path.isAbsolute_append hdir.isRooted fileName).mem_iff, names_candidate hdir]
    simpa [or_and_right, exists_or, hzero] using hnonzero
  · rw [names_candidate hdir, List.forall_mem_append, List.forall_mem_singleton]
    exact ⟨hspell.length, hlength⟩

/-- On a disk, a candidate that cannot be looked at is missing, whatever of its directory exists. -/
theorem fault_candidate (hclear : IsClear disk dir) (hdir : Path.IsAbsolute dir)
    (hspell : IsSpellable dir) {error : FileError}
    (hstat : disk.stat (Path.append dir fileName) = .error error) : error.fault = .missing := by
  have hcandidate := Path.isAbsolute_append hdir.isRooted fileName
  have hnames := names_candidate hdir
  have hspelled := hspell.candidate hdir
  have hfound (e : Entry) := Disk.lookup_eq_ok_iff hclear.isLinkless hcandidate true (e := e)
  have hnone : disk.root.descend? (Path.parts (Path.append dir fileName)).names = none := by
    refine Option.eq_none_iff_forall_ne_some.2 fun e he => ?_
    cases hstat.symm.trans (Disk.stat_eq_ok_iff.2 ((hfound e).2 he))
  have hway (front : List Text) (content : Text)
      (hfront : front <+: (Path.parts (Path.append dir fileName)).names)
      (hfile : disk.root.descend? front = some (.file content)) :
      front = (Path.parts (Path.append dir fileName)).names := by
    rw [hnames] at hfront ⊢
    refine (List.prefix_concat_iff.1 hfront).resolve_right fun hfront => ?_
    -- The file would stand where only directories do.
    obtain ⟨⟨_, names⟩, rfl, hplain, rfl⟩ := hdir
    rw [hplain.parts_toText] at hfront
    have hall : (Path.Parts.mk true front).IsPlain := hplain.of_subset hfront.subset
    have habove := (isAncestor_toText_iff hplain).2 ⟨front, hfront, rfl⟩
    have hlookup := (Disk.lookup_eq_ok_iff hclear.isLinkless habove.isAbsolute true
      (e := .file content)).2 (by rwa [hall.parts_toText])
    cases hclear.isDirectory _ habove _ (Disk.stat_eq_ok_iff.2 hlookup)
  have hmissing := Disk.lookup_eq_missing hclear.isLinkless hcandidate hspelled.nonzero
    hspelled.length hway hnone true
  rw [Disk.stat, hmissing] at hstat
  cases hstat
  rfl

/-- A search on a disk is refused nothing, if its way up is clear and could exist. -/
theorem isSearchable_of_isClear (hclear : IsClear disk start) (hstart : Path.IsAbsolute start)
    (hspell : IsSpellable start) : IsSearchable disk.stat disk.root start := by
  rintro dir error hdir ⟨hstat, hfault⟩
  have hmissing := fault_candidate (hclear.of_isAncestor hstart hdir) hdir.isAbsolute
    (hspell.of_isAncestor hstart hdir) hstat
  exact absurd hmissing hfault

end Disks

/-- A directory with nothing but a configuration file. -/
def configured : Entry := .directory [("gscnav.toml", .file [])]

/-- A workspace with a configuration file, and another one above it. -/
def workspaceDisk : Disk := ⟨.directory [("gscnav.toml", .file []), ("w", configured)], "/w"⟩

/-- The same with files below the directory `maps` and beside the way up from it. -/
def crowdedDisk : Disk :=
  ⟨.directory [("gscnav.toml", .file []), ("w", .directory [("gscnav.toml", .file []),
    ("lib", configured), ("maps", .directory [("mp", configured)])])], "/w"⟩

theorem isLinkless_configured : configured.IsLinkless :=
  .directory (by decide) (by decide) (List.forall_mem_singleton.2 (.file _))

theorem isLinkless_workspaceDisk : workspaceDisk.root.IsLinkless := by
  refine .directory (by decide) (by decide) (List.forall_mem_cons.2 ⟨.file _, ?_⟩)
  exact List.forall_mem_singleton.2 isLinkless_configured

theorem isLinkless_crowdedDisk : crowdedDisk.root.IsLinkless := by
  have hmaps : (Entry.directory [("mp", configured)]).IsLinkless :=
    .directory (by decide) (by decide) (List.forall_mem_singleton.2 isLinkless_configured)
  have hw : (Entry.directory [("gscnav.toml", .file []), ("lib", configured),
      ("maps", .directory [("mp", configured)])]).IsLinkless := by
    refine .directory (by decide) (by decide) (List.forall_mem_cons.2 ⟨.file _, ?_⟩)
    exact List.forall_mem_cons.2 ⟨isLinkless_configured, List.forall_mem_singleton.2 hmaps⟩
  refine .directory (by decide) (by decide) (List.forall_mem_cons.2 ⟨.file _, ?_⟩)
  exact List.forall_mem_singleton.2 hw

/-- From a directory in the workspace that has no file the nearest one is that of the workspace. -/
theorem isNearest_workspaceDisk (hstart : Path.IsAbsolute start)
    (hlist : ancestors start = [start, "/w", "/"])
    (hnot : (workspaceDisk.stat (Path.append start fileName)).isOk = false) :
    IsNearest workspaceDisk.stat workspaceDisk.root start "/w" := by
  have hview := isView_stat isLinkless_workspaceDisk
  have hw : Path.IsAbsolute "/w" := by decide
  refine ⟨(mem_ancestors_iff hstart).1 (by rw [hlist]; simp), ?_, ?_⟩
  · exact (holdsFile_iff_isOk hview hw).2 (by decide)
  · rw [forall_isAncestor_iff hstart, hlist]
    refine List.forall_mem_cons.2
      ⟨fun hholds => ?_, List.forall_mem_cons.2 ⟨fun _ => by decide, ?_⟩⟩
    · rw [holdsFile_iff_isOk hview hstart, hnot] at hholds
      cases hholds
    · exact List.forall_mem_singleton.2 fun _ => by decide

/-- The directory is missing on the one disk and there on the other, and both searches find the file
of the directory above it. -/
theorem search_nearest_file_missingStart :
    IsView workspaceDisk.stat workspaceDisk.root ∧ Path.isRooted workspaceDisk.cwd = true ∧
    IsNearest workspaceDisk.stat workspaceDisk.root "/w/maps" "/w" ∧
    find workspaceDisk "maps" = .ok (some "/w/gscnav.toml") ∧
    find crowdedDisk "maps" = .ok (some "/w/gscnav.toml") := by
  have hview := isView_stat isLinkless_workspaceDisk
  have hcrowdedView := isView_stat isLinkless_crowdedDisk
  have hcwd : Path.isRooted workspaceDisk.cwd = true := by decide
  have hbeginning : beginning workspaceDisk.cwd "maps" = "/w/maps" := by decide
  have hstart : Path.IsAbsolute "/w/maps" := by decide
  have hspell : IsSpellable "/w/maps" := ⟨by decide, by decide⟩
  have hlist : ancestors "/w/maps" = [ofString "/w/maps", "/w", "/"] := by decide
  have hsearch := isSearchable_of_isClear (isClear_of_all isLinkless_workspaceDisk hstart (by decide))
    hstart hspell
  have hcrowded := isSearchable_of_isClear (isClear_of_all isLinkless_crowdedDisk hstart (by decide))
    hstart hspell
  have hnearest := isNearest_workspaceDisk hstart hlist (by decide)
  have hsame : ∀ above, IsAncestor "/w/maps" above →
      (HoldsFile crowdedDisk.stat crowdedDisk.root above ↔
        HoldsFile workspaceDisk.stat workspaceDisk.root above) := by
    intro above habove
    rw [holdsFile_iff_isOk hcrowdedView habove.isAbsolute,
      holdsFile_iff_isOk hview habove.isAbsolute, ← Bool.eq_iff_iff]
    revert above
    rw [forall_isAncestor_iff hstart, hlist, List.forall_mem_cons, List.forall_mem_cons,
      List.forall_mem_singleton]
    exact ⟨by decide, by decide, by decide⟩
  obtain ⟨-, -, -, -, hfind⟩ := search_nearest_file hview hcwd "maps"
  rw [hbeginning] at hfind
  obtain ⟨hsome, -, hother⟩ := hfind hsearch
  have hfound := (hsome "/w/gscnav.toml").2 ⟨"/w", hnearest, by decide⟩
  have hagain := hother _ _ hcrowdedView hcrowded hsame
  exact ⟨hview, hcwd, hnearest, hfound, hagain.trans hfound⟩

/-- From a path with a zero byte nothing is found, though a directory above has a file. -/
theorem search_nearest_file_zeroByte :
    Path.isRooted workspaceDisk.cwd = true ∧ beginning workspaceDisk.cwd "\x00" = "/w/\x00" ∧
    IsClear workspaceDisk "/w/\x00" ∧
    IsNearest workspaceDisk.stat workspaceDisk.root "/w/\x00" "/w" ∧
    find workspaceDisk "\x00" ≠ .ok (some "/w/gscnav.toml") ∧
    find workspaceDisk "\x00" = .error (.unsearchable "/w/\x00/gscnav.toml"
      ⟨"stat", "/w/\x00/gscnav.toml", .badName⟩) := by
  have hstart : Path.IsAbsolute "/w/\x00" := by decide
  have hclear : IsClear workspaceDisk "/w/\x00" :=
    isClear_of_all isLinkless_workspaceDisk hstart (by decide)
  have hnearest := isNearest_workspaceDisk hstart (by decide) (by decide)
  have hfind : find workspaceDisk "\x00" = .error (.unsearchable "/w/\x00/gscnav.toml"
      ⟨"stat", "/w/\x00/gscnav.toml", .badName⟩) := by decide
  exact ⟨by decide, by decide, hclear, hnearest, by simp [hfind], hfind⟩

/-- A name that no directory can hold ends the search at once. -/
example :
    let long : Text := List.replicate 300 97
    let candidate : Text := ofString "/w/" ++ long ++ ofString "/gscnav.toml"
    find workspaceDisk long = .error (.unsearchable candidate ⟨"stat", candidate, .tooLong⟩) := by
  decide +kernel

end ScriptNav.Config
