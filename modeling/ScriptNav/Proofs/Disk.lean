import ScriptNav.Disk
import ScriptNav.Proofs.Path

/-! Disks without links. There a rooted path leads to what its names lead to in the tree, and nowhere
else; and a file that is written over another one changes what stands under its own names only. -/
namespace ScriptNav

open Text

namespace Entry

/-- A tree without links, as a disk can hold it: in each directory, names that can stand there and
that are all different. -/
inductive IsLinkless : Entry → Prop
  | file (content : Text) : IsLinkless (.file content)
  | directory {entries : List (Text × Entry)} (names : ∀ e ∈ entries, Path.IsName e.1 ∧ 0 ∉ e.1)
      (nodup : (entries.map Prod.fst).Nodup) (linkless : ∀ e ∈ entries, IsLinkless e.2) :
      IsLinkless (.directory entries)

/-- What a file holds. -/
def content? : Entry → Option Text
  | .file content => some content
  | _ => none

section Descent
variable {e found : Entry} {names : List Text}

theorem descend?_append (e : Entry) (names more : List Text) :
    e.descend? (names ++ more) = (e.descend? names).bind (·.descend? more) := by
  induction names generalizing e with
  | nil => rfl
  | cons name names ih =>
    rw [List.cons_append, descend?, descend?, Option.bind_assoc]
    exact congrArg _ (funext ih)

/-- Names that lead somewhere lead on from a directory. -/
theorem exists_of_descend?_cons {name : Text} (h : e.descend? (name :: names) = some found) :
    ∃ entries child, e = .directory entries ∧ (name, child) ∈ entries ∧
      entries.lookup name = some child ∧ child.descend? names = some found := by
  obtain ⟨child, hchild, hrest⟩ := Option.bind_eq_some_iff.1 h
  cases e with
  | file _ | link _ => cases hchild
  | directory entries =>
    obtain ⟨front, back, hsplit, -⟩ := List.lookup_eq_some_iff.1 hchild
    have hmem : (name, child) ∈ entries := hsplit ▸ List.mem_append_right _ List.mem_cons_self
    exact ⟨entries, child, rfl, hmem, hchild, hrest⟩

theorem IsLinkless.descend? (h : e.IsLinkless) (hfound : e.descend? names = some found) :
    found.IsLinkless ∧ ∀ name ∈ names, Path.IsName name ∧ 0 ∉ name := by
  induction names generalizing e with
  | nil => exact ⟨Option.some.inj hfound ▸ h, nofun⟩
  | cons name names ih =>
    obtain ⟨entries, child, rfl, hmem, -, hrest⟩ := exists_of_descend?_cons hfound
    cases h with
    | directory hnames _ hlinkless =>
      obtain ⟨hfound, hmore⟩ := ih (hlinkless _ hmem) hrest
      exact ⟨hfound, List.forall_mem_cons.2 ⟨hnames _ hmem, hmore⟩⟩

end Descent

section Insert
variable {e : Entry} {names : List Text} {content : Text}

theorem lookup_assign (name other : Text) (entry : Entry) (entries : List (Text × Entry)) :
    (assign name entry entries).lookup other =
      if other = name then some entry else entries.lookup other := by
  have hcons (n : Text) (old : Entry) (rest : List (Text × Entry)) :
      ((n, old) :: rest).lookup other = if other = n then some old else rest.lookup other := by
    rw [List.lookup_cons]
    by_cases hother : other = n
    · simp [hother]
    · rw [if_neg hother, beq_false_of_ne hother]
  induction entries with
  | nil => rw [assign, hcons]
  | cons first entries ih =>
    obtain ⟨n, old⟩ := first
    rw [assign]
    by_cases hname : n = name
    · subst hname
      rw [if_pos (by simp), hcons, hcons]
      split_ifs <;> rfl
    · rw [if_neg (by simpa using hname), hcons, hcons, ih]
      by_cases hother : other = n
      · subst hother
        rw [if_pos rfl, if_pos rfl, if_neg hname]
      · rw [if_neg hother, if_neg hother]

theorem insert_cons {entries : List (Text × Entry)} {name : Text} {child : Entry}
    (h : entries.lookup name = some child) (names : List Text) (entry : Entry) :
    (directory entries).insert (name :: names) entry =
      directory (assign name (child.insert names entry) entries) := by
  rw [insert]
  simp only [h, Option.getD_some]

/-- A file that is put in the place of another one is seen on the way to it, and nowhere else. -/
theorem descend?_insert (h : e.descend? names = some (.file content)) (new : Text)
    (way : List Text) :
    (∃ more inner, names = way ++ more ∧ e.descend? way = some inner ∧
      inner.descend? more = some (.file content) ∧
      (e.insert names (.file new)).descend? way = some (inner.insert more (.file new))) ∨
    ¬ way <+: names ∧ (e.insert names (.file new)).descend? way = e.descend? way := by
  induction names generalizing e way with
  | nil =>
    cases way with
    | nil => exact .inl ⟨[], e, rfl, rfl, h, rfl⟩
    | cons first way =>
      obtain rfl := Option.some.inj h
      exact .inr ⟨by simp, rfl⟩
  | cons name names ih =>
    cases way with
    | nil => exact .inl ⟨name :: names, e, rfl, rfl, h, rfl⟩
    | cons first way =>
      obtain ⟨entries, child, rfl, -, hlookup, hrest⟩ := exists_of_descend?_cons h
      have hinsert : ((directory entries).insert (name :: names) (.file new)).descend?
          (first :: way) = (if first = name then some (child.insert names (.file new))
            else entries.lookup first).bind (·.descend? way) := by
        rw [insert_cons hlookup, descend?, child?, lookup_assign]
      have hold : (directory entries).descend? (first :: way) =
          (entries.lookup first).bind (·.descend? way) := rfl
      rw [hinsert, hold]
      by_cases hfirst : first = name
      · subst hfirst
        rw [if_pos rfl, hlookup, Option.bind_some, Option.bind_some]
        obtain ⟨more, inner, rfl, hway⟩ | ⟨hstart, hway⟩ := ih hrest way
        · exact .inl ⟨more, inner, rfl, hway⟩
        · refine .inr ⟨fun hcons => hstart ?_, hway⟩
          exact (List.cons_prefix_cons.1 hcons).2
      · rw [if_neg hfirst]
        exact .inr ⟨fun hcons => hfirst (List.cons_prefix_cons.1 hcons).1, rfl⟩

/-- A directory on the way to a file stays a directory. -/
theorem isDirectory_insert (h : e.descend? names = some (.file content)) (new : Text) :
    (e.insert names (.file new)).isDirectory = e.isDirectory := by
  cases names with
  | nil =>
    obtain rfl := Option.some.inj h
    rfl
  | cons name names =>
    obtain ⟨entries, _, rfl, -, hlookup, -⟩ := exists_of_descend?_cons h
    rw [insert_cons hlookup]
    rfl

theorem any_isDirectory_insert (h : e.descend? names = some (.file content)) (new : Text)
    (way : List Text) :
    ((e.insert names (.file new)).descend? way).any isDirectory =
      (e.descend? way).any isDirectory := by
  obtain ⟨more, inner, -, hway, hinner, hnew⟩ | ⟨-, hway⟩ := descend?_insert h new way
  · rw [hnew, hway, Option.any_some, Option.any_some, isDirectory_insert hinner]
  · rw [hway]

/-- No other file changes. -/
theorem content?_insert (h : e.descend? names = some (.file content)) (new : Text)
    (way : List Text) :
    ((e.insert names (.file new)).descend? way).bind content? =
      if way = names then some new else (e.descend? way).bind content? := by
  obtain ⟨more, inner, rfl, hway, hinner, hnew⟩ | ⟨hstart, hway⟩ := descend?_insert h new way
  · rw [hnew, hway]
    cases more with
    | nil =>
      rw [if_pos (List.append_nil way).symm]
      rfl
    | cons name more =>
      rw [if_neg (by simp), Option.bind_some, Option.bind_some]
      obtain ⟨entries, _, rfl, -, hlookup, -⟩ := exists_of_descend?_cons hinner
      rw [insert_cons hlookup]
      rfl
  · have hne : way ≠ names := fun heq => hstart (heq ▸ List.prefix_refl _)
    rw [hway, if_neg hne]

theorem map_fst_assign {name : Text} {entries : List (Text × Entry)} {child : Entry}
    (h : (name, child) ∈ entries) (entry : Entry) :
    (assign name entry entries).map Prod.fst = entries.map Prod.fst := by
  induction entries with
  | nil => cases h
  | cons first entries ih =>
    obtain ⟨n, old⟩ := first
    rw [assign]
    split_ifs with hname
    · rfl
    · rw [List.map_cons, List.map_cons, ih]
      refine (List.mem_cons.1 h).resolve_left ?_
      rintro ⟨⟩
      simp at hname

theorem mem_of_mem_assign {name : Text} {entry : Entry} {entries : List (Text × Entry)}
    {item : Text × Entry} (h : item ∈ assign name entry entries) :
    item = (name, entry) ∨ item ∈ entries := by
  induction entries with
  | nil => exact .inl (List.mem_singleton.1 h)
  | cons first entries ih =>
    obtain ⟨n, old⟩ := first
    rw [assign] at h
    split_ifs at h with hname
    · obtain rfl : n = name := by simpa using hname
      exact (List.mem_cons.1 h).imp_right (List.mem_cons_of_mem _)
    · rcases List.mem_cons.1 h with rfl | h
      · exact .inr List.mem_cons_self
      · exact (ih h).imp_right (List.mem_cons_of_mem _)

theorem IsLinkless.insert (hlinkless : e.IsLinkless)
    (h : e.descend? names = some (.file content)) (new : Text) :
    (e.insert names (.file new)).IsLinkless := by
  induction names generalizing e with
  | nil => exact .file new
  | cons name names ih =>
    obtain ⟨entries, child, rfl, hmem, hlookup, hrest⟩ := exists_of_descend?_cons h
    cases hlinkless with
    | directory hnames hnodup hall =>
      rw [insert_cons hlookup]
      refine .directory ?_ ?_ ?_
      · intro item hitem
        rcases mem_of_mem_assign hitem with rfl | hitem
        · exact hnames (name, child) hmem
        · exact hnames item hitem
      · rw [map_fst_assign hmem]
        exact hnodup
      · intro item hitem
        rcases mem_of_mem_assign hitem with rfl | hitem
        · exact ih (hall _ hmem) hrest
        · exact hall item hitem

end Insert
end Entry

namespace Disk

/-- A disk after a text is written over the file that names lead to. -/
def rewritten (d : Disk) (names : List Text) (new : Text) : Disk :=
  { d with root := d.root.insert names (.file new) }

section Follow
variable {root e : Entry} {last : Bool} {links : Nat} {place place' names : List Text}
  {more : List Text → List Text → Except Fault (List Text × Option Entry)}

/-- Whatever the number of links, names are followed one after another up to a link. -/
theorem exists_follow_eq (root : Entry) (last : Bool) (links : Nat) :
    ∃ more, follow root last links = followNames root last more := by
  cases links with
  | zero => exact ⟨_, rfl⟩
  | succ links => exact ⟨_, rfl⟩

/-- Without links, names are followed through the tree one after another. -/
theorem followNames_eq_ok_iff (h : root.IsLinkless) (hnames : ∀ name ∈ names, Path.IsName name) :
    followNames root last more place names = .ok (place', some e) ↔
      place' = names.reverse ++ place ∧ root.descend? (place.reverse ++ names) = some e := by
  induction names generalizing place with
  | nil =>
    rw [followNames, List.append_nil, Except.ok.injEq, Prod.mk.injEq, eq_comm]
    rfl
  | cons name rest ih =>
    obtain ⟨⟨hne, -, hhere, hup⟩, hrest⟩ := List.forall_mem_cons.1 hnames
    have hdescend : root.descend? (place.reverse ++ name :: rest) =
        (root.descend? (name :: place).reverse).bind (·.descend? rest) := by
      rw [List.reverse_cons, ← Entry.descend?_append, List.append_assoc, List.singleton_append]
    rw [followNames, if_neg (by simp [hne, hhere]), if_neg (by simpa using hup), hdescend]
    cases hentry : root.descend? (name :: place).reverse with
    | none =>
      dsimp only
      split_ifs <;> simp
    | some entry =>
      cases (h.descend? hentry).1 with
      | file content =>
        cases rest with
        | nil =>
          simp only [List.isEmpty_nil, if_true, Except.ok.injEq, Prod.mk.injEq]
          exact and_congr_left fun _ => eq_comm
        | cons next rest => simp [Entry.descend?, Entry.child?]
      | directory _ _ _ =>
        refine (ih hrest).trans ?_
        rw [Entry.descend?_append, hentry, List.reverse_cons, List.append_assoc,
          List.singleton_append]

/-- Names that lead nowhere are missing, unless one is too long or a file stands on the way. -/
theorem followNames_eq_missing (h : root.IsLinkless) (hnames : ∀ name ∈ names, Path.IsName name)
    (hlength : ∀ name ∈ names, name.length ≤ nameLimit)
    (hway : ∀ front content, front <+: names →
      root.descend? (place.reverse ++ front) = some (.file content) → front = names)
    (hnone : root.descend? (place.reverse ++ names) = none) :
    followNames root last more place names = .error .missing ∨
      ∃ place', followNames root last more place names = .ok (place', none) := by
  induction names generalizing place with
  | nil =>
    rw [List.append_nil] at hnone
    exact .inr ⟨place, by rw [followNames, hnone]⟩
  | cons name rest ih =>
    obtain ⟨⟨hne, -, hhere, hup⟩, hrest⟩ := List.forall_mem_cons.1 hnames
    obtain ⟨hfits, hmore⟩ := List.forall_mem_cons.1 hlength
    have hplace : (name :: place).reverse = place.reverse ++ [name] := List.reverse_cons
    have hon (back : List Text) :
        (name :: place).reverse ++ back = place.reverse ++ name :: back := by
      rw [hplace, List.append_assoc, List.singleton_append]
    rw [followNames, if_neg (by simp [hne, hhere]), if_neg (by simpa using hup)]
    cases hentry : root.descend? (name :: place).reverse with
    | none =>
      dsimp only
      rw [if_neg (Nat.not_lt.2 hfits)]
      split_ifs
      · exact .inr ⟨_, rfl⟩
      · exact .inl rfl
    | some entry =>
      cases (h.descend? hentry).1 with
      | file content =>
        -- The file stands at the end of the names, and they lead nowhere.
        have hend : [name] = name :: rest :=
          hway [name] content ⟨rest, rfl⟩ (hplace ▸ hentry)
        rw [← hend, ← hplace, hentry] at hnone
        cases hnone
      | directory _ _ _ =>
        refine ih hrest hmore (fun front content hfront hfile => ?_) ((hon rest).symm ▸ hnone)
        rw [hon] at hfile
        have hall := hway (name :: front) content (List.cons_prefix_cons.2 ⟨rfl, hfront⟩) hfile
        exact List.tail_eq_of_cons_eq hall

end Follow

section Lookup
variable {d : Disk} {path : Text} {e : Entry}

theorem lookup_eq_ok_iff_locate {last : Bool} :
    d.lookup last path = .ok e ↔ ∃ place, d.locate last path = .ok (place, some e) := by
  rw [lookup]
  constructor
  · intro h
    cases hlocate : d.locate last path with
    | error fault =>
      rw [hlocate] at h
      cases h
    | ok found =>
      rw [hlocate] at h
      obtain ⟨place, _ | entry⟩ := found
      · cases h
      · cases h
        exact ⟨place, rfl⟩
  · rintro ⟨place, h⟩
    rw [h]
    rfl

theorem stat_eq_ok_iff : d.stat path = .ok e ↔ d.lookup true path = .ok e := by
  rw [stat]
  cases d.lookup true path <;> simp [Except.mapError]

theorem lstat_eq_ok_iff : d.lstat path = .ok e ↔ d.lookup false path = .ok e := by
  rw [lstat]
  cases d.lookup false path <;> simp [Except.mapError]

end Lookup

/-- A rooted path is followed by its names. -/
theorem locate_eq_follow {d : Disk} {path : Text} (hpath : Path.IsAbsolute path) (hzero : 0 ∉ path)
    (last : Bool) :
    d.locate last path = follow d.root last linkLimit [] (Path.parts path).names := by
  have hrooted := hpath.isRooted
  have hne := hpath.ne_nil
  obtain ⟨⟨_, names⟩, rfl, hplain, rfl⟩ := hpath
  have hskip (pieces : List Text) : follow d.root last linkLimit [] ([] :: pieces) =
      follow d.root last linkLimit [] pieces := by
    obtain ⟨more, hmore⟩ := exists_follow_eq d.root last linkLimit
    rw [hmore, followNames, if_pos (by rfl)]
  have hpieces : follow d.root last linkLimit [] (split slash (Path.Parts.mk true names).toText) =
      follow d.root last linkLimit [] names := by
    rw [Path.Parts.toText, if_pos rfl, split_cons, if_pos rfl, hskip]
    cases names with
    | nil => exact hskip []
    | cons name names =>
      rw [split_join (List.cons_ne_nil _ _) fun name hname => (hplain name hname).2.1]
  rw [hplain.parts_toText, locate, if_neg (by simpa using hzero), if_neg (by simpa using hne),
    if_pos hrooted]
  exact hpieces

section Locate
variable {d : Disk} (hlinkless : d.root.IsLinkless) {path : Text} (hpath : Path.IsAbsolute path)
include hlinkless hpath

/-- A rooted path leads to what its names lead to. -/
theorem locate_eq_ok_iff {last : Bool} {place : List Text} {e : Entry} :
    d.locate last path = .ok (place, some e) ↔ place = (Path.parts path).names.reverse ∧
      d.root.descend? (Path.parts path).names = some e := by
  by_cases hzero : 0 ∈ path
  · have hlocate : d.locate last path = .error .badName := by
      rw [locate, if_pos (List.contains_iff_mem.2 hzero)]
    refine iff_of_false (by simp [hlocate]) ?_
    rintro ⟨-, hfound⟩
    obtain hslash | ⟨name, hname, hzero⟩ := hpath.mem_iff.1 hzero
    · cases hslash
    · exact ((hlinkless.descend? hfound).2 name hname).2 hzero
  · obtain ⟨more, hmore⟩ := exists_follow_eq d.root last linkLimit
    rw [locate_eq_follow hpath hzero, hmore, followNames_eq_ok_iff hlinkless hpath.isName,
      List.append_nil, List.reverse_nil, List.nil_append]

theorem lookup_eq_ok_iff (last : Bool) {e : Entry} :
    d.lookup last path = .ok e ↔ d.root.descend? (Path.parts path).names = some e := by
  rw [lookup_eq_ok_iff_locate]
  simp only [locate_eq_ok_iff hlinkless hpath]
  exact ⟨fun ⟨_, _, h⟩ => h, fun h => ⟨_, rfl, h⟩⟩

/-- What a rooted path does not lead to is missing, unless the path has a zero byte or a name that is
too long, or a file stands on the way. -/
theorem lookup_eq_missing (hzero : 0 ∉ path)
    (hlength : ∀ name ∈ (Path.parts path).names, name.length ≤ nameLimit)
    (hway : ∀ front content, front <+: (Path.parts path).names →
      d.root.descend? front = some (.file content) → front = (Path.parts path).names)
    (hnone : d.root.descend? (Path.parts path).names = none) (last : Bool) :
    d.lookup last path = .error .missing := by
  obtain ⟨more, hmore⟩ := exists_follow_eq d.root last linkLimit
  rw [lookup, locate_eq_follow hpath hzero, hmore]
  have hfollow : followNames d.root last more [] (Path.parts path).names = .error .missing ∨
      ∃ place, followNames d.root last more [] (Path.parts path).names = .ok (place, none) :=
    followNames_eq_missing hlinkless hpath.isName hlength hway hnone
  obtain hmissing | ⟨place, hplace⟩ := hfollow
  · rw [hmissing]
    rfl
  · rw [hplace]
    rfl

theorem toOption_stat : (d.stat path).toOption = d.root.descend? (Path.parts path).names := by
  refine Option.ext fun e => ?_
  rw [← lookup_eq_ok_iff hlinkless hpath true, stat]
  cases d.lookup true path <;> simp [Except.mapError, Except.toOption]

theorem toOption_lstat : (d.lstat path).toOption = d.root.descend? (Path.parts path).names := by
  refine Option.ext fun e => ?_
  rw [← lookup_eq_ok_iff hlinkless hpath false, lstat]
  cases d.lookup false path <;> simp [Except.mapError, Except.toOption]

theorem toOption_read :
    (d.read path).toOption = (d.root.descend? (Path.parts path).names).bind Entry.content? := by
  have hlookup := fun e => lookup_eq_ok_iff hlinkless hpath true (e := e)
  rw [read]
  cases hfound : d.lookup true path with
  | error fault =>
    have hnone : d.root.descend? (Path.parts path).names = none := by
      refine Option.eq_none_iff_forall_ne_some.2 fun e he => ?_
      rw [(hlookup e).2 he] at hfound
      cases hfound
    rw [hnone]
    rfl
  | ok e =>
    rw [(hlookup e).1 hfound]
    cases e <;> rfl

theorem write_eq_ok {content : Text}
    (h : d.root.descend? (Path.parts path).names = some (.file content))
    (hne : (Path.parts path).names ≠ []) (new : Text) :
    d.write path new = .ok (d.rewritten (Path.parts path).names new) := by
  rw [write, (locate_eq_ok_iff hlinkless hpath).2 ⟨rfl, h⟩]
  simp only [hpath.endsWith_slash hne, Bool.false_eq_true, if_false, List.reverse_reverse, rewritten]

end Locate
end Disk
end ScriptNav
