import Mathlib.Data.List.Basic
import ScriptNav.Config.Basic
import ScriptNav.Proofs.Path

/-! The settings that a configuration file gives. Letter case does not count in the keys of sections
and fields, so a setting is one of the values that the document gives under any spelling, or its
default. The roots make an exception: they count only if their key is spelled exactly. -/
namespace ScriptNav

open Text

namespace Toml
variable {α β : Type} {root entries : Table} {fields : List Text} {heading field key : Text}
  {value : Value}

/-- A document gives a field of a section a value. -/
def Table.Gives (root : Table) (heading field : Text) (value : Value) : Prop :=
  ∃ key entries inner, (key, .table entries) ∈ root ∧ equalFold heading key = true ∧
    (inner, value) ∈ entries ∧ equalFold field inner = true

/-- What a setting is read as: a value that the document gives it, or else its default. -/
def Table.Settles (root : Table) (heading field : Text) (read : Value → Option α)
    (fallback x : α) : Prop :=
  (∃ value, root.Gives heading field value ∧ read value = some x) ∨
    (∀ value, ¬ root.Gives heading field value) ∧ x = fallback

/-- Letter case alone sets no two fields apart. -/
def AreApart (fields : List Text) : Prop :=
  ∀ a ∈ fields, ∀ b ∈ fields, equalFold a b = true → a = b

instance (fields : List Text) : Decidable (AreApart fields) :=
  inferInstanceAs (Decidable (∀ a ∈ fields, ∀ b ∈ fields, _ → _))

/-- A key names the field that it equals up to letter case. -/
theorem field?_eq_some_iff (hapart : AreApart fields) (hfield : field ∈ fields) :
    field? fields key = some field ↔ equalFold field key = true := by
  rw [field?]
  cases hexact : fields.find? (· == key) with
  | some found =>
    obtain rfl : found = key := eq_of_beq (List.find?_some hexact :)
    rw [Option.some_or, Option.some.injEq]
    constructor
    · rintro rfl
      simp [equalFold]
    · exact fun hfold => (hapart field hfield found (List.mem_of_find?_eq_some hexact) hfold).symm
  | none =>
    rw [Option.none_or]
    refine ⟨fun hfound => (List.find?_some hfound :), fun hfold => ?_⟩
    obtain ⟨found, hfound⟩ : ∃ found, fields.find? (equalFold · key) = some found := by
      rw [← Option.isSome_iff_exists, List.find?_isSome]
      exact ⟨field, hfield, hfold⟩
    have hother : equalFold found key = true := (List.find?_some hfound :)
    have hsame : equalFold found field = true := by
      rw [equalFold, beq_iff_eq] at hfold hother ⊢
      exact hother.trans hfold.symm
    rw [hfound, hapart found (List.mem_of_find?_eq_some hfound) field hfield hsame]

theorem mem_values_iff (hapart : AreApart fields) (hfield : field ∈ fields) :
    value ∈ entries.values fields field ↔
      ∃ key, (key, value) ∈ entries ∧ equalFold field key = true := by
  simp [Table.values, List.mem_map, List.mem_filter, field?_eq_some_iff hapart hfield]

theorem mapM_eq_some_iff {f : α → Option β} {as : List α} {bs : List β} :
    as.mapM f = some bs ↔ as.map f = bs.map some := by
  induction as generalizing bs with
  | nil => cases bs <;> simp
  | cons a as ih =>
    cases hfirst : f a with
    | none => cases bs <;> simp [List.mapM_cons, hfirst]
    | some b =>
      cases bs with
      | nil => cases hrest : as.mapM f <;> simp [List.mapM_cons, hfirst, hrest]
      | cons c bs =>
        rw [List.map_cons, List.map_cons, List.cons.injEq, ← ih]
        cases hrest : as.mapM f <;> simp [List.mapM_cons, hfirst, hrest]

/-- A field is read as one of its values, or as the fallback if it has none. -/
theorem getOr_eq_some {read : Value → Option α} {fallback x : α}
    (h : entries.getOr fields field read fallback = some x) :
    (∃ value ∈ entries.values fields field, read value = some x) ∨
      entries.values fields field = [] ∧ x = fallback := by
  rw [Table.getOr, Option.map_eq_some_iff] at h
  obtain ⟨xs, hread, rfl⟩ := h
  rw [mapM_eq_some_iff] at hread
  rcases List.eq_nil_or_concat xs with rfl | ⟨front, last, rfl⟩
  · exact .inr ⟨by simpa using hread, rfl⟩
  · left
    have hlast : some last ∈ (entries.values fields field).map read := by simp [hread]
    simpa using hlast

end Toml

namespace Config
variable {disk : Disk} {path content : Text} {document : Toml.Document} {root entries : Toml.Table}
  {heading field inner : Text} {fields : List Text} {value : Toml.Value} {base config : Config}

/-- The table of a section holds what stands under the spellings of its key. -/
theorem mem_section?_iff (hsection : section? root heading = some entries)
    (hheading : heading ∈ sections.map Prod.fst) :
    (inner, value) ∈ entries ↔ ∃ key table, (key, .table table) ∈ root ∧
      equalFold heading key = true ∧ (inner, value) ∈ table := by
  rw [section?, Option.map_eq_some_iff] at hsection
  obtain ⟨tables, htables, rfl⟩ := hsection
  have hvalues (table : Toml.Table) : table ∈ tables ↔
      .table table ∈ root.values (sections.map Prod.fst) heading := by
    rw [Toml.mapM_eq_some_iff] at htables
    have hread : some table ∈ tables.map some ↔ table ∈ tables := by simp
    rw [← hread, ← htables, List.mem_map]
    constructor
    · rintro ⟨value, hvalue, htable⟩
      cases value <;> cases htable
      exact hvalue
    · exact fun htable => ⟨_, htable, rfl⟩
  have hapart : Toml.AreApart (sections.map Prod.fst) := by decide
  simp only [List.mem_flatten, hvalues, Toml.mem_values_iff hapart hheading]
  exact ⟨fun ⟨table, ⟨key, hkey, hfold⟩, hmem⟩ => ⟨key, table, hkey, hfold, hmem⟩,
    fun ⟨key, table, hkey, hfold, hmem⟩ => ⟨table, ⟨key, hkey, hfold⟩, hmem⟩⟩

/-- A setting of a section is settled by what the document gives it. -/
theorem settles_of_getOr {α : Type} {read : Toml.Value → Option α} {fallback x : α}
    (hsection : section? root heading = some entries)
    (hheading : heading ∈ sections.map Prod.fst) (hapart : Toml.AreApart fields)
    (hfield : field ∈ fields) (h : entries.getOr fields field read fallback = some x) :
    root.Settles heading field read fallback x := by
  have hgives (value : Toml.Value) : value ∈ entries.values fields field ↔
      root.Gives heading field value := by
    rw [Toml.mem_values_iff hapart hfield]
    simp only [mem_section?_iff hsection hheading]
    constructor
    · rintro ⟨inner, ⟨key, table, hkey, hheading, hmem⟩, hfold⟩
      exact ⟨key, table, inner, hkey, hheading, hmem, hfold⟩
    · rintro ⟨key, table, inner, hkey, hheading, hmem, hfold⟩
      exact ⟨inner, ⟨key, table, hkey, hheading, hmem⟩, hfold⟩
  rcases Toml.getOr_eq_some h with ⟨value, hvalue, hread⟩ | ⟨hnone, hx⟩
  · exact .inl ⟨value, (hgives value).1 hvalue, hread⟩
  · refine .inr ⟨fun value hvalue => ?_, hx⟩
    rw [← hgives, hnone] at hvalue
    cases hvalue

/-- The settings of a document over those of `base`, apart from the roots. -/
structure FromDocument (base : Config) (root : Toml.Table) (config : Config) : Prop where
  extension : root.Settles "workspace" "extension" Toml.Value.asString? base.extension
    config.extension
  exclude : root.Settles "workspace" "exclude" Toml.Value.asStrings? base.exclude config.exclude
  maxFileSize : root.Settles "workspace" "max_file_size" Toml.Value.asInteger? base.maxFileSize
    config.maxFileSize
  respectGitignore : root.Settles "workspace" "respect_gitignore" Toml.Value.asBoolean?
    base.respectGitignore config.respectGitignore
  workers : root.Settles "resolve" "workers" Toml.Value.asInteger? base.workers config.workers
  logLevel : root.Settles "log" "level" Toml.Value.asString? base.logLevel config.logLevel

theorem settles_of_ofDocument? (h : ofDocument? base root = some config) :
    root.Settles "workspace" "roots" Toml.Value.asStrings? [] config.roots ∧
      FromDocument base root config := by
  simp only [ofDocument?, Option.bind_eq_bind, Option.bind_eq_some_iff, Option.pure_def,
    Option.some.injEq] at h
  obtain ⟨workspace, hworkspace, resolve, hresolve, log, hlog, roots, hroots, extension, hextension,
    exclude, hexclude, size, hsize, respect, hrespect, workers, hworkers, level, hlevel, rfl⟩ := h
  have hfields : Toml.AreApart workspaceFields := by decide
  have settles {α : Type} {field : Text} {read : Toml.Value → Option α} {fallback x : α}
      (hfield : field ∈ workspaceFields)
      (h : workspace.getOr workspaceFields field read fallback = some x) :
      root.Settles "workspace" field read fallback x :=
    settles_of_getOr hworkspace (by decide) hfields hfield h
  exact ⟨settles (by decide) hroots, {
    extension := settles (by decide) hextension
    exclude := settles (by decide) hexclude
    maxFileSize := settles (by decide) hsize
    respectGitignore := settles (by decide) hrespect
    workers := settles_of_getOr hresolve (by decide) (by decide) (by decide) hworkers
    logLevel := settles_of_getOr hlog (by decide) (by decide) (by decide) hlevel }⟩

/-- A file is loaded if it is a document with no unknown keys and no values of the wrong type. -/
theorem loadFile_eq_ok_iff :
    loadFile disk path = .ok config ↔ ∃ content document decoded,
      disk.read (Path.absolute disk.cwd path) = .ok content ∧
      Toml.parse? content = some document ∧
      ofDocument? (default (Path.parent (Path.absolute disk.cwd path))) document.root =
        some decoded ∧
      document.keys.find? (!isKnown ·) = none ∧
      config = { decoded with
        path := Path.absolute disk.cwd path
        roots := rootsFrom (Path.parent (Path.absolute disk.cwd path)) document.root
          decoded.roots } := by
  constructor
  · intro h
    simp only [loadFile] at h
    split at h
    · cases h
    next content hread =>
    split at h
    · cases h
    next document hparse =>
    split at h
    · cases h
    · cases h
    next decoded hdecoded hkeys =>
    exact ⟨content, document, decoded, hread, hparse, hdecoded, hkeys, (Except.ok.inj h).symm⟩
  · rintro ⟨content, document, decoded, hread, hparse, hdecoded, hkeys, rfl⟩
    simp only [loadFile, hread, hparse, hdecoded, hkeys]

/-- All that a document says of the roots is the list `given`; it need not say that it is empty. -/
structure GivesRoots (root : Toml.Table) (given : List Text) : Prop where
  all : ∀ value, root.Gives "workspace" "roots" value → value.asStrings? = some given
  exists_of_ne : given ≠ [] → ∃ value, root.Gives "workspace" "roots" value

/-- The roots that a list in a file of the directory `base` means: the directory itself if there is
none in it, and else each of them from there. -/
def rootsMeant (base : Text) (given : List Text) : List Text :=
  if given = [] then [base]
  else given.map fun r => if Path.isRooted r then r else Path.append base r

theorem roots_eq_of_givesRoots {given roots : List Text} (hgiven : GivesRoots root given)
    (h : root.Settles "workspace" "roots" Toml.Value.asStrings? [] roots) : roots = given := by
  rcases h with ⟨value, hvalue, hread⟩ | ⟨hnone, rfl⟩
  · exact Option.some.inj (hread.symm.trans (hgiven.all value hvalue))
  · by_contra hne
    obtain ⟨value, hvalue⟩ := hgiven.exists_of_ne (Ne.symm hne)
    exact hnone value hvalue

/-- The key of the roots is spelled exactly so. -/
def SpellsRoots (root : Toml.Table) : Prop :=
  ∃ entries value, root.lookup (ofString "workspace") = some (.table entries) ∧
    entries.lookup (ofString "roots") = some value

theorem defines_roots_iff : Toml.defines root ["workspace", "roots"] = true ↔ SpellsRoots root := by
  rw [SpellsRoots, Toml.defines]
  · cases hsection : root.lookup (ofString "workspace") with
    | none => simp
    | some value =>
      cases value with
      | table entries => simp [Toml.defines, Option.isSome_iff_exists]
      | _ => simp
  · exact List.cons_ne_nil _ _

/-- The roots count if their key is spelled exactly, and else the directory of the file does. -/
theorem rootsFrom_eq {dir : Text} (hdir : Path.IsAbsolute dir) (root : Toml.Table)
    (roots : List Text) :
    rootsFrom dir root roots =
      if Toml.defines root ["workspace", "roots"] = true then rootsMeant dir roots else [dir] := by
  have hhere : Path.append dir Path.here = dir := by
    obtain ⟨p, -, hp, rfl⟩ := hdir
    have happend := hp.append_toText (q := ⟨false, []⟩) (by simp [Path.Parts.IsPlain])
    rw [List.append_nil] at happend
    exact happend
  have hdefault : [Path.here].map (fun r => if Path.isRooted r then r else Path.append dir r) =
      [dir] := by
    rw [List.map_singleton, if_neg (by decide), hhere]
  rw [rootsFrom, rootsMeant]
  by_cases hexact : Toml.defines root ["workspace", "roots"] = true <;> by_cases hnil : roots = []
  · simp only [hnil, List.isEmpty_nil, Bool.not_true, Bool.and_false, Bool.false_eq_true, if_false,
      hdefault, if_true, ite_self]
  · simp [hexact, hnil]
  · simp only [hexact, Bool.false_and, Bool.false_eq_true, if_false, hdefault]
  · simp only [hexact, Bool.false_and, Bool.false_eq_true, if_false, hdefault]

/-- The roots of a file. They are those that its list means if the key of the list is spelled exactly,
and the directory of the file otherwise; so the list is honoured just if its key is spelled exactly or
it means that directory alone. -/
theorem loadFile_roots_iff {given : List Text} (hcwd : Path.isRooted disk.cwd = true)
    (hread : disk.read (Path.absolute disk.cwd path) = .ok content)
    (hparse : Toml.parse? content = some document) (hload : loadFile disk path = .ok config)
    (hgiven : GivesRoots document.root given) :
    let dir := Path.parent (Path.absolute disk.cwd path)
    (SpellsRoots document.root → config.roots = rootsMeant dir given) ∧
    (¬ SpellsRoots document.root → config.roots = [dir]) ∧
    (config.roots = rootsMeant dir given ↔
      SpellsRoots document.root ∨ rootsMeant dir given = [dir]) := by
  intro dir
  have hdir : Path.IsAbsolute dir :=
    Path.isAbsolute_parent (Path.isAbsolute_absolute hcwd path).isRooted
  obtain ⟨content', document', decoded, hread', hparse', hdecoded, -, rfl⟩ :=
    loadFile_eq_ok_iff.1 hload
  cases hread.symm.trans hread'
  cases hparse.symm.trans hparse'
  have hroots : decoded.roots = given :=
    roots_eq_of_givesRoots hgiven (settles_of_ofDocument? hdecoded).1
  have hfrom := rootsFrom_eq hdir document.root decoded.roots
  rw [hroots] at hfrom ⊢
  by_cases hexact : SpellsRoots document.root
  · rw [if_pos (defines_roots_iff.2 hexact)] at hfrom
    exact ⟨fun _ => hfrom, fun h => absurd hexact h, iff_of_true hfrom (.inl hexact)⟩
  · rw [if_neg (mt defines_roots_iff.1 hexact)] at hfrom
    refine ⟨fun h => absurd h hexact, fun _ => hfrom, ?_⟩
    rw [or_iff_right hexact]
    exact ⟨fun h => h.symm.trans hfrom, fun h => hfrom.trans h.symm⟩

/-- A configuration file with two roots, one of them rooted, under a key of some spelling. -/
def rootsFile (key : Text) : Text :=
  ofString "[workspace]\n" ++ key ++ ofString " = [\"/lib\", 'q']\n"

def rootsDisk (key : Text) : Disk :=
  ⟨.directory [("w", .directory [("gscnav.toml", .file (rootsFile key))])], "/w"⟩

def rootsDocument (key : Text) : Toml.Document :=
  ⟨[("workspace", .table [(key, .array [.string "/lib", .string "q"])])],
    [["workspace"], ["workspace", key]]⟩

theorem givesRoots_rootsDocument {key : Text} (hkey : equalFold "roots" key = true) :
    GivesRoots (rootsDocument key).root ["/lib", "q"] where
  all := by
    rintro value ⟨_, entries, inner, hsection, -, hentry, -⟩
    obtain ⟨-, hentries⟩ := Prod.mk.inj (List.mem_singleton.1 hsection)
    cases hentries
    obtain ⟨-, rfl⟩ := Prod.mk.inj (List.mem_singleton.1 hentry)
    rfl
  exists_of_ne _ :=
    ⟨_, _, _, _, List.mem_singleton_self _, by decide, List.mem_singleton_self _, hkey⟩

/-- A rooted and a relative root under the exact key. -/
theorem loadFile_roots_iff_exactKey :
    let config : Config := { path := "/w/gscnav.toml", roots := ["/lib", "/w/q"] }
    (rootsDisk "roots").read "/w/gscnav.toml" = .ok (rootsFile "roots") ∧
    Toml.parse? (rootsFile "roots") = some (rootsDocument "roots") ∧
    loadFile (rootsDisk "roots") "gscnav.toml" = .ok config ∧
    GivesRoots (rootsDocument "roots").root ["/lib", "q"] ∧
    SpellsRoots (rootsDocument "roots").root ∧
    config.roots = rootsMeant "/w" ["/lib", "q"] := by
  intro config
  have hread : (rootsDisk "roots").read "/w/gscnav.toml" = .ok (rootsFile "roots") := rfl
  have hparse : Toml.parse? (rootsFile "roots") = some (rootsDocument "roots") := rfl
  have hload : loadFile (rootsDisk "roots") "gscnav.toml" = .ok config :=
    loadFile_eq_ok_iff.2 ⟨_, rootsDocument "roots", { config with path := [], roots := ["/lib", "q"] },
      hread, hparse, by decide, by decide, by decide⟩
  have hgiven : GivesRoots (rootsDocument "roots").root ["/lib", "q"] :=
    givesRoots_rootsDocument (by decide)
  have hspells : SpellsRoots (rootsDocument "roots").root := ⟨_, _, rfl, rfl⟩
  obtain ⟨hmeant, -⟩ := loadFile_roots_iff (by decide) hread hparse hload hgiven
  exact ⟨hread, hparse, hload, hgiven, hspells, hmeant hspells⟩

/-- A capital letter in the key of the roots, and the directory of the file is taken for them. -/
theorem loadFile_roots_capitalKey :
    let config : Config := { path := "/w/gscnav.toml", roots := ["/w"] }
    (rootsDisk "Roots").read "/w/gscnav.toml" = .ok (rootsFile "Roots") ∧
    Toml.parse? (rootsFile "Roots") = some (rootsDocument "Roots") ∧
    loadFile (rootsDisk "Roots") "gscnav.toml" = .ok config ∧
    GivesRoots (rootsDocument "Roots").root ["/lib", "q"] ∧
    config.roots ≠ rootsMeant "/w" ["/lib", "q"] := by
  intro config
  have hread : (rootsDisk "Roots").read "/w/gscnav.toml" = .ok (rootsFile "Roots") := rfl
  have hparse : Toml.parse? (rootsFile "Roots") = some (rootsDocument "Roots") := rfl
  have hload : loadFile (rootsDisk "Roots") "gscnav.toml" = .ok config :=
    loadFile_eq_ok_iff.2 ⟨_, rootsDocument "Roots", { config with path := [], roots := ["/lib", "q"] },
      hread, hparse, by decide, by decide, by decide⟩
  exact ⟨hread, hparse, hload, givesRoots_rootsDocument (by decide), by decide⟩

end Config
end ScriptNav
