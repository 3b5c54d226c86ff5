import ScriptNav.Proofs.Association
import ScriptNav.Proofs.Config.FileSettings

/-! The layers of a configuration: defaults, the settings of a file over them, and variables of the
environment over those. A variable of the process hides the one that the file `.env` sets, and an
empty one changes nothing. What is loaded has been checked at the end, so that it can be used. -/
namespace ScriptNav.Config

open Text

variable {disk : Disk} {env : Environment} {dir path name : Text} {file config : Config}

/-- The variables that the file `.env` sets; none if it cannot be read or is malformed. -/
def dotenv (disk : Disk) : Environment :=
  match disk.read dotenvName with
  | .ok content => (Dotenv.parse? content).getD []
  | .error _ => []

/-- The value that is written for a variable, by the process or else in the file `.env`. -/
def written? (disk : Disk) (env : Environment) (name : Text) : Option Text :=
  (env.get? name).or ((dotenv disk).get? name)

/-- The value of a variable. No variable can hold a zero byte, so the file `.env` sets none with such
a value. -/
def effective? (disk : Disk) (env : Environment) (name : Text) : Option Text :=
  (env.get? name).or (((dotenv disk).get? name).filter (!·.contains 0))

section Variables

theorem nodup_keys_set {vars : Environment} (h : (vars.map Prod.fst).Nodup) (name value : Text) :
    ((vars.set name value).map Prod.fst).Nodup := by
  rw [Environment.set, List.map_cons, List.nodup_cons]
  exact ⟨by simp, h.sublist (List.filter_sublist.map Prod.fst)⟩

/-- A variable that is set again has its last value only. -/
theorem nodup_keys_statements? {vars vars' : Environment} {fuel : Nat} {t : Text}
    (h : (vars.map Prod.fst).Nodup) (hread : Dotenv.statements? vars fuel t = some vars') :
    (vars'.map Prod.fst).Nodup := by
  induction fuel generalizing vars t with
  | zero => cases hread
  | succ fuel ih =>
    rw [Dotenv.statements?] at hread
    dsimp only at hread
    split at hread
    · cases hread
      exact h
    · simp only [Option.bind_eq_bind, Option.bind_eq_some_iff] at hread
      obtain ⟨⟨name, rest⟩, -, ⟨value, more⟩, -, hread⟩ := hread
      exact ih (nodup_keys_set h name value) hread

theorem nodup_keys_parse? {vars : Environment} {t : Text} (h : Dotenv.parse? t = some vars) :
    (vars.map Prod.fst).Nodup := by
  refine nodup_keys_statements? ?_ h
  exact List.nodup_nil

theorem lookup_filter {vars : Environment} (h : (vars.map Prod.fst).Nodup)
    (p : Text × Text → Bool) (name : Text) :
    (vars.filter p).lookup name = (vars.lookup name).filter fun value => p (name, value) := by
  have hkept : ((vars.filter p).map Prod.fst).Nodup := h.sublist (List.filter_sublist.map Prod.fst)
  ext value
  rw [Association.lookup_eq_some_iff_mem hkept, List.mem_filter, Option.filter_eq_some_iff,
    Association.lookup_eq_some_iff_mem h]

/-- The environment has the variables of the process, and those of `.env` behind them. -/
theorem get?_environment (hname : name ≠ []) :
    (environment disk env).get? name = effective? disk env name := by
  rw [effective?, dotenv, environment]
  cases disk.read dotenvName with
  | error error => exact Option.or_none.symm
  | ok content =>
    dsimp only
    rw [Dotenv.load]
    cases hparse : Dotenv.parse? content with
    | none => exact Option.or_none.symm
    | some vars =>
      rw [Environment.get?, List.lookup_append, lookup_filter (nodup_keys_parse? hparse)]
      dsimp only [Environment.get?, Option.getD_some]
      cases env.lookup name with
      | some value => rfl
      | none => simp [List.isEmpty_eq_false_iff.2 hname]

end Variables

/-- The value of a variable that is not empty. -/
def given? (vars : Text → Option Text) (name : Text) : Option Text :=
  (vars name).filter (!·.isEmpty)

/-- The settings of `config` are those of `file`, but for the three that variables override. -/
structure Overrides (vars : Text → Option Text) (file config : Config) : Prop where
  extension : config.extension = (given? vars "GSCNAV_EXTENSION").getD file.extension
  workers_of_none : given? vars "GSCNAV_WORKERS" = none → config.workers = file.workers
  workers_of_some : ∀ numeral, given? vars "GSCNAV_WORKERS" = some numeral →
    parseInteger numeral = .ok config.workers
  logLevel : config.logLevel = (given? vars "GSCNAV_LOG_LEVEL").getD file.logLevel
  rest : config = { file with
    extension := config.extension, workers := config.workers, logLevel := config.logLevel }

/-- A configuration that can be worked with. -/
structure IsUsable (config : Config) : Prop where
  roots_ne_nil : config.roots ≠ []
  isRooted : ∀ root ∈ config.roots, Path.isRooted root = true
  extension_head : config.extension.head? = some dot
  extension_length : 2 ≤ config.extension.length
  workers_nonneg : 0 ≤ config.workers
  maxFileSize_nonneg : 0 ≤ config.maxFileSize
  exists_level : ∃ level, parseLevel config.logLevel = .ok level

/-- The settings before variables override them: those of the file that is named, or else of the
nearest one, or else the defaults of the directory. -/
inductive Provides (disk : Disk) (dir path : Text) : Config → Prop
  | named {file : Config} (hpath : path ≠ []) (hload : loadFile disk path = .ok file) :
    Provides disk dir path file
  | nearest {place : Text} {file : Config} (hpath : path = [])
      (hfind : find disk (Path.absolute disk.cwd dir) = .ok (some place))
      (hload : loadFile disk place = .ok file) : Provides disk dir path file
  | usual (hpath : path = []) (hfind : find disk (Path.absolute disk.cwd dir) = .ok none) :
    Provides disk dir path (default (Path.absolute disk.cwd dir))

section Steps

theorem override_eq_ok_iff {vars : Text → Option Text}
    (hvars : ∀ name ≠ [], env.get? name = vars name) :
    override env file = .ok config ↔ Overrides vars file config := by
  have hgiven (name : Text) (hname : name ≠ []) :
      (env.get? name).filter (!·.isEmpty) = given? vars name := by rw [hvars name hname, given?]
  simp only [override, hgiven _ (show ofString "GSCNAV_WORKERS" ≠ [] by decide),
    hgiven _ (show ofString "GSCNAV_EXTENSION" ≠ [] by decide),
    hgiven _ (show ofString "GSCNAV_LOG_LEVEL" ≠ [] by decide)]
  cases hworkers : given? vars "GSCNAV_WORKERS" with
  | none =>
    constructor
    · intro h
      cases h
      exact ⟨rfl, fun _ => rfl, fun _ h => by simp [hworkers] at h, rfl, rfl⟩
    · intro h
      rw [h.rest, h.extension, h.workers_of_none hworkers, h.logLevel]
      rfl
  | some numeral =>
    dsimp only
    cases hparse : parseInteger numeral with
    | error error =>
      refine iff_of_false (fun h => by cases h) fun h => ?_
      cases hparse.symm.trans (h.workers_of_some numeral hworkers)
    | ok workers =>
      constructor
      · intro h
        cases h
        refine ⟨rfl, fun h => by simp [hworkers] at h, fun other hother => ?_, rfl, rfl⟩
        cases hworkers.symm.trans hother
        exact hparse
      · intro h
        cases hparse.symm.trans (h.workers_of_some numeral hworkers)
        rw [h.rest, h.extension, h.logLevel]
        rfl

theorem validate_eq_ok_iff :
    config.validate = .ok () ↔
      (config.extension.head? = some dot ∧ 2 ≤ config.extension.length) ∧ 0 ≤ config.workers ∧
        0 ≤ config.maxFileSize ∧ ∃ level, parseLevel config.logLevel = .ok level := by
  have hlevel : (config.level.map fun _ => ()) = .ok () ↔
      ∃ level, parseLevel config.logLevel = .ok level := by
    rw [level]
    cases parseLevel config.logLevel <;> simp [Except.map, Except.mapError]
  have hextension : (config.extension.head? != some dot || decide (config.extension.length < 2)) =
      false ↔ config.extension.head? = some dot ∧ 2 ≤ config.extension.length := by
    rw [Bool.or_eq_false_iff, bne_eq_false_iff_eq, decide_eq_false_iff_not, Nat.not_lt]
  rw [validate, ← hextension, ← hlevel]
  split_ifs with hbad hworkers hsize
  · exact iff_of_false (by simp) fun h => absurd (hbad.symm.trans h.1) (by simp)
  · exact iff_of_false (by simp) fun h => by omega
  · exact iff_of_false (by simp) fun h => by omega
  · have hgood := Bool.eq_false_iff.2 hbad
    exact ⟨fun h => ⟨hgood, by omega, by omega, h⟩, fun h => h.2.2.2⟩

theorem bind_eq_ok_iff {ε α β : Type} {x : Except ε α} {f : α → Except ε β} {b : β} :
    (x >>= f) = .ok b ↔ ∃ a, x = .ok a ∧ f a = .ok b := by
  cases x <;> simp [bind, Except.bind]

theorem Provides.unique {other : Config} (h : Provides disk dir path file)
    (hother : Provides disk dir path other) : file = other := by
  cases h with
  | named hpath hload =>
    cases hother with
    | named _ hload' => exact Except.ok.inj (hload.symm.trans hload')
    | nearest hnil => exact absurd hnil hpath
    | usual hnil => exact absurd hnil hpath
  | nearest hpath hfind hload =>
    cases hother with
    | named hpath' => exact absurd hpath hpath'
    | nearest _ hfind' hload' =>
      cases hfind.symm.trans hfind'
      exact Except.ok.inj (hload.symm.trans hload')
    | usual _ hfind' => cases hfind.symm.trans hfind'
  | usual hpath hfind =>
    cases hother with
    | named hpath' => exact absurd hpath hpath'
    | nearest _ hfind' => cases hfind.symm.trans hfind'
    | usual => rfl

/-- What is loaded is provided, overridden and checked. -/
theorem load_eq_ok_iff_steps :
    load disk env dir path = .ok config ↔ ∃ file, Provides disk dir path file ∧
      override (environment disk env) file = .ok config ∧ config.validate = .ok () := by
  by_cases hpath : path = []
  · simp only [load, hpath, List.isEmpty_nil, if_true, bind_eq_ok_iff]
    constructor
    · rintro ⟨_ | place, hfind, h⟩ <;> simp only [bind_eq_ok_iff] at h
      · obtain ⟨_, ⟨⟩, _, hoverride, _, hvalid, ⟨⟩⟩ := h
        exact ⟨_, .usual rfl hfind, hoverride, hvalid⟩
      · obtain ⟨file, hload, _, hoverride, _, hvalid, ⟨⟩⟩ := h
        exact ⟨file, .nearest rfl hfind hload, hoverride, hvalid⟩
    · rintro ⟨file, hnot | ⟨-, hfind, hload⟩ | ⟨-, hfind⟩, hoverride, hvalid⟩
      · exact absurd rfl hnot
      · refine ⟨_, hfind, ?_⟩
        simp only [bind_eq_ok_iff]
        exact ⟨file, hload, config, hoverride, (), hvalid, rfl⟩
      · refine ⟨_, hfind, ?_⟩
        simp only [bind_eq_ok_iff]
        exact ⟨_, rfl, config, hoverride, (), hvalid, rfl⟩
  · simp only [load, List.isEmpty_eq_false_iff.2 hpath, Bool.false_eq_true, if_false,
      bind_eq_ok_iff]
    constructor
    · rintro ⟨_, ⟨⟩, h⟩
      simp only [bind_eq_ok_iff] at h
      obtain ⟨file, hload, _, hoverride, _, hvalid, ⟨⟩⟩ := h
      exact ⟨file, .named hpath hload, hoverride, hvalid⟩
    · rintro ⟨file, ⟨-, hload⟩ | hnil | hnil, hoverride, hvalid⟩
      · refine ⟨_, rfl, ?_⟩
        simp only [bind_eq_ok_iff]
        exact ⟨file, hload, config, hoverride, (), hvalid, rfl⟩
      · exact absurd hnil hpath
      · exact absurd hnil hpath

end Steps

section Roots

theorem isRooted_of_mem_rootsMeant {base root : Text} {given : List Text}
    (hbase : Path.isRooted base = true) (h : root ∈ rootsMeant base given) :
    Path.isRooted root = true := by
  rw [rootsMeant] at h
  split_ifs at h
  · rwa [List.mem_singleton.1 h]
  · obtain ⟨r, -, rfl⟩ := List.mem_map.1 h
    split_ifs with hr
    · exact hr
    · exact (Path.isAbsolute_append hbase r).isRooted

theorem rootsMeant_ne_nil (base : Text) (given : List Text) : rootsMeant base given ≠ [] := by
  rw [rootsMeant]
  split_ifs with hnil
  · exact List.cons_ne_nil _ _
  · simpa using hnil

/-- There are roots in a file, given or not, and they are rooted. -/
theorem roots_of_loadFile (hcwd : Path.isRooted disk.cwd = true)
    (h : loadFile disk path = .ok file) :
    file.roots ≠ [] ∧ ∀ root ∈ file.roots, Path.isRooted root = true := by
  have hdir := Path.isAbsolute_parent (Path.isAbsolute_absolute hcwd path).isRooted
  obtain ⟨_, document, decoded, -, -, -, -, rfl⟩ := loadFile_eq_ok_iff.1 h
  rw [rootsFrom_eq hdir]
  split_ifs
  · exact ⟨rootsMeant_ne_nil _ _, fun root hroot => isRooted_of_mem_rootsMeant hdir.isRooted hroot⟩
  · refine ⟨List.cons_ne_nil _ _, fun root hroot => ?_⟩
    rw [List.mem_singleton.1 hroot]
    exact hdir.isRooted

theorem Provides.roots (hcwd : Path.isRooted disk.cwd = true) (h : Provides disk dir path file) :
    file.roots ≠ [] ∧ ∀ root ∈ file.roots, Path.isRooted root = true := by
  cases h with
  | named _ hload => exact roots_of_loadFile hcwd hload
  | nearest _ _ hload => exact roots_of_loadFile hcwd hload
  | usual =>
    refine ⟨List.cons_ne_nil _ _, fun root hroot => ?_⟩
    rw [List.mem_singleton.1 hroot]
    exact (Path.isAbsolute_absolute hcwd dir).isRooted

end Roots

/-- The settings of a file are those of its document over the defaults. -/
theorem fromDocument_of_loadFile (h : loadFile disk path = .ok file) :
    ∃ content document, disk.read file.path = .ok content ∧ Toml.parse? content = some document ∧
      FromDocument (default (Path.parent file.path)) document.root file := by
  obtain ⟨content, document, decoded, hread, hparse, hdecoded, -, rfl⟩ := loadFile_eq_ok_iff.1 h
  obtain ⟨-, hsettled⟩ := settles_of_ofDocument? hdecoded
  exact ⟨content, document, hread, hparse, { hsettled with }⟩

theorem Provides.fromDocument (h : Provides disk dir path file) :
    (path = [] ∧ find disk (Path.absolute disk.cwd dir) = .ok none ∧
      file = default (Path.absolute disk.cwd dir)) ∨
    ∃ content document, disk.read file.path = .ok content ∧ Toml.parse? content = some document ∧
      FromDocument (default (Path.parent file.path)) document.root file := by
  cases h with
  | named _ hload => exact .inr (fromDocument_of_loadFile hload)
  | nearest _ _ hload => exact .inr (fromDocument_of_loadFile hload)
  | usual hpath hfind => exact .inl ⟨hpath, hfind, rfl⟩

theorem isUsable_iff (hprovides : Provides disk dir path file)
    (hcwd : Path.isRooted disk.cwd = true) (hroots : config.roots = file.roots) :
    config.IsUsable ↔ config.validate = .ok () := by
  obtain ⟨hne, hrooted⟩ := hroots ▸ hprovides.roots hcwd
  rw [validate_eq_ok_iff]
  constructor
  · intro h
    exact ⟨⟨h.extension_head, h.extension_length⟩, h.workers_nonneg, h.maxFileSize_nonneg,
      h.exists_level⟩
  · rintro ⟨⟨hhead, hlength⟩, hworkers, hsize, hlevel⟩
    exact ⟨hne, hrooted, hhead, hlength, hworkers, hsize, hlevel⟩

/-- A configuration is loaded just if it is usable and its settings come from three layers. -/
theorem load_eq_ok_iff (hcwd : Path.isRooted disk.cwd = true) :
    load disk env dir path = .ok config ↔ ∃ file, Provides disk dir path file ∧
      Overrides (effective? disk env) file config ∧ config.IsUsable := by
  have hoverrides (file : Config) : override (environment disk env) file = .ok config ↔
      Overrides (effective? disk env) file config :=
    override_eq_ok_iff fun _ hname => get?_environment hname
  rw [load_eq_ok_iff_steps]
  refine exists_congr fun file => and_congr_right fun hprovides => ?_
  rw [hoverrides]
  refine and_congr_right fun hover => (isUsable_iff hprovides hcwd ?_).symm
  rw [hover.rest]

/-- The layers of a configuration. It is loaded just if it is usable and its settings are the provided
ones but for those that variables override; loading fails if what comes of this is not usable; and the
provided settings are the defaults if there is no file, and else those of its document, with the
defaults for what the document does not give. -/
theorem load_layers (hcwd : Path.isRooted disk.cwd = true) (env : Environment) (dir path : Text) :
    (∀ config, load disk env dir path = .ok config ↔ ∃ file, Provides disk dir path file ∧
      Overrides (effective? disk env) file config ∧ config.IsUsable) ∧
    (∀ file, Provides disk dir path file →
      (¬ ∃ config : Config, Overrides (effective? disk env) file config ∧ config.IsUsable) →
      ∃ error, load disk env dir path = .error error) ∧
    ∀ file, Provides disk dir path file →
      (path = [] ∧ find disk (Path.absolute disk.cwd dir) = .ok none ∧
        file = default (Path.absolute disk.cwd dir)) ∨
      ∃ content document, disk.read file.path = .ok content ∧
        Toml.parse? content = some document ∧
        FromDocument (default (Path.parent file.path)) document.root file := by
  refine ⟨fun config => load_eq_ok_iff hcwd, fun file hfile hnone => ?_,
    fun file hfile => hfile.fromDocument⟩
  cases hload : load disk env dir path with
  | error error => exact ⟨error, rfl⟩
  | ok config =>
    obtain ⟨other, hother, hover, husable⟩ := (load_eq_ok_iff hcwd).1 hload
    cases hfile.unique hother
    exact absurd ⟨config, hover, husable⟩ hnone

/-- A workspace with a configuration file and a file of variables above its directory. -/
def layeredDisk : Disk :=
  ⟨.directory [("w", .directory [
    ("gscnav.toml", .file "[Workspace]\nExtension='.csc'"),
    (".env", .file "GSCNAV_WORKERS=7\nGSCNAV_LOG_LEVEL=warn"),
    ("maps", .directory [])])], "/w"⟩

def layeredConfig : Config where
  path := "/w/gscnav.toml"
  roots := ["/w"]
  extension := ".csc"
  workers := 7

/-- The extension is set in the file, the workers in `.env`, and an empty variable of the process hides
the level there, so that the usual level stays. -/
theorem load_layers_emptyVariable :
    let env : Environment := [("GSCNAV_LOG_LEVEL", [])]
    Path.isRooted layeredDisk.cwd = true ∧ load layeredDisk env "maps" [] = .ok layeredConfig ∧
    layeredConfig.IsUsable ∧ ∃ file, Provides layeredDisk "maps" [] file ∧
      Overrides (effective? layeredDisk env) file layeredConfig := by
  intro env
  have hcwd : Path.isRooted layeredDisk.cwd = true := by decide
  have hload : load layeredDisk env "maps" [] = .ok layeredConfig := by decide +kernel
  obtain ⟨hlayers, -⟩ := load_layers hcwd env "maps" []
  obtain ⟨file, hfile, hover, husable⟩ := (hlayers layeredConfig).1 hload
  exact ⟨hcwd, hload, husable, file, hfile, hover⟩

/-- A file of variables that holds a zero byte in a value. -/
def zeroDisk : Disk :=
  ⟨.directory [("w", .directory [(".env", .file "GSCNAV_EXTENSION=.a\x00")])], "/w"⟩

/-- What is written in `.env` with a zero byte does not override the default. -/
theorem load_layers_zeroByte :
    load zeroDisk [] "/w" [] = .ok (default "/w") ∧ Provides zeroDisk "/w" [] (default "/w") ∧
    given? (written? zeroDisk []) "GSCNAV_EXTENSION" = some ".a\x00" ∧
    ¬ Overrides (written? zeroDisk []) (default "/w") (default "/w") := by
  have hload : load zeroDisk [] "/w" [] = .ok (default "/w") := by decide +kernel
  have hfind : find zeroDisk "/w" = .ok none := by decide +kernel
  have hwritten : given? (written? zeroDisk []) "GSCNAV_EXTENSION" = some ".a\x00" := by decide +kernel
  refine ⟨hload, .usual rfl hfind, hwritten, fun hover => ?_⟩
  have hextension := hover.extension
  rw [hwritten] at hextension
  exact absurd hextension (by decide)

end ScriptNav.Config
