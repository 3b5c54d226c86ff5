import ScriptNav.Proofs.Resolver.Dedupe
import ScriptNav.Proofs.Workers

/-! A lookup finds exactly the definitions in the scope of a reference: each file counts once, under
its first spelling, and the document counts with its own text. The files are scanned by workers that
finish in any order, which changes nothing. -/
namespace ScriptNav.Resolver

open Text Workers

/-- The files that the locator gives for a pattern; a search that fails gives none. -/
def located (r : Resolver) (pattern : Text) : List Text :=
  match r.locator with
  | none => []
  | some locator => (locator false pattern).getD []

/-- All candidates of a reference, with repetitions: the files of the module that it names, or the
document itself and then the files of the modules that the document includes. -/
def candidates (r : Resolver) (doc : Document) (reference : Script.Reference) : List Text :=
  let extension := Script.moduleExtension doc.path r.extension
  if reference.namespacePath ≠ [] then
    r.located (Script.moduleFile reference.namespacePath extension)
  else
    doc.path :: (Script.includes doc.text).flatMap fun path =>
      r.located (Script.moduleFile path extension)

/-- The text of a candidate: the document's own where the path is that of the document, and what the
reader gives for the path otherwise. -/
def HasText (r : Resolver) (doc : Document) (path text : Text) : Prop :=
  if Source.key r.cwd path = Source.key r.cwd doc.path then text = doc.text
  else ∃ reader, r.reader = some reader ∧ reader path = .ok text

/-- No locator gives an empty path. -/
def LocatesFiles (r : Resolver) : Prop :=
  ∀ locator pattern files, r.locator = some locator → locator false pattern = some files → [] ∉ files

/-- The definition of a name in one file. -/
def definitionIn? (r : Resolver) (doc : Document) (name path : Text) : Option Definition := do
  let text ← r.text? doc path
  let site ← Script.definition? text name
  return ⟨path, site⟩

theorem scan_eq_filterMap (r : Resolver) (doc : Document) (files : List Text) (name : Text) :
    r.scan doc files name = files.filterMap (r.definitionIn? doc name) := rfl

section Keys
variable {cwd current path other : Text}

theorem sameFile_iff (hc : current ≠ []) (hp : path ≠ []) :
    sameFile cwd current path = true ↔ Source.key cwd path = Source.key cwd current := by
  have h : (current.isEmpty || path.isEmpty) = false := by simp [hc, hp]
  rw [sameFile, h]
  simp only [Bool.false_eq_true, ↓reduceIte, beq_iff_eq]
  exact eq_comm

/-- Files are told apart by their keys, the document included. -/
theorem fileKey_eq_iff (hc : current ≠ []) (hp : path ≠ []) (ho : other ≠ []) :
    fileKey cwd current path = fileKey cwd current other ↔
      Source.key cwd path = Source.key cwd other := by
  have hkey : ∀ {path : Text}, path ≠ [] → fileKey cwd current path =
      if Source.key cwd path = Source.key cwd current then none else some (Source.key cwd path) := by
    intro path hp
    have h : path.isEmpty = false := by simpa using hp
    simp only [fileKey, h, Bool.false_or, sameFile_iff hc hp]
  rw [hkey hp, hkey ho]
  split_ifs with h₁ h₂ h₂
  · simp [h₁, h₂]
  · simp [h₁, Ne.symm h₂]
  · simp [h₂, h₁]
  · simp

/-- The first paths of the kinds that are told apart are the first ones of their keys. -/
theorem isFirst_fileKey_iff {files : List Text} {i : Nat} (hc : current ≠ []) (hf : [] ∉ files) :
    IsFirst (fileKey cwd current) files i path ↔ IsFirst (Source.key cwd) files i path := by
  refine and_congr_right fun hi => forall_congr' fun j => forall_congr' fun other => ?_
  refine imp_congr_right fun _ => imp_congr_right fun hj => not_congr ?_
  have hmem : ∀ {k : Nat} {p : Text}, files[k]? = some p → p ≠ [] := by
    rintro k p hk rfl
    exact hf (List.mem_of_getElem? hk)
  exact fileKey_eq_iff hc (hmem hj) (hmem hi)

end Keys

section Scope
variable {r : Resolver} {doc : Document} {reference : Script.Reference}

theorem find_live (r : Resolver) (pattern : Text) :
    r.find false pattern = some (r.located pattern) := by
  rw [find, located]
  cases r.locator with
  | none => rfl
  | some locator => cases h : locator false pattern <;> simp [h]

/-- The scope of a live request are the candidates without repetitions. -/
theorem scope_live (r : Resolver) (doc : Document) (reference : Script.Reference) :
    r.scope false doc reference =
      some (dedupe r.cwd doc.path (r.candidates doc reference)) := by
  have hfind : r.find false = fun pattern => pure (r.located pattern) := funext (find_live r)
  have hnone : r.locator = none → ∀ pattern, r.located pattern = [] := by
    intro h pattern
    rw [located, h]
  rw [scope, hfind, List.mapM_pure]
  cases hl : r.locator with
  | none =>
    cases hn : reference.namespacePath with
    | nil =>
      have hflat : (Script.includes doc.text).flatMap (fun _ => ([] : List Text)) = [] :=
        List.flatMap_eq_nil_iff.2 fun _ _ => rfl
      simp [patterns, candidates, hl, hn, hnone hl, hflat]
    | cons b path => simp [patterns, candidates, hl, hn, hnone hl]
  | some locator =>
    cases hn : reference.namespacePath with
    | nil => simp [patterns, candidates, hl, hn, List.flatMap, Function.comp_def]
    | cons b path => simp [patterns, candidates, hl, hn]

theorem nil_notMem_candidates (hdoc : doc.path ≠ []) (hloc : r.LocatesFiles) :
    [] ∉ r.candidates doc reference := by
  have hlocated : ∀ pattern, [] ∉ r.located pattern := by
    intro pattern
    rw [located]
    cases hl : r.locator with
    | none => simp
    | some locator =>
      cases h : locator false pattern with
      | none => simp [h]
      | some files => simpa [h] using hloc locator pattern files hl h
  rw [candidates]
  split_ifs with h
  · exact hlocated _
  · simp [hdoc.symm, hlocated]

end Scope

section Texts
variable {r : Resolver} {doc : Document} {path : Text}

theorem text?_eq_some_iff (hdoc : doc.path ≠ []) (hp : path ≠ []) {text : Text} :
    r.text? doc path = some text ↔ r.HasText doc path text := by
  rw [text?, HasText]
  by_cases h : Source.key r.cwd path = Source.key r.cwd doc.path
  · rw [if_pos ((sameFile_iff hdoc hp).2 h), if_pos h, Option.some.injEq, eq_comm]
  · rw [if_neg (mt (sameFile_iff hdoc hp).1 h), if_neg h, Option.bind_eq_some_iff]
    refine exists_congr fun reader => and_congr_right fun _ => ?_
    cases reader path <;> simp [Except.toOption]

/-- A file counts with the definition that its text holds. -/
theorem definitionIn?_eq_some_iff (hdoc : doc.path ≠ []) (hp : path ≠ []) {name : Text}
    {d : Definition} :
    r.definitionIn? doc name path = some d ↔ d.file = path ∧
      ∃ text, r.HasText doc path text ∧ Script.definition? text name = some d.site := by
  simp only [definitionIn?, Option.bind_eq_bind, Option.bind_eq_some_iff, Option.pure_def,
    Option.some.injEq, text?_eq_some_iff hdoc hp]
  constructor
  · rintro ⟨text, htext, site, hsite, rfl⟩
    exact ⟨rfl, text, htext, hsite⟩
  · rintro ⟨rfl, text, htext, hsite⟩
    exact ⟨text, htext, d.site, hsite, rfl⟩

end Texts

/-- What a lookup says about a reference. -/
structure Complete (r : Resolver) (doc : Document) (reference : Script.Reference)
    (definitions : List Definition) : Prop where
  /-- No file counts twice. -/
  distinct : (definitions.map fun d => Source.key r.cwd d.file).Nodup
  /-- The definitions stand in the order of the first candidates with their keys. -/
  ordered : definitions.Pairwise fun d e => ∃ i j, i < j ∧
    IsFirst (Source.key r.cwd) (r.candidates doc reference) i d.file ∧
    IsFirst (Source.key r.cwd) (r.candidates doc reference) j e.file
  /-- The definitions are those in the texts of the first candidates. -/
  exact : ∀ d, d ∈ definitions ↔
    (∃ i, IsFirst (Source.key r.cwd) (r.candidates doc reference) i d.file) ∧
    ∃ text, r.HasText doc d.file text ∧ Script.definition? text reference.name = some d.site

/-- Whatever a pool of workers has done so far in scanning files for a name, it can finish, and once it
has finished the definitions in its slots are the given ones. -/
def ScansTo (r : Resolver) (doc : Document) (name : Text) (workers : Nat) (files : List Text)
    (definitions : List Definition) : Prop :=
  let results := files.map (r.definitionIn? doc name)
  let limit := min workers files.length
  ∀ p, Pool.Runs limit results (.start none files.length) p →
    (∃ q, Pool.Runs limit results p q ∧ q.IsFinished files.length) ∧
    (p.IsFinished files.length → p.slots.filterMap id = definitions)

section Lookup
variable {r : Resolver} {doc : Document} {offset : Int} {reference : Script.Reference}

theorem scansTo_scan {workers : Nat} (hw : 0 < workers) (files : List Text) (name : Text) :
    ScansTo r doc name workers files (r.scan doc files name) := by
  intro p hp
  have hlen : (files.map (r.definitionIn? doc name)).length = files.length := List.length_map _
  have hinv := hp.inv (hlen ▸ Pool.inv_start none (files.map (r.definitionIn? doc name)))
  rw [← hlen] at hp ⊢
  refine ⟨hinv.exists_finished fun hne => ?_, fun hf => ?_⟩
  · have := List.length_pos_iff.2 hne
    omega
  · rw [hinv.slots_eq hf, scan_eq_filterMap, List.filterMap_map]
    rfl

theorem lookup_live (hr : Script.referenceAt doc.text offset = some reference) :
    r.lookup false doc offset = .resolved (some ⟨reference,
      r.scan doc (dedupe r.cwd doc.path (r.candidates doc reference)) reference.name⟩) := by
  rw [lookup, hr]
  simp [scope_live]

/-- A scan of the scope of a reference finds exactly what is to be found. -/
theorem complete_scan (hdoc : doc.path ≠ []) (hloc : r.LocatesFiles) :
    Complete r doc reference
      (r.scan doc (dedupe r.cwd doc.path (r.candidates doc reference)) reference.name) := by
  have hnil : [] ∉ r.candidates doc reference := nil_notMem_candidates hdoc hloc
  set files := dedupe r.cwd doc.path (r.candidates doc reference) with hfiles
  have hfirst : ∀ path, path ∈ files ↔
      ∃ i, IsFirst (Source.key r.cwd) (r.candidates doc reference) i path := by
    intro path
    simp only [hfiles, mem_dedupe_iff, isFirst_fileKey_iff hdoc hnil]
  have hpath : ∀ path ∈ files, path ≠ [] := by
    rintro _ hp rfl
    obtain ⟨i, hi⟩ := (hfirst _).1 hp
    exact hnil (List.mem_of_getElem? hi.1)
  have hfile : ∀ path ∈ files, ∀ d, r.definitionIn? doc reference.name path = some d → d.file = path :=
    fun path hp d hd => ((definitionIn?_eq_some_iff hdoc (hpath path hp)).1 hd).1
  have hordered : (r.scan doc files reference.name).Pairwise fun d e => ∃ i j, i < j ∧
      IsFirst (Source.key r.cwd) (r.candidates doc reference) i d.file ∧
      IsFirst (Source.key r.cwd) (r.candidates doc reference) j e.file := by
    have hpair := dedupe_pairwise r.cwd doc.path (r.candidates doc reference)
    simp only [isFirst_fileKey_iff hdoc hnil] at hpair
    rw [scan_eq_filterMap, List.pairwise_filterMap]
    refine hpair.imp_of_mem fun {path other} hp ho h d hd e he => ?_
    rwa [hfile path hp d hd, hfile other ho e he]
  refine ⟨?_, hordered, fun d => ?_⟩
  · refine List.pairwise_map.2 (hordered.imp ?_)
    rintro d e ⟨i, j, hij, hi, hj⟩ hk
    exact absurd (hi.eq_of_key hj hk) (by omega)
  · rw [scan_eq_filterMap, List.mem_filterMap, ← hfirst]
    constructor
    · rintro ⟨path, hp, hd⟩
      obtain ⟨rfl, htext⟩ := (definitionIn?_eq_some_iff hdoc (hpath path hp)).1 hd
      exact ⟨hp, htext⟩
    · rintro ⟨hp, htext⟩
      exact ⟨d.file, hp, (definitionIn?_eq_some_iff hdoc (hpath _ hp)).2 ⟨rfl, htext⟩⟩

/-- The reader is not asked for the document itself. -/
theorem scan_congr_reader (hdoc : doc.path ≠ []) {reader reader' : Source.Reader}
    (hr : r.reader = some reader)
    (hagree : ∀ path, Source.key r.cwd path ≠ Source.key r.cwd doc.path → reader' path = reader path)
    {files : List Text} (hf : [] ∉ files) (name : Text) :
    { r with reader := some reader' }.scan doc files name = r.scan doc files name := by
  rw [scan_eq_filterMap, scan_eq_filterMap]
  refine List.filterMap_congr fun path hpath => ?_
  have hp : path ≠ [] := fun h => hf (h ▸ hpath)
  have htext : { r with reader := some reader' }.text? doc path = r.text? doc path := by
    simp only [text?, sameFile_iff hdoc hp, hr]
    split_ifs with h
    · rfl
    · rw [Option.bind_some, Option.bind_some, hagree path h]
  rw [definitionIn?, htext, definitionIn?]

end Lookup

/-- A lookup in a live request. Without a reference at the offset there is no resolution. Otherwise
the definitions are exactly those in scope, each file once and in the order of the candidates,
whatever the number of workers and the order in which they finish; and what the reader holds for the
document itself does not matter. -/
theorem lookup_complete (r : Resolver) (doc : Document) (offset : Int) (workers : Nat)
    (hw : 0 < workers) (hdoc : doc.path ≠ []) (hloc : r.LocatesFiles) :
    (Script.referenceAt doc.text offset = none → r.lookup false doc offset = .resolved none) ∧
    (∀ reference, Script.referenceAt doc.text offset = some reference → ∃ files definitions,
      r.scope false doc reference = some files ∧
      r.lookup false doc offset = .resolved (some ⟨reference, definitions⟩) ∧
      r.ScansTo doc reference.name workers files definitions ∧
      r.Complete doc reference definitions) ∧
    ∀ reader reader', r.reader = some reader →
      (∀ path, Source.key r.cwd path ≠ Source.key r.cwd doc.path → reader' path = reader path) →
      { r with reader := some reader' }.lookup false doc offset = r.lookup false doc offset := by
  refine ⟨fun h => ?_, fun reference h => ?_, fun reader reader' hr hagree => ?_⟩
  · rw [lookup, h]
  · exact ⟨_, _, scope_live r doc reference, lookup_live h, scansTo_scan hw _ _,
      complete_scan hdoc hloc⟩
  · cases h : Script.referenceAt doc.text offset with
    | none => rw [lookup, lookup, h]
    | some reference =>
      have hcand : { r with reader := some reader' }.candidates doc reference =
          r.candidates doc reference := rfl
      have hnil : [] ∉ dedupe r.cwd doc.path (r.candidates doc reference) := by
        rw [mem_dedupe_iff]
        rintro ⟨i, hi⟩
        exact nil_notMem_candidates hdoc hloc (List.mem_of_getElem? hi.1)
      rw [lookup_live h, lookup_live h, hcand, scan_congr_reader hdoc hr hagree hnil]

/-- A resolver whose locator finds one file under two spellings. -/
def twoSpellings : Resolver where
  cwd := ("/w" : String)
  reader := some fun path =>
    if path = ("/w/b.gsc" : String) then .ok ("f(a)\x7b" : String) else .error ⟨path, .unknown⟩
  locator := some fun _ _ => some [("/w/b.gsc" : String), ("b.gsc" : String)]

/-- The definition in a file that is included twice is found once. -/
theorem lookup_complete_twoSpellings :
    let doc : Document := ⟨("/w/a.gsc" : String), ("#include b;\nf();" : String)⟩
    let definitions : List Definition := [⟨("/w/b.gsc" : String), ⟨0, ⟨0, 0⟩, ("a" : String)⟩⟩]
    let reference : Script.Reference := ⟨("f" : String), [], .call, 12, 13⟩
    doc.path ≠ [] ∧ twoSpellings.LocatesFiles ∧
    twoSpellings.lookup false doc 12 = .resolved (some ⟨reference, definitions⟩) ∧
    twoSpellings.Complete doc reference definitions := by
  intro doc definitions reference
  have hdoc : doc.path ≠ [] := by decide
  have hloc : twoSpellings.LocatesFiles := by
    rintro _ pattern files ⟨⟩ ⟨⟩
    decide
  obtain ⟨files, found, -, hfound, -, hcomplete⟩ :=
    (lookup_complete twoSpellings doc 12 2 (by decide) hdoc hloc).2.1 reference (by decide)
  have hlookup : twoSpellings.lookup false doc 12 = .resolved (some ⟨reference, definitions⟩) := by
    decide
  rw [hlookup] at hfound
  cases hfound
  exact ⟨hdoc, hloc, hlookup, hcomplete⟩

end ScriptNav.Resolver
