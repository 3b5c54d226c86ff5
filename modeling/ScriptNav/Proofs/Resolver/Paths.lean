import ScriptNav.Proofs.Resolver.Lookup
import ScriptNav.Proofs.Workspace.Files

/-! Lookups in a workspace whose roots are rooted paths. All candidates are rooted paths then, in
their shortest spelling, so that a candidate is the document itself only under the document's own
path, and every definition is one in the text that the reader gives for its file. -/
namespace ScriptNav.Resolver

open Text

variable {r : Resolver} {doc : Document}

theorem located_of_workspace {w : Workspace} {disk : Disk} {git : Git}
    (hr : r.locator = some (w.locator disk git)) (pattern : Text) :
    r.located pattern = w.find disk git pattern := by
  rw [located, hr]
  rfl

/-- What is located among scripts that are known. -/
theorem locator_of_files {w : Workspace} {disk : Disk} {git : Git} {files : List Workspace.File}
    (hfiles : w.files disk git [] = files) :
    w.locator disk git = fun isCancelled pattern =>
      if isCancelled && w.yields pattern then none
      else
        let pattern := (after? [slash] pattern).getD pattern
        some (if pattern.isEmpty then []
          else (files.filter (Script.namesFile ·.path pattern)).map Workspace.File.absolute) := by
  subst hfiles
  rfl

theorem isAbsolute_of_mem_candidates (hdoc : Path.IsAbsolute doc.path)
    (hlocated : ∀ pattern, ∀ path ∈ r.located pattern, Path.IsAbsolute path)
    {reference : Script.Reference} :
    ∀ path ∈ r.candidates doc reference, Path.IsAbsolute path := by
  intro path hpath
  rw [candidates] at hpath
  split_ifs at hpath
  · exact hlocated _ path hpath
  · rcases List.mem_cons.1 hpath with rfl | hpath
    · exact hdoc
    · obtain ⟨module, -, hpath⟩ := List.mem_flatMap.1 hpath
      exact hlocated _ path hpath

theorem mem_candidates_of_mem_dedupe {files : List Text} {path : Text}
    (h : path ∈ dedupe r.cwd doc.path files) : path ∈ files := by
  obtain ⟨i, hi⟩ := (mem_dedupe_iff r.cwd doc.path).1 h
  exact List.mem_of_getElem? hi.1

/-- What is found in rooted paths is a definition in the text that the reader gives, if that is so
for the document itself. -/
theorem exists_text_of_mem_scan {reader : Source.Reader} (hr : r.reader = some reader)
    (hdoc : Path.IsAbsolute doc.path) (hread : reader doc.path = .ok doc.text) {files : List Text}
    (hfiles : ∀ path ∈ files, Path.IsAbsolute path) {name : Text} {d : Definition}
    (hd : d ∈ r.scan doc files name) :
    d.file ∈ files ∧ ∃ text, reader d.file = .ok text ∧
      Script.definition? text name = some d.site := by
  rw [scan_eq_filterMap, List.mem_filterMap] at hd
  obtain ⟨path, hpath, hd⟩ := hd
  have habsolute := hfiles path hpath
  obtain ⟨rfl, text, htext, hsite⟩ :=
    (definitionIn?_eq_some_iff hdoc.ne_nil habsolute.ne_nil).1 hd
  refine ⟨hpath, text, ?_, hsite⟩
  rw [HasText, Source.key, Source.key, habsolute.absolute_eq, hdoc.absolute_eq] at htext
  split_ifs at htext with hsame
  · rw [hsame, hread, htext]
  · obtain ⟨reader', hreader', htext⟩ := htext
    rw [hr] at hreader'
    cases hreader'
    exact htext

theorem isAbsolute_of_mem_definitions (hdoc : Path.IsAbsolute doc.path)
    (hlocated : ∀ pattern, ∀ path ∈ r.located pattern, Path.IsAbsolute path) {offset : Int}
    {found : Resolution} (hfound : r.lookup false doc offset = .resolved (some found)) :
    ∀ d ∈ found.definitions, Path.IsAbsolute d.file := by
  intro d hd
  cases hreference : Script.referenceAt doc.text offset with
  | none =>
    rw [lookup, hreference] at hfound
    cases hfound
  | some reference =>
    rw [lookup_live hreference] at hfound
    cases hfound
    obtain ⟨path, hpath, hd⟩ := List.mem_filterMap.1 hd
    have habsolute := isAbsolute_of_mem_candidates hdoc hlocated path
      (mem_candidates_of_mem_dedupe hpath)
    obtain ⟨rfl, -⟩ := (definitionIn?_eq_some_iff hdoc.ne_nil habsolute.ne_nil).1 hd
    exact habsolute

/-- Readers that give the same texts for rooted paths give the same definitions. -/
theorem lookup_congr_texts {reader reader' : Source.Reader} (hr : r.reader = some reader)
    (hdoc : Path.IsAbsolute doc.path)
    (hlocated : ∀ pattern, ∀ path ∈ r.located pattern, Path.IsAbsolute path)
    (hagree : ∀ path, Path.IsAbsolute path → (reader' path).toOption = (reader path).toOption)
    (offset : Int) :
    { r with reader := some reader' }.lookup false doc offset = r.lookup false doc offset := by
  cases hreference : Script.referenceAt doc.text offset with
  | none => rw [lookup, lookup, hreference]
  | some reference =>
    have hcandidates : { r with reader := some reader' }.candidates doc reference =
        r.candidates doc reference := rfl
    rw [lookup_live hreference, lookup_live hreference, hcandidates, scan_eq_filterMap,
      scan_eq_filterMap]
    refine congrArg (fun definitions => Outcome.resolved (some ⟨reference, definitions⟩))
      (List.filterMap_congr fun path hpath => ?_)
    have habsolute := isAbsolute_of_mem_candidates hdoc hlocated path
      (mem_candidates_of_mem_dedupe hpath)
    have htext : { r with reader := some reader' }.text? doc path = r.text? doc path := by
      simp only [text?, hr, Option.bind_some, hagree path habsolute]
    rw [definitionIn?, htext, definitionIn?]

end ScriptNav.Resolver
