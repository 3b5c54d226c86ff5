import ScriptNav.Proofs.Resolver.Lookup
import ScriptNav.Proofs.TaskGroup

/-! Searches and texts that fail. A lookup in a live request has no failures of its own: a search that
fails counts as one that finds nothing, a text that cannot be read takes away the definition in it and
no other, and the tasks that scan the candidates never stop one another. A request that is cancelled
from the start finds no definition. -/
namespace ScriptNav.Resolver

open Text Workers

/-- What scanning a candidate comes to: nothing if it cannot be read, and otherwise the definition of
the name in it, if there is one. -/
def scanned (r : Resolver) (doc : Document) (name path : Text) : Option (Option Definition) :=
  (r.text? doc path).map fun text => (Script.definition? text name).map (⟨path, ·⟩)

/-- What a lookup can come to when the candidates are scanned by a group of workers, which may take
its steps in any order. -/
inductive LooksUp (r : Resolver) (workers : Nat) (isCancelled : Bool) (doc : Document) (offset : Int) :
    Outcome → Prop
  | nothing (h : Script.referenceAt doc.text offset = none) :
      LooksUp r workers isCancelled doc offset (.resolved none)
  | unlocated {reference : Script.Reference} (h : Script.referenceAt doc.text offset = some reference)
      (hscope : r.scope isCancelled doc reference = none) :
      LooksUp r workers isCancelled doc offset .cancelled
  | empty {reference : Script.Reference} (h : Script.referenceAt doc.text offset = some reference)
      (hscope : r.scope isCancelled doc reference = some []) :
      LooksUp r workers isCancelled doc offset (.resolved (some ⟨reference, []⟩))
  | searched {reference : Script.Reference} {files : List Text} {g : TaskGroup Definition}
      (h : Script.referenceAt doc.text offset = some reference)
      (hscope : r.scope isCancelled doc reference = some files) (hne : files ≠ [])
      (hruns : TaskGroup.Runs (min workers files.length) isCancelled
        (files.map (r.scanned doc reference.name)) (.start files.length) g)
      (hf : g.pool.IsFinished files.length) :
      LooksUp r workers isCancelled doc offset
        (match g.outcome isCancelled with
          | none => .cancelled
          | some definitions => .resolved (some ⟨reference, definitions⟩))

/-- An outcome with those definitions only that satisfy a condition. -/
def Outcome.restrict (keeps : Definition → Bool) : Outcome → Outcome
  | cancelled => cancelled
  | resolved found => resolved (found.map fun r => ⟨r.reference, r.definitions.filter keeps⟩)

section Schedules
variable {r : Resolver} {doc : Document} {offset : Int} {workers : Nat} {isCancelled : Bool}

theorem join_scanned (r : Resolver) (doc : Document) (name path : Text) :
    (r.scanned doc name path).join = r.definitionIn? doc name path := by
  rw [scanned, definitionIn?]
  cases r.text? doc path with
  | none => rfl
  | some text => cases h : Script.definition? text name <;> simp [h]

theorem filterMap_join_scanned (r : Resolver) (doc : Document) (files : List Text) (name : Text) :
    (files.map (r.scanned doc name)).filterMap Option.join = r.scan doc files name := by
  rw [List.filterMap_map, scan_eq_filterMap]
  exact List.filterMap_congr fun path _ => join_scanned r doc name path

/-- Whatever the order of the steps, a lookup comes to one outcome, and there is an order in which it
does. -/
theorem looksUp_iff (hw : 0 < workers) {outcome : Outcome} :
    r.LooksUp workers isCancelled doc offset outcome ↔
      outcome = r.lookup isCancelled doc offset := by
  have hlen (files : List Text) (name : Text) :
      (files.map (r.scanned doc name)).length = files.length := List.length_map _
  constructor
  · intro h
    cases h with
    | nothing h => rw [lookup, h]
    | unlocated h hscope => simp only [lookup, h, hscope]
    | empty h hscope => cases isCancelled <;> simp [lookup, h, hscope, scan]
    | @searched reference files g h hscope hne hruns hf =>
      cases isCancelled with
      | true => simp [lookup, h, hscope, hne, TaskGroup.outcome]
      | false =>
        rw [← hlen files reference.name] at hruns hf
        rw [hruns.outcome_live hf, filterMap_join_scanned]
        simp [lookup, h, hscope]
  · rintro rfl
    cases h : Script.referenceAt doc.text offset with
    | none =>
      rw [lookup, h]
      exact .nothing h
    | some reference =>
      cases hscope : r.scope isCancelled doc reference with
      | none =>
        simp only [lookup, h, hscope]
        exact .unlocated h hscope
      | some files =>
        by_cases hne : files = []
        · subst hne
          simp only [lookup, h, hscope, List.isEmpty_nil, Bool.not_true, Bool.and_false]
          exact .empty h hscope
        · have hpos : 0 < min workers files.length :=
            Nat.lt_min.2 ⟨hw, List.length_pos_iff.2 hne⟩
          have hfinished : ∃ g, TaskGroup.Runs _ isCancelled
              (files.map (r.scanned doc reference.name)) (.start _) g ∧ g.pool.IsFinished _ :=
            TaskGroup.exists_finished (fun _ => hpos) isCancelled
          obtain ⟨g, hruns, hf⟩ := hfinished
          have hlooks := LooksUp.searched h hscope hne (hlen files _ ▸ hruns) (hlen files _ ▸ hf)
          cases isCancelled with
          | true =>
            simp only [TaskGroup.outcome, Bool.true_or, if_true] at hlooks
            simpa [lookup, h, hscope, hne] using hlooks
          | false =>
            rw [hruns.outcome_live hf, filterMap_join_scanned] at hlooks
            simpa [lookup, h, hscope] using hlooks

end Schedules

section Live
variable {r : Resolver} {doc : Document} {offset : Int}

/-- A live request always comes to an answer. -/
theorem exists_resolved (r : Resolver) (doc : Document) (offset : Int) :
    ∃ found, r.lookup false doc offset = .resolved found := by
  cases h : Script.referenceAt doc.text offset with
  | none => exact ⟨none, by rw [lookup, h]⟩
  | some reference => exact ⟨_, lookup_live h⟩

/-- A search that fails does not differ from one that finds nothing. -/
theorem lookup_congr_locator {locator locator' : Locator} (hr : r.locator = some locator)
    (h : ∀ pattern, locator' false pattern = locator false pattern ∨
      locator false pattern = none ∧ locator' false pattern = some []) :
    { r with locator := some locator' }.lookup false doc offset = r.lookup false doc offset := by
  have hlocated (pattern : Text) :
      { r with locator := some locator' }.located pattern = r.located pattern := by
    rw [located, located, hr]
    obtain heq | ⟨hnone, hempty⟩ := h pattern
    · simp only [heq]
    · simp only [hnone, hempty]
      rfl
  cases href : Script.referenceAt doc.text offset with
  | none => rw [lookup, lookup, href]
  | some reference =>
    have hcandidates : { r with locator := some locator' }.candidates doc reference =
        r.candidates doc reference := by
      simp only [candidates, hlocated]
    rw [lookup_live href, lookup_live href, hcandidates]
    rfl

/-- The texts that are not read any more take away their own definitions. -/
theorem definitionIn?_of_fails {reader reader' : Source.Reader} (hr : r.reader = some reader)
    {fails : Text → Bool} (hagree : ∀ path, fails path = false → reader' path = reader path)
    (hfails : ∀ path, fails path = true → ∃ error, reader' path = .error error) (name path : Text) :
    { r with reader := some reader' }.definitionIn? doc name path =
      (r.definitionIn? doc name path).filter fun d =>
        !fails d.file || sameFile r.cwd doc.path d.file := by
  have htext : { r with reader := some reader' }.text? doc path =
      if (!fails path || sameFile r.cwd doc.path path) = true then r.text? doc path else none := by
    rw [text?, text?, hr]
    by_cases hsame : sameFile r.cwd doc.path path = true
    · simp [hsame]
    · cases hpath : fails path with
      | false => simp [hsame, hagree path hpath]
      | true =>
        obtain ⟨error, herror⟩ := hfails path hpath
        simp [hsame, herror, Except.toOption]
  rw [definitionIn?, definitionIn?, htext]
  split
  · next hkeep =>
    cases r.text? doc path with
    | none => rfl
    | some text => cases h : Script.definition? text name <;> simp [h, Option.filter, hkeep]
  · next hdrop =>
    cases r.text? doc path with
    | none => rfl
    | some text => cases h : Script.definition? text name <;> simp [h, Option.filter, hdrop]

theorem lookup_of_fails {reader reader' : Source.Reader} (hr : r.reader = some reader)
    {fails : Text → Bool} (hagree : ∀ path, fails path = false → reader' path = reader path)
    (hfails : ∀ path, fails path = true → ∃ error, reader' path = .error error) :
    { r with reader := some reader' }.lookup false doc offset =
      (r.lookup false doc offset).restrict fun d =>
        !fails d.file || sameFile r.cwd doc.path d.file := by
  cases href : Script.referenceAt doc.text offset with
  | none =>
    rw [lookup, lookup, href]
    rfl
  | some reference =>
    have hcandidates : { r with reader := some reader' }.candidates doc reference =
        r.candidates doc reference := rfl
    rw [lookup_live href, lookup_live href, hcandidates, Outcome.restrict, Option.map_some,
      scan_eq_filterMap, scan_eq_filterMap, List.filter_filterMap]
    simp only [definitionIn?_of_fails hr hagree hfails]

/-- A request that is cancelled from the start fails, or finds no definition. -/
theorem lookup_cancelled (r : Resolver) (doc : Document) (offset : Int) :
    r.lookup true doc offset = .cancelled ∨ r.lookup true doc offset = .resolved none ∨
      ∃ reference, r.lookup true doc offset = .resolved (some ⟨reference, []⟩) := by
  cases href : Script.referenceAt doc.text offset with
  | none => exact .inr (.inl (by rw [lookup, href]))
  | some reference =>
    cases hscope : r.scope true doc reference with
    | none => exact .inl (by simp only [lookup, href, hscope])
    | some files =>
      cases files with
      | nil => exact .inr (.inr ⟨reference, by simp [lookup, href, hscope, scan]⟩)
      | cons path files => exact .inl (by simp [lookup, href, hscope])

end Live

/-- Failures are kept apart from one another and from cancellation. Whatever the order in which the
workers of a lookup take their steps, there is one outcome. In a live request it is an answer, however
searches and texts fail: a search that fails counts as one that finds nothing, and if a reader fails
on more paths than another, the definitions in those files are gone, unless the file is the document
itself, and all others stay as they are and in their order. In a request that is cancelled from the
start there is no answer, or one without definitions. -/
theorem lookup_isolates_failures (r : Resolver) (doc : Document) (offset : Int) (workers : Nat)
    (hw : 0 < workers) :
    (∀ isCancelled outcome, r.LooksUp workers isCancelled doc offset outcome ↔
      outcome = r.lookup isCancelled doc offset) ∧
    (∃ found, r.lookup false doc offset = .resolved found) ∧
    (∀ locator locator', r.locator = some locator →
      (∀ pattern, locator' false pattern = locator false pattern ∨
        locator false pattern = none ∧ locator' false pattern = some []) →
      { r with locator := some locator' }.lookup false doc offset = r.lookup false doc offset) ∧
    (∀ reader reader' (fails : Text → Bool), r.reader = some reader →
      (∀ path, fails path = false → reader' path = reader path) →
      (∀ path, fails path = true → ∃ error, reader' path = .error error) →
      { r with reader := some reader' }.lookup false doc offset =
        (r.lookup false doc offset).restrict fun d =>
          !fails d.file || sameFile r.cwd doc.path d.file) ∧
    (r.lookup true doc offset = .cancelled ∨ r.lookup true doc offset = .resolved none ∨
      ∃ reference, r.lookup true doc offset = .resolved (some ⟨reference, []⟩)) := by
  refine ⟨fun isCancelled outcome => looksUp_iff hw, exists_resolved r doc offset, ?_, ?_,
    lookup_cancelled r doc offset⟩
  · intro locator locator' hr h
    exact lookup_congr_locator hr h
  · intro reader reader' fails hr hagree hfails
    exact lookup_of_fails hr hagree hfails

/-- A resolver that finds and reads every file. -/
def allReadable : Resolver where
  cwd := "/w"
  reader := some fun _ => .ok "f(x)\x7b"
  locator := some fun _ pattern => some ["/w/" ++ pattern]

/-- Of two definitions in included files one stays when the other cannot be read. -/
theorem lookup_isolates_failures_oneUnreadable :
    let doc : Document := ⟨"/w/a.gsc", "#include b;\n#include c;\nf();"⟩
    let reference : Script.Reference := ⟨"f", [], .call, 24, 25⟩
    let site : Script.Site := ⟨0, ⟨0, 0⟩, "x"⟩
    let reader : Source.Reader := fun path =>
      if path == "/w/b.gsc" then .error ⟨path, .unknown⟩ else .ok "f(x)\x7b"
    allReadable.lookup false doc 24 =
      .resolved (some ⟨reference, [⟨"/w/b.gsc", site⟩, ⟨"/w/c.gsc", site⟩]⟩) ∧
    { allReadable with reader := some reader }.lookup false doc 24 =
      .resolved (some ⟨reference, [⟨"/w/c.gsc", site⟩]⟩) ∧
    (∀ outcome, allReadable.LooksUp 2 false doc 24 outcome → outcome ≠ .cancelled) ∧
    allReadable.lookup true doc 24 = .cancelled := by
  intro doc reference site reader
  have hlookup : allReadable.lookup false doc 24 =
      .resolved (some ⟨reference, [⟨"/w/b.gsc", site⟩, ⟨"/w/c.gsc", site⟩]⟩) := by decide
  obtain ⟨hlooks, -, -, hreader, -⟩ :=
    lookup_isolates_failures allReadable doc 24 2 (by decide)
  have hfails := hreader _ reader (fun path => path == "/w/b.gsc") rfl
    (fun path h => by simp only [reader, h]; rfl)
    (fun path h => ⟨⟨path, .unknown⟩, by simp only [reader, h]; rfl⟩)
  refine ⟨hlookup, hfails.trans ?_, fun outcome h => ?_, by decide⟩
  · rw [hlookup]
    decide
  · rw [(hlooks false outcome).1 h, hlookup]
    exact nofun

end ScriptNav.Resolver
