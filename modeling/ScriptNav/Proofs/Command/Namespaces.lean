import ScriptNav.Command.Run
import ScriptNav.Proofs.Command.Navigation

/-! References behind the separator `::`. Such a reference counts as namespaced if a module path
stands before the separator, and not if the separator stands alone. A call behind a lone separator is
then taken for a plain one, and what the engine documents under its name is shown for it. -/
namespace ScriptNav

open Text

namespace Script
variable {t : Text} {offset : Int} {r : Reference}

/-- The separator stands before the identifier of a reference on its line; blanks do not count. -/
def Reference.IsSeparated (t : Text) (r : Reference) : Prop := ∃ front, Separated t r.start front

/-- A module path stands before the separator, since what stands there ends like a word. -/
def Reference.HasModule (t : Text) (r : Reference) : Prop :=
  ∃ front, Separated t r.start front ∧ ∃ b, front.getLast? = some b ∧ isWord b = true

theorem IsTrailingPath.ne_nil_iff {front path : Text} (h : IsTrailingPath front path) :
    path ≠ [] ↔ ∃ b, front.getLast? = some b ∧ isWord b = true := by
  constructor
  · intro hne
    obtain ⟨before, rfl⟩ := h.suffix
    obtain ⟨b, rest, hreverse, hb⟩ := (h.modulePath.resolve_left hne).reverse.exists_cons
    have hpath : path = rest.reverse ++ [b] := by
      rw [← List.reverse_reverse path, hreverse, List.reverse_cons]
    exact ⟨b, by simp [hpath], hb⟩
  · rintro ⟨b, hlast, hb⟩ rfl
    obtain ⟨before, rfl⟩ := List.getLast?_eq_some_iff.1 hlast
    have hlength := h.longest [b] (.word (isWordText_singleton hb)) (List.suffix_append _ _)
    simp at hlength

/-- A reference is namespaced just if a module path stands before its separator. -/
theorem isNamespaced_iff (hr : referenceAt t offset = some r) :
    r.isNamespaced = true ↔ r.HasModule t := by
  obtain ⟨-, -, hdescribes⟩ := describes_of_referenceAt hr
  have hpath : r.isNamespaced = true ↔ r.namespacePath ≠ [] := by simp [Reference.isNamespaced]
  rw [hpath]
  constructor
  · intro hne
    obtain ⟨front, hfront⟩ : ∃ front, Separated t r.start front := by
      by_contra hnone
      exact hne (hdescribes.bare hnone)
    exact ⟨front, hfront, (hdescribes.qualified front hfront).ne_nil_iff.1 hne⟩
  · rintro ⟨front, hfront, hlast⟩
    exact (hdescribes.qualified front hfront).ne_nil_iff.2 hlast

theorem shape_eq_call_iff (hr : referenceAt t offset = some r) :
    r.shape = .call ↔ CallAfter t r.stop := by
  obtain ⟨-, -, hdescribes⟩ := describes_of_referenceAt hr
  refine ⟨fun hshape => ?_, hdescribes.call⟩
  by_contra hnone
  cases hshape.symm.trans (hdescribes.pointer hnone)

end Script

namespace Resolution
variable {t : Text} {offset : Int} {found : Resolution}

/-- What is shown about a resolved position is the same whatever the engine documents, to an editor
and on the command line. -/
structure IgnoresCatalog (found : Resolution) : Prop where
  editor : ∀ (settings : Server.Settings) (q : Server.Inquiry) (doc : Document) catalog,
    q.hover { settings with catalog := catalog } doc found = q.hover settings doc found
  command : ∀ (s : Command.Setup) catalog,
    Command.Setup.hover { s with catalog := catalog } (some found) = s.hover (some found)

/-- A result may be the engine's just if it is a call without a definition and without a module. -/
theorem mayBeBuiltin_iff (hr : Script.referenceAt t offset = some found.reference) :
    found.mayBeBuiltin = true ↔
      found.definitions = [] ∧ ¬ found.reference.HasModule t ∧
        Script.CallAfter t found.reference.stop := by
  rw [← Script.isNamespaced_iff hr, ← Script.shape_eq_call_iff hr]
  simp [mayBeBuiltin, and_assoc]

/-- The documentation of the engine is all that is shown about what may be the engine's. -/
theorem hoverText_of_mayBeBuiltin (h : found.mayBeBuiltin = true) (settings : Server.Settings)
    (q : Server.Inquiry) :
    q.hoverText settings found =
      (Catalog.lookup? settings.catalog found.reference.name).map Server.Inquiry.builtinText := by
  have hnone : found.definitions = [] := by
    simp only [mayBeBuiltin, Bool.and_eq_true, List.isEmpty_iff] at h
    exact h.1.1
  simp only [Server.Inquiry.hoverText, metadata?, hnone, h, if_true]

theorem ignoresCatalog_of_not_mayBeBuiltin (h : found.mayBeBuiltin = false) :
    found.IgnoresCatalog where
  editor settings q doc catalog := by
    simp only [Server.Inquiry.hover, Server.Inquiry.hoverText, h]
    rfl
  command s catalog := by
    simp only [Command.Setup.hover, h, Option.bind_eq_bind, Option.bind_some]
    rfl

/-- A catalog with an entry of the name and one without are told apart. -/
theorem not_ignoresCatalog_of_mayBeBuiltin (h : found.mayBeBuiltin = true) :
    ¬ found.IgnoresCatalog := by
  intro hignores
  let settings : Server.Settings :=
    { disk := ⟨.directory [], [slash]⟩, workspace := fun root => Workspace.make root [] [] 0 false }
  let q : Server.Inquiry := ⟨.hover, none, {}⟩
  have hsame := hignores.editor settings q ⟨[], []⟩ [{ name := found.reference.name }]
  rw [Server.Inquiry.hover, Server.Inquiry.hover, hoverText_of_mayBeBuiltin h,
    hoverText_of_mayBeBuiltin h] at hsame
  simp [Catalog.lookup?, settings] at hsame

theorem ignoresCatalog_iff : found.IgnoresCatalog ↔ found.mayBeBuiltin = false := by
  refine ⟨fun hignores => ?_, ignoresCatalog_of_not_mayBeBuiltin⟩
  rw [← Bool.not_eq_true]
  exact fun h => not_ignoresCatalog_of_mayBeBuiltin h hignores

end Resolution

namespace Command
variable {t : Text} {offset : Int} {r : Script.Reference}

/-- What the separator says of a reference. It is namespaced just if a module path stands before the
separator, which is the same as standing behind the separator just if the separator does not stand
alone. A lookup of a reference behind the separator is kept from the documentation of the engine just
if a module path stands there, or a definition is found, or nothing is called. -/
theorem namespaced_iff_hasModule (hr : Script.referenceAt t offset = some r) :
    (r.isNamespaced = true ↔ r.HasModule t) ∧
    ((r.isNamespaced = true ↔ r.IsSeparated t) ↔ (r.IsSeparated t → r.HasModule t)) ∧
    ∀ (resolver : Resolver) (isCancelled : Bool) (path : Text) (found : Resolution),
      resolver.lookup isCancelled ⟨path, t⟩ offset = .resolved (some found) → r.IsSeparated t →
      (found.mayBeBuiltin = false ∧ found.IgnoresCatalog ↔
        r.HasModule t ∨ found.definitions ≠ [] ∨ ¬ Script.CallAfter t r.stop) := by
  have hnamespaced := Script.isNamespaced_iff hr
  have hseparated : r.HasModule t → r.IsSeparated t := fun ⟨front, hfront, _⟩ => ⟨front, hfront⟩
  refine ⟨hnamespaced, ?_, fun resolver isCancelled path found hfound _ => ?_⟩
  · rw [hnamespaced]
    exact ⟨Iff.mpr, fun h => ⟨hseparated, h⟩⟩
  · obtain ⟨hreference, -⟩ := Resolver.lookup_eq_resolved_iff.1 hfound
    obtain rfl : r = found.reference := Option.some.inj (hr.symm.trans hreference)
    rw [Resolution.ignoresCatalog_iff, and_self_iff, ← Bool.not_eq_true,
      Resolution.mayBeBuiltin_iff hr]
    tauto

/-- A call behind a module path and a separator, with blanks on both sides of it. -/
theorem namespaced_iff_hasModule_spaced :
    let t : Text := "x = maps\\mp :: iprintln (1);"
    let r : Script.Reference := ⟨"iprintln", "maps\\mp", .call, 15, 23⟩
    Script.referenceAt t 20 = some r ∧ r.IsSeparated t ∧ r.HasModule t ∧ r.isNamespaced = true ∧
    alone.lookup false ⟨"/w/a.gsc", t⟩ 20 = .resolved (some ⟨r, []⟩) ∧
    Resolution.mayBeBuiltin ⟨r, []⟩ = false ∧ Resolution.IgnoresCatalog ⟨r, []⟩ := by
  intro t r
  have hr : Script.referenceAt t 20 = some r := by decide
  have hfound : alone.lookup false ⟨"/w/a.gsc", t⟩ 20 = .resolved (some ⟨r, []⟩) := by decide
  obtain ⟨hnamespaced, -, hlookup⟩ := namespaced_iff_hasModule hr
  have hyes : r.isNamespaced = true := by decide
  have hmodule := hnamespaced.1 hyes
  have hseparated : r.IsSeparated t := ⟨_, hmodule.choose_spec.1⟩
  obtain ⟨hbuiltin, hignores⟩ := (hlookup alone false _ _ hfound hseparated).2 (.inl hmodule)
  exact ⟨hr, hseparated, hmodule, hyes, hfound, hbuiltin, hignores⟩

/-- A call of a function of the engine behind a separator that stands alone is not namespaced, may be
the engine's, and is shown the documentation of the engine. -/
theorem namespaced_fails_loneSeparator :
    let doc : Document := ⟨"/w/a.gsc", "main()\x7b\n ::iprintln(1);\n\x7d\n"⟩
    let r : Script.Reference := ⟨"iprintln", [], .call, 11, 19⟩
    Script.referenceAt doc.text 11 = some r ∧ r.IsSeparated doc.text ∧ r.isNamespaced = false ∧
    alone.lookup false doc 11 = .resolved (some ⟨r, []⟩) ∧
    Resolution.mayBeBuiltin ⟨r, []⟩ = true ∧
    ∃ entry, Catalog.lookup? Catalog.Builtin.entries "iprintln" = some entry ∧
      ∀ (settings : Server.Settings) (q : Server.Inquiry),
        settings.catalog = Catalog.Builtin.entries →
        q.hoverText settings ⟨r, []⟩ = some (Server.Inquiry.builtinText entry) := by
  intro doc r
  have hseparated : r.IsSeparated doc.text := by
    have : ∃ front, Script.Separated doc.text 11 front := by decide
    exact this
  have hbuiltin : Resolution.mayBeBuiltin ⟨r, []⟩ = true := by decide
  obtain ⟨entry, hentry⟩ : ∃ entry,
      Catalog.lookup? Catalog.Builtin.entries "iprintln" = some entry :=
    Option.isSome_iff_exists.1 (by decide +kernel)
  refine ⟨by decide, hseparated, by decide, by decide, hbuiltin, entry, hentry, ?_⟩
  intro settings q hcatalog
  rw [Resolution.hoverText_of_mayBeBuiltin hbuiltin, hcatalog, hentry]
  rfl

end Command
end ScriptNav
