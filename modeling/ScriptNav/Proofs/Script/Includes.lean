import ScriptNav.Proofs.Script.ModulePathRun
import ScriptNav.Script.Include

/-! Include directives name modules by paths of words, so that the file which a module denotes is
named by a relative path. -/
namespace ScriptNav.Script

open Text

theorem modulePath_of_directive {t path : Text} (h : directive? t = some path) :
    ModulePath path := by
  simp only [directive?, leadingPath, Option.ite_none_right_eq_some, Option.some.injEq,
    Bool.and_eq_true] at h
  obtain ⟨⟨hne, -⟩, rfl⟩ := h
  exact (modulePath_pathRun _).resolve_left (by simpa using hne)

theorem modulePath_of_mem_go {t path : Text} (found : List Text)
    (hfound : ∀ q ∈ found, ModulePath q) (h : path ∈ includes.go found t) : ModulePath path := by
  induction t generalizing found with
  | nil => exact hfound path (List.mem_reverse.1 h)
  | cons b rest ih =>
    rw [includes.go] at h
    split at h
    · next q hq =>
      obtain ⟨after, -, hdirective⟩ := Option.bind_eq_some_iff.1 hq
      refine ih _ (fun p hp => ?_) h
      obtain rfl | hp := List.mem_cons.1 hp
      · exact modulePath_of_directive hdirective
      · exact hfound p hp
    · exact ih _ hfound h

/-- What a text includes is named by module paths. -/
theorem modulePath_of_mem_includes {t path : Text} (h : path ∈ includes t) : ModulePath path :=
  modulePath_of_mem_go [] (by simp) h

/-- The file of a module has a name that begins with a word. -/
theorem ModulePath.moduleFile_eq_cons {path : Text} (h : ModulePath path) (extension : Text) :
    ∃ b rest, moduleFile path extension = b :: rest ∧ isWord b = true := by
  obtain ⟨b, rest, rfl, hb⟩ := h.exists_cons
  have hsep := isSeparator_of_isWord hb
  obtain ⟨piece, pieces, hsplit⟩ : ∃ piece pieces, splitBy isSeparator (b :: rest) =
      (b :: piece) :: pieces := by
    rw [splitBy, List.foldr_cons, hsep, ← splitBy]
    cases splitBy isSeparator rest with
    | nil => exact ⟨[], [], rfl⟩
    | cons piece pieces => exact ⟨piece, pieces, rfl⟩
  rw [moduleFile, segments, hsplit, List.filter_cons_of_pos (by rfl)]
  cases pieces.filter (!·.isEmpty) with
  | nil => exact ⟨b, piece ++ extension, by simp [Text.join], hb⟩
  | cons next pieces => exact ⟨b, _, by rw [Text.join, List.intercalate_cons_cons]; rfl, hb⟩

end ScriptNav.Script
