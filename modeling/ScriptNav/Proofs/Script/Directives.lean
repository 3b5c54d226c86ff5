import Mathlib.Data.List.Forall2
import ScriptNav.Proofs.Script.Includes
import ScriptNav.Proofs.Text.Find

/-! The directives of a text. A directive is a keyword, a module path and a semicolon with blanks
between them, and its only number sign is its first byte. So no two directives share a byte, a search
that goes on behind each directive misses none, and texts that begin with a number sign can be put
behind others without a directive coming up or getting lost between them. -/
namespace ScriptNav.Script

open Text

/-- An include directive. -/
structure Directive where
  before : Text
  path : Text
  after : Text
  blank_before : ∀ b ∈ before, isSpace b = true
  modulePath : ModulePath path
  blank_after : ∀ b ∈ after, isSpace b = true

namespace Directive

/-- What follows the keyword. -/
def operand (d : Directive) : Text := d.before ++ (d.path ++ (d.after ++ [semicolon]))

def text (d : Directive) : Text := includeKeyword ++ d.operand

end Directive

/-- A directive for the module `path` begins at an offset. -/
def DirectiveAt (t : Text) (o : Nat) (path : Text) : Prop :=
  ∃ d : Directive, d.path = path ∧ d.text <+: t.drop o

/-- The directives of a text, by the offsets where they begin, and the paths that they name. -/
structure AreDirectives (t : Text) (offsets : List Nat) (paths : List Text) : Prop where
  ordered : offsets.Pairwise (· < ·)
  complete : ∀ o, o ∈ offsets ↔ ∃ path, DirectiveAt t o path
  named : List.Forall₂ (DirectiveAt t) offsets paths

/-- A search from the beginning of a text that goes on behind each directive it finds. -/
inductive Searches : Text → List Text → Prop
  | nil : Searches [] []
  | found {rest : Text} {paths : List Text} (d : Directive) (more : Searches rest paths) :
      Searches (d.text ++ rest) (d.path :: paths)
  | skip {b : UInt8} {t : Text} {paths : List Text} (h : ∀ path, ¬ DirectiveAt (b :: t) 0 path)
      (more : Searches t paths) : Searches (b :: t) paths

section Bytes
variable {path rest : Text}

/-- A path is read to its end, if what follows it does not go on a path. -/
theorem ModulePath.pathRun_append (h : ModulePath path)
    (hrest : ∀ b ∈ rest.head?, isWord b = false ∧ isSeparator b = false) :
    pathRun (path ++ rest) = path := by
  have hrun := pathRun_prefix (path ++ rest)
  have hpath := List.prefix_append path rest
  obtain ⟨more, hmore⟩ := List.prefix_of_prefix_length_le hpath hrun (pathRun_longest h hpath)
  cases more with
  | nil => rw [← hmore, List.append_nil]
  | cons b more =>
    have hmodule := modulePath_pathRun (path ++ rest)
    rw [← hmore] at hrun hmodule
    obtain ⟨tail, rfl⟩ := (List.prefix_append_right_inj path).1 hrun
    obtain ⟨hword, hseparator⟩ := hrest b rfl
    rcases (hmodule.resolve_left (by simp)).isWord_or_isSeparator b (by simp) with hb | hb
    · exact absurd hb (by simp [hword])
    · exact absurd hb (by simp [hseparator])

end Bytes

section Reading
variable {t path : Text}

theorem Directive.directive?_operand (d : Directive) (rest : Text) :
    directive? (d.operand ++ rest) = some d.path := by
  obtain ⟨b, more, hpath, hb⟩ := d.modulePath.exists_cons
  have hbefore : IsRun isSpace d.before (d.path ++ (d.after ++ semicolon :: rest)) := by
    refine ⟨d.blank_before, fun c hc => ?_⟩
    rw [hpath] at hc
    obtain rfl : b = c := Option.some.inj hc
    by_contra hspace
    rw [(isWord_isSeparator_of_isSpace (by simpa using hspace)).1] at hb
    cases hb
  have hafter : IsRun isSpace d.after (semicolon :: rest) :=
    ⟨d.blank_after, by rintro _ ⟨⟩; decide⟩
  have hend : ∀ c ∈ (d.after ++ semicolon :: rest).head?,
      isWord c = false ∧ isSeparator c = false := by
    cases hd : d.after with
    | nil =>
      rintro _ ⟨⟩
      decide
    | cons c after =>
      rintro _ ⟨⟩
      exact isWord_isSeparator_of_isSpace (d.blank_after c (by simp [hd]))
  have htext : d.operand ++ rest = d.before ++ (d.path ++ (d.after ++ semicolon :: rest)) := by
    simp [operand]
  rw [directive?, htext, hbefore.dropWhile_eq, leadingPath, d.modulePath.pathRun_append hend]
  simp only [List.drop_left, hafter.dropWhile_eq]
  rw [if_pos]
  simp [hpath, startsWith]

/-- The path of a directive is read if and only if the rest of one stands at the beginning. -/
theorem directive?_eq_some_iff :
    directive? t = some path ↔ ∃ d : Directive, d.path = path ∧ d.operand <+: t := by
  constructor
  · intro h
    have hmodule := modulePath_of_directive h
    simp only [directive?, leadingPath, Option.ite_none_right_eq_some, Option.some.injEq,
      Bool.and_eq_true] at h
    obtain ⟨⟨-, hstart⟩, rfl⟩ := h
    obtain ⟨before, line, rfl, hbefore⟩ := exists_isRun isSpace t
    rw [hbefore.dropWhile_eq] at hstart hmodule ⊢
    obtain ⟨rest, hline⟩ := pathRun_prefix line
    have hdrop := congrArg (List.drop (pathRun line).length) hline
    rw [List.drop_left] at hdrop
    rw [← hdrop] at hstart
    obtain ⟨after, tail, rfl, hafter⟩ := exists_isRun isSpace rest
    rw [hafter.dropWhile_eq, startsWith, List.isPrefixOf_iff_prefix] at hstart
    obtain ⟨tail, rfl⟩ := hstart
    refine ⟨⟨before, pathRun line, after, hbefore.all, hmodule, hafter.all⟩, rfl, tail, ?_⟩
    simpa [Directive.operand] using hline
  · rintro ⟨d, rfl, rest, rfl⟩
    exact d.directive?_operand rest

/-- The path of the directive that begins a text. -/
def opening? (t : Text) : Option Text := (after? includeKeyword t).bind directive?

theorem opening?_eq_some_iff :
    opening? t = some path ↔ ∃ d : Directive, d.path = path ∧ d.text <+: t := by
  rw [opening?, Option.bind_eq_some_iff]
  simp only [after?_eq_some_iff, directive?_eq_some_iff]
  constructor
  · rintro ⟨_, rfl, d, hpath, hprefix⟩
    exact ⟨d, hpath, (List.prefix_append_right_inj _).2 hprefix⟩
  · rintro ⟨d, hpath, rest, rfl⟩
    exact ⟨d.operand ++ rest, List.append_assoc _ _ _, d, hpath, List.prefix_append _ _⟩

theorem directiveAt_iff {o : Nat} : DirectiveAt t o path ↔ opening? (t.drop o) = some path :=
  opening?_eq_some_iff.symm

end Reading

section Signs
variable {t u : Text}

/-- The first byte of a directive is its only number sign. -/
theorem Directive.text_eq_cons (d : Directive) :
    ∃ rest, d.text = hashSign :: rest ∧ hashSign ∉ rest := by
  refine ⟨ofString "include" ++ d.operand, rfl, ?_⟩
  have hblank {blanks : Text} (h : ∀ b ∈ blanks, isSpace b = true) : hashSign ∉ blanks :=
    fun hmem => absurd (h _ hmem) (by decide)
  have hpath : hashSign ∉ d.path := fun hmem =>
    absurd (d.modulePath.isWord_or_isSeparator _ hmem) (by decide)
  simp only [operand, List.mem_append, not_or]
  exact ⟨by decide, hblank d.blank_before, hpath, hblank d.blank_after, by decide⟩

theorem opening?_of_ne {b : UInt8} (hb : b ≠ hashSign) (t : Text) : opening? (b :: t) = none := by
  rw [Option.eq_none_iff_forall_ne_some]
  intro path h
  obtain ⟨d, -, rest, hrest⟩ := opening?_eq_some_iff.1 h
  obtain ⟨more, htext, -⟩ := d.text_eq_cons
  rw [htext] at hrest
  exact hb (List.cons.inj hrest).1.symm

/-- A directive ends before the next number sign, so what follows that does not matter. -/
theorem opening?_append {b : UInt8} (hu : u.head? = some hashSign) (t : Text) :
    opening? (b :: (t ++ u)) = opening? (b :: t) := by
  refine Option.ext fun path => ?_
  rw [opening?_eq_some_iff, opening?_eq_some_iff]
  refine exists_congr fun d => and_congr_right fun _ => prefix_cons_append_iff fun c hc => ?_
  obtain ⟨rest, htext, hrest⟩ := d.text_eq_cons
  rw [hu] at hc
  cases hc
  rwa [htext]

theorem includes_go (found : List Text) (t : Text) :
    includes.go found t = found.reverse ++ includes t := by
  induction t generalizing found with
  | nil => simp [includes, includes.go]
  | cons b t ih =>
    rw [includes, includes.go, includes.go]
    cases (after? includeKeyword (b :: t)).bind directive? with
    | none => exact ih found
    | some path =>
      dsimp only
      rw [ih, ih [path]]
      simp

/-- One step of the search: the directive that begins here, and those that begin later. -/
theorem includes_cons (b : UInt8) (t : Text) :
    includes (b :: t) = (opening? (b :: t)).toList ++ includes t := by
  rw [includes, includes.go, ← opening?]
  cases opening? (b :: t) with
  | none => rfl
  | some path => exact includes_go [path] t

theorem includes_append_of_notMem (h : hashSign ∉ t) (u : Text) : includes (t ++ u) = includes u := by
  induction t with
  | nil => rfl
  | cons b t ih =>
    rw [List.mem_cons, not_or] at h
    rw [List.cons_append, includes_cons, opening?_of_ne (Ne.symm h.1), ih h.2]
    rfl

/-- No directive ends behind one that it begins in. -/
theorem includes_directive (d : Directive) (t : Text) :
    includes (d.text ++ t) = d.path :: includes t := by
  obtain ⟨rest, htext, hrest⟩ := d.text_eq_cons
  have hopening : opening? (d.text ++ t) = some d.path :=
    opening?_eq_some_iff.2 ⟨d, rfl, List.prefix_append _ _⟩
  rw [htext, List.cons_append] at hopening ⊢
  rw [includes_cons, hopening, includes_append_of_notMem hrest]
  rfl

theorem includes_append (hu : u.head? = some hashSign) (t : Text) :
    includes (t ++ u) = includes t ++ includes u := by
  induction t with
  | nil => rfl
  | cons b t ih =>
    rw [List.cons_append, includes_cons, includes_cons, opening?_append hu, ih, List.append_assoc]

theorem includes_interleaved {filler : Text} (h : hashSign ∉ filler)
    {items : List (Directive × Text)} (hitems : ∀ item ∈ items, hashSign ∉ item.2) :
    includes (filler ++ items.flatMap fun item => item.1.text ++ item.2) =
      items.map (·.1.path) := by
  rw [includes_append_of_notMem h]
  induction items with
  | nil => rfl
  | cons item items ih =>
    rw [List.forall_mem_cons] at hitems
    rw [List.flatMap_cons, List.append_assoc, includes_directive,
      includes_append_of_notMem hitems.1, ih hitems.2, List.map_cons]

end Signs

section Search
variable {t : Text}

theorem AreDirectives.cons {offsets : List Nat} {paths : List Text}
    (h : AreDirectives t offsets paths) (b : UInt8) :
    ∃ offsets', AreDirectives (b :: t) offsets' ((opening? (b :: t)).toList ++ paths) := by
  have hordered : (offsets.map (· + 1)).Pairwise (· < ·) :=
    List.pairwise_map.2 (h.ordered.imp Nat.succ_lt_succ)
  have hnamed : List.Forall₂ (DirectiveAt (b :: t)) (offsets.map (· + 1)) paths :=
    List.forall₂_map_left_iff.2 h.named
  have hlater (o : Nat) : o + 1 ∈ offsets.map (· + 1) ↔
      ∃ path, DirectiveAt (b :: t) (o + 1) path := by
    rw [List.mem_map_of_injective Nat.succ_injective]
    exact h.complete o
  cases hopening : opening? (b :: t) with
  | none =>
    refine ⟨offsets.map (· + 1), hordered, fun o => ?_, hnamed⟩
    cases o with
    | zero => simp [directiveAt_iff, hopening]
    | succ o => exact hlater o
  | some path =>
    refine ⟨0 :: offsets.map (· + 1), ?_, fun o => ?_, .cons (directiveAt_iff.2 hopening) hnamed⟩
    · exact List.pairwise_cons.2 ⟨by simp, hordered⟩
    · cases o with
      | zero => exact iff_of_true List.mem_cons_self ⟨path, directiveAt_iff.2 hopening⟩
      | succ o => rw [List.mem_cons, or_iff_right (Nat.succ_ne_zero o), hlater]

/-- The directives of a text are found by their offsets, in order. -/
theorem exists_areDirectives (t : Text) : ∃ offsets, AreDirectives t offsets (includes t) := by
  induction t with
  | nil =>
    refine ⟨[], .nil, fun o => ?_, .nil⟩
    rw [iff_false_left List.not_mem_nil]
    rintro ⟨path, h⟩
    rw [directiveAt_iff, List.drop_nil] at h
    cases h
  | cons b t ih =>
    obtain ⟨offsets, h⟩ := ih
    rw [includes_cons]
    exact h.cons b

theorem searches_includes (t : Text) : Searches t (includes t) := by
  induction hn : t.length using Nat.strongRecOn generalizing t with
  | ind n ih =>
    cases t with
    | nil => exact .nil
    | cons b t =>
      rw [List.length_cons] at hn
      cases hopening : opening? (b :: t) with
      | none =>
        rw [includes_cons, hopening]
        refine .skip (fun path h => ?_) (ih t.length (by omega) t rfl)
        rw [directiveAt_iff, List.drop_zero, hopening] at h
        cases h
      | some path =>
        obtain ⟨d, rfl, rest, hrest⟩ := opening?_eq_some_iff.1 hopening
        have hlength := congrArg List.length hrest
        obtain ⟨more, htext, -⟩ := d.text_eq_cons
        rw [List.length_append, htext, List.length_cons, List.length_cons] at hlength
        rw [← hrest, includes_directive]
        exact .found d (ih rest.length (by omega) rest rfl)

/-- A search that goes on behind each directive misses none, since none begins inside another. -/
theorem searches_iff {paths : List Text} : Searches t paths ↔ paths = includes t := by
  refine ⟨fun h => ?_, fun h => h ▸ searches_includes t⟩
  induction h with
  | nil => rfl
  | found d _ ih => rw [includes_directive, ih]
  | @skip b t paths h _ ih =>
    have hopening : opening? (b :: t) = none :=
      Option.eq_none_iff_forall_ne_some.2 fun path hpath => h path (directiveAt_iff.2 hpath)
    rw [includes_cons, hopening, ih]
    rfl

theorem DirectiveAt.path_eq {o : Nat} {p q : Text} (hp : DirectiveAt t o p)
    (hq : DirectiveAt t o q) : p = q :=
  Option.some.inj ((directiveAt_iff.1 hp).symm.trans (directiveAt_iff.1 hq))

/-- What a text includes is told by its directives, all of them, in their order: each has one path;
a search that goes on behind each directive finds the same; a text that begins with a number sign
adds its own directives to those of the text before it; and directives between texts without number
signs are told one by one. -/
theorem includes_finds_directives :
    (∀ t, ∃ offsets, AreDirectives t offsets (includes t)) ∧
    (∀ t o p q, DirectiveAt t o p → DirectiveAt t o q → p = q) ∧
    (∀ t paths, Searches t paths ↔ paths = includes t) ∧
    (∀ t u : Text, u.head? = some hashSign → includes (t ++ u) = includes t ++ includes u) ∧
    ∀ (filler : Text) (items : List (Directive × Text)),
      hashSign ∉ filler → (∀ item ∈ items, hashSign ∉ item.2) →
      includes (filler ++ items.flatMap fun item => item.1.text ++ item.2) =
        items.map (·.1.path) := by
  refine ⟨exists_areDirectives, fun _ _ _ _ hp hq => hp.path_eq hq, fun _ _ => searches_iff, ?_, ?_⟩
  · exact fun t u hu => includes_append hu t
  · exact fun filler items h hitems => includes_interleaved h hitems

/-- A directive that is glued to its keyword, told twice, behind one that is cut off. -/
theorem includes_finds_directives_glued :
    let path := ofString "a\\b"
    let modulePath : ModulePath path :=
      .join (isWordText_singleton (by decide)) (by decide) (.word (isWordText_singleton (by decide)))
    let d : Directive :=
      ⟨[], path, ofString " ", List.forall_mem_nil _, modulePath, List.forall_mem_singleton.2 rfl⟩
    let items := [(d, ofString "/;\n"), (d, [])]
    let told := items.flatMap fun item => item.1.text ++ item.2
    told.head? = some hashSign ∧ (∀ q, DirectiveAt told 0 q → q = path) ∧
    includes (ofString "#include x\\" ++ told) = [path, path] := by
  intro path modulePath d items told
  have htold : told.head? = some hashSign := rfl
  refine ⟨htold, fun q hq => ?_, ?_⟩
  · exact includes_finds_directives.2.1 told 0 q path hq ⟨d, rfl, by decide⟩
  · have hitems := includes_finds_directives.2.2.2.2 [] items (by decide) (by decide)
    have hcut : includes (ofString "#include x\\") = [] := by decide
    rw [includes_finds_directives.2.2.2.1 _ told htold, hcut]
    exact hitems

end Search
end ScriptNav.Script
