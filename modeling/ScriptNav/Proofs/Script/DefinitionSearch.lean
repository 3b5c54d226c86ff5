import Mathlib.Data.List.Infix
import ScriptNav.Proofs.Script.Filler
import ScriptNav.Proofs.Text.Cut
import ScriptNav.Proofs.Text.Utf8

/-! The search for a definition against the grammar of definitions. Comments and string literals in
front of a definition are passed over as wholes, at every other character a definition phrase ends the
search, and no phrase inside a comment or a literal counts. The grammar is one of characters: in UTF-8
a name stands where its bytes stand, elsewhere a byte that belongs to no character is a replacement
character, and bytes that are no characters are the name of nothing. -/
namespace ScriptNav.Script

open Text

/-- What may stand between the quotes of a string literal. -/
inductive LiteralBody : Text → Prop
  | nil : LiteralBody []
  | plain {b : UInt8} {rest : Text} (hq : b ≠ quote) (hs : b ≠ backslash) (hn : b ≠ newline)
      (more : LiteralBody rest) : LiteralBody (b :: rest)
  | escape {b : UInt8} {rest : Text} (hn : b ≠ newline) (more : LiteralBody rest) :
      LiteralBody (backslash :: b :: rest)

/-- A comment or string literal in front of the text `rest`. A line comment goes on to the end of its
line, and a block comment to the first mark that ends it. -/
inductive SkipToken : Text → Text → Prop
  | line {body rest : Text} (h : newline ∉ body) (hrest : rest = [] ∨ rest.head? = some newline) :
      SkipToken (slash :: slash :: body) rest
  | block {body rest : Text} (h : ¬ [asterisk, slash] <:+: body ++ [asterisk]) :
      SkipToken (slash :: asterisk :: (body ++ [asterisk, slash])) rest
  | literal {body rest : Text} (h : LiteralBody body) : SkipToken (quote :: (body ++ [quote])) rest

/-- A text consists of the characters of a name. -/
def ReadsAs (name u : Text) : Prop := Utf8.IsUtf8 name ∧ Utf8.codes u = Utf8.codes name

/-- In UTF-8 a name is spelled by itself alone, and without a replacement character it is spelled by
itself alone in any text. -/
theorem readsAs_iff_eq {name u : Text} (hname : Utf8.IsUtf8 name)
    (h : Utf8.IsUtf8 u ∨ Utf8.replacement ∉ Utf8.codes name) : ReadsAs name u ↔ u = name := by
  constructor
  · rintro ⟨-, hcodes⟩
    have hu : Utf8.IsUtf8 u := h.elim id fun h => Utf8.isUtf8_of_replacement (hcodes ▸ h)
    exact Utf8.eq_of_codes_eq hu hname hcodes
  · rintro rfl
    exact ⟨hname, rfl⟩

/-- A text begins with a definition that has the given parameters. Its name is any of the texts that
are `named`. -/
def Defines (named : Text → Prop) (params t : Text) : Prop :=
  ∃ name gap trail rest,
    t = name ++ (gap ++ openParen :: (params ++ closeParen :: (trail ++ openBrace :: rest))) ∧
    named name ∧ (∀ b ∈ gap, isSpace b = true) ∧ Filler isParam params ∧ Filler isSpace trail

/-- Whether a text ends in a byte of a word. -/
def endsInWord (t : Text) : Bool := (t.getLast?.map isWord).getD false

/-- Whether a text begins with a byte of a word. -/
def beginsWithWord (t : Text) : Bool := (t.head?.map isWord).getD false

/-- A comment or string literal stands from `p` to `q`. -/
def SkipsAt (t : Text) (p q : Nat) : Prop :=
  ∃ token rest, t.drop p = token ++ rest ∧ SkipToken token rest ∧ q = p + token.length

/-- A definition phrase stands at `p`, with a word boundary before it. -/
def DefinesAt (t : Text) (named : Text → Prop) (p : Nat) (params : Text) : Prop :=
  endsInWord (t.take p) ≠ beginsWithWord (t.drop p) ∧ Defines named params (t.drop p)

/-- The scan that is at `p` stops at a definition of one of the names. -/
inductive ScanStops (t : Text) (named : Text → Prop) : Nat → Nat → Prop
  | skip {p q stop : Nat} (h : SkipsAt t p q) (more : ScanStops t named q stop) :
      ScanStops t named p stop
  | found {p : Nat} {params : Text} (hs : ∀ q, ¬ SkipsAt t p q) (h : DefinesAt t named p params) :
      ScanStops t named p p
  | advance {p stop : Nat} {b : UInt8} {rest : Text} (hp : t.drop p = b :: rest)
      (hs : ∀ q, ¬ SkipsAt t p q) (hd : ∀ params, ¬ DefinesAt t named p params)
      (more : ScanStops t named (p + (Utf8.decode b rest).2) stop) : ScanStops t named p stop

section Tokens

/-- A line comment takes in the rest of its line. -/
theorem isRun_line {body rest : Text} :
    IsRun (· != newline) body rest ↔ SkipToken (slash :: slash :: body) rest := by
  constructor
  · intro h
    refine .line (fun hn => by simpa using h.all _ hn) ?_
    cases rest with
    | nil => exact .inl rfl
    | cons b rest => exact .inr (by simpa using h.stop b rfl)
  · rintro (⟨h, hrest⟩ | _ | _)
    refine ⟨fun b hb => bne_iff_ne.2 fun hn => h (hn ▸ hb), fun b hb => ?_⟩
    rcases hrest with rfl | hrest
    · cases hb
    · simpa [hb] using hrest

theorem not_ending_cons {b : UInt8} {body : Text} (h : ¬ [asterisk, slash] <:+: body ++ [asterisk])
    (hb : ¬ (b = asterisk ∧ body.head? = some slash)) :
    ¬ [asterisk, slash] <:+: (b :: body) ++ [asterisk] := by
  rw [List.cons_append, List.infix_cons_iff]
  rintro (hp | hi)
  · rw [List.cons_prefix_cons] at hp
    cases body with
    | nil => exact absurd hp.2 (by decide)
    | cons c body =>
      rw [List.cons_append, List.cons_prefix_cons] at hp
      exact hb ⟨hp.1.symm, by rw [← hp.2.1]; rfl⟩
  · exact h hi

theorem blockLength?_eq_some_iff {length n : Nat} {t : Text} :
    blockLength? length t = some n ↔ ∃ body rest, t = body ++ asterisk :: slash :: rest ∧
      ¬ [asterisk, slash] <:+: body ++ [asterisk] ∧ n = length + body.length + 2 := by
  fun_induction blockLength? length t with
  | case1 length b c t h =>
    simp only [Bool.and_eq_true, beq_iff_eq] at h
    obtain ⟨rfl, rfl⟩ := h
    constructor
    · rintro ⟨⟩
      exact ⟨[], t, rfl, by decide, rfl⟩
    · rintro ⟨body, rest, ht, hbody, rfl⟩
      cases body with
      | nil => rfl
      | cons x body =>
        exfalso
        apply hbody
        obtain ⟨rfl, ht₁⟩ := List.cons.inj ht
        cases body with
        | nil => exact absurd (List.cons.inj ht₁).1 (by decide)
        | cons y body =>
          obtain ⟨rfl, -⟩ := List.cons.inj ht₁
          exact ⟨[], body ++ [asterisk], rfl⟩
  | case2 length b c t h ih =>
    simp only [Bool.and_eq_true, beq_iff_eq] at h
    rw [ih]
    constructor
    · rintro ⟨body, rest, ht, hbody, rfl⟩
      refine ⟨b :: body, rest, by rw [ht]; rfl, not_ending_cons hbody ?_, by simp; omega⟩
      rintro ⟨rfl, hc⟩
      obtain ⟨more, rfl⟩ := List.head?_eq_some_iff.1 hc
      exact h ⟨rfl, (List.cons.inj ht).1⟩
    · rintro ⟨body, rest, ht, hbody, rfl⟩
      cases body with
      | nil =>
        obtain ⟨rfl, ht₁⟩ := List.cons.inj ht
        exact absurd ⟨rfl, (List.cons.inj ht₁).1⟩ h
      | cons x body =>
        obtain ⟨rfl, ht₁⟩ := List.cons.inj ht
        refine ⟨body, rest, ht₁, fun hi => hbody ?_, by simp; omega⟩
        exact List.infix_cons hi
  | case3 length t h =>
    simp only [reduceCtorEq, false_iff]
    rintro ⟨body, rest, rfl, -, -⟩
    cases body with
    | nil => exact h _ _ _ rfl
    | cons x body => cases body <;> exact h _ _ _ rfl

theorem literalLength?_eq_some_iff {length n : Nat} {t : Text} :
    literalLength? length t = some n ↔ ∃ body rest, t = body ++ quote :: rest ∧
      LiteralBody body ∧ n = length + body.length + 1 := by
  constructor
  · intro h
    fun_induction literalLength? length t with
    | case1 | case3 | case4 | case5 => cases h
    | case2 length b t hb =>
      cases h
      exact ⟨[], t, by rw [beq_iff_eq.1 hb]; rfl, .nil, rfl⟩
    | case6 length b hq hn hs c more hc ih =>
      obtain ⟨body, rest, rfl, hbody, rfl⟩ := ih h
      rw [beq_iff_eq] at hs hc
      exact ⟨b :: c :: body, rest, rfl, hs ▸ .escape hc hbody, by simp; omega⟩
    | case7 length b t hq hn hs ih =>
      obtain ⟨body, rest, rfl, hbody, rfl⟩ := ih h
      rw [beq_iff_eq] at hq hn hs
      exact ⟨b :: body, rest, rfl, .plain hq hs hn hbody, by simp; omega⟩
  · rintro ⟨body, rest, rfl, hbody, rfl⟩
    induction hbody generalizing length with
    | nil =>
      rw [literalLength?.eq_def]
      simp
    | @plain b body hq hs hn _ ih =>
      have hb : literalLength? length (b :: (body ++ quote :: rest)) =
          literalLength? (length + 1) (body ++ quote :: rest) := by
        rw [literalLength?.eq_def]
        simp [hq, hs, hn]
      rw [List.cons_append, hb, ih, List.length_cons]
      congr 1
      omega
    | @escape b body hn _ ih =>
      have hb : literalLength? length (backslash :: b :: (body ++ quote :: rest)) =
          literalLength? (length + 2) (body ++ quote :: rest) := by
        rw [literalLength?.eq_def]
        simp [hn, show backslash ≠ quote by decide, show backslash ≠ newline by decide]
      rw [List.cons_append, List.cons_append, hb, ih, List.length_cons, List.length_cons]
      congr 1
      omega

/-- The length of a token is found if and only if a token is there. -/
theorem skippedLength?_eq_some_iff {n : Nat} {t : Text} :
    skippedLength? t = some n ↔
      ∃ token rest, t = token ++ rest ∧ SkipToken token rest ∧ n = token.length := by
  constructor
  · intro h
    match t with
    | [] | [_] => cases h
    | b :: c :: t =>
      simp only [skippedLength?] at h
      split_ifs at h with hl hb hq
      · simp only [Bool.and_eq_true, beq_iff_eq] at hl
        obtain ⟨rfl, rfl⟩ := hl
        cases h
        obtain ⟨body, rest, rfl, hrun⟩ := exists_isRun (· != newline) t
        rw [hrun.takeWhile_eq]
        exact ⟨slash :: slash :: body, rest, rfl, isRun_line.1 hrun, by simp; omega⟩
      · simp only [Bool.and_eq_true, beq_iff_eq] at hb
        obtain ⟨rfl, rfl⟩ := hb
        obtain ⟨body, rest, rfl, hbody, rfl⟩ := blockLength?_eq_some_iff.1 h
        exact ⟨_, rest, by simp, .block hbody, by simp; omega⟩
      · rw [beq_iff_eq] at hq
        subst hq
        obtain ⟨body, rest, ht, hbody, rfl⟩ := literalLength?_eq_some_iff.1 h
        exact ⟨_, rest, by simp [ht], .literal hbody, by simp; omega⟩
  · rintro ⟨_, rest, rfl, htoken, rfl⟩
    cases htoken with
    | @line body _ hbody hrest =>
      have htake := (isRun_line.2 (.line hbody hrest)).takeWhile_eq
      simp [skippedLength?, htake]
      omega
    | @block body _ hbody =>
      have h : blockLength? 2 (body ++ asterisk :: slash :: rest) = some (2 + body.length + 2) :=
        blockLength?_eq_some_iff.2 ⟨body, rest, rfl, hbody, rfl⟩
      simp [skippedLength?, h, show asterisk ≠ slash by decide]
      omega
    | @literal body _ hbody =>
      have h : literalLength? 1 (body ++ quote :: rest) = some (1 + body.length + 1) :=
        literalLength?_eq_some_iff.2 ⟨body, rest, rfl, hbody, rfl⟩
      obtain ⟨c, more, hc⟩ : ∃ c more, body ++ quote :: rest = c :: more := by
        cases body <;> simp
      have happ : quote :: (body ++ [quote]) ++ rest = quote :: c :: more := by simp [← hc]
      rw [happ, skippedLength?, ← hc, h]
      simp [show quote ≠ slash by decide]
      omega

end Tokens

section Phrases

/-- The byte behind a name is no part of a character of the name. -/
theorem isContinuation_gap {gap more : Text} (hgap : ∀ b ∈ gap, isSpace b = true) :
    ∀ b ∈ (gap ++ openParen :: more).head?, Utf8.isContinuation b = false := by
  cases gap with
  | nil =>
    rintro _ ⟨⟩
    decide
  | cons c gap =>
    rintro _ ⟨⟩
    have hc := hgap c List.mem_cons_self
    simp only [isSpace, Bool.or_eq_true, beq_iff_eq] at hc
    rcases hc with (((rfl | rfl) | rfl) | rfl) | rfl <;> decide

/-- The blanks before the parenthesis that opens the parameters. -/
theorem exists_gap {rest more : Text} (h : rest.dropWhile isSpace = openParen :: more) :
    ∃ gap, rest = gap ++ openParen :: more ∧ ∀ b ∈ gap, isSpace b = true := by
  refine ⟨rest.takeWhile isSpace, ?_, (isRun_while isSpace rest).all⟩
  rw [← h, List.takeWhile_append_dropWhile]

/-- A definition phrase by what follows its name: blanks, a parenthesis, and parameters that are
closed. -/
theorem defines_iff {name params t : Text} (hname : Utf8.IsUtf8 name) :
    Defines (ReadsAs name) params t ↔
      ∃ rest closing, Utf8.afterCodes? (Utf8.codes name) t = some rest ∧
        rest.dropWhile isSpace = openParen :: (params ++ closing) ∧ Filler isParam params ∧
          ClosesParams closing closing := by
  constructor
  · rintro ⟨spelled, gap, trail, more, rfl, hreads, hgap, hparams, htrail⟩
    have hrun : IsRun isSpace gap
        (openParen :: (params ++ closeParen :: (trail ++ openBrace :: more))) :=
      ⟨hgap, fun b hb => by cases hb; decide⟩
    refine ⟨_, _, ?_, hrun.dropWhile_eq, hparams, rfl, _, rfl, trail, _, rfl, htrail, more, rfl⟩
    exact (Utf8.afterCodes?_eq_some_iff (isContinuation_gap hgap)).2 ⟨spelled, rfl, hreads.2⟩
  · rintro ⟨rest, _, hafter, hrest, hparams, -, _, rfl, trail, _, rfl, htrail, more, rfl⟩
    obtain ⟨gap, rfl, hgap⟩ := exists_gap hrest
    obtain ⟨spelled, rfl, hspelled⟩ :=
      (Utf8.afterCodes?_eq_some_iff (isContinuation_gap hgap)).1 hafter
    exact ⟨spelled, gap, trail, more, rfl, ⟨hname, hspelled⟩, hgap, hparams, htrail⟩

/-- In UTF-8 a definition of a name has the name byte by byte, and so it has in any text if the name
has no replacement character. -/
theorem defines_readsAs_iff {name params t : Text} (hname : Utf8.IsUtf8 name)
    (h : Utf8.IsUtf8 t ∨ Utf8.replacement ∉ Utf8.codes name) :
    Defines (ReadsAs name) params t ↔ Defines (· = name) params t := by
  constructor
  · rintro ⟨spelled, gap, trail, rest, rfl, hreads, hgap, hfillers⟩
    have hspelled : Utf8.IsUtf8 spelled ∨ Utf8.replacement ∉ Utf8.codes name := by
      refine h.imp_left fun ht => ?_
      have htake := (ht.split (Utf8.isBoundary_append (isContinuation_gap hgap) spelled)).1
      rwa [List.take_left] at htake
    exact ⟨spelled, gap, trail, rest, rfl, (readsAs_iff_eq hname hspelled).1 hreads, hgap, hfillers⟩
  · rintro ⟨_, gap, trail, rest, rfl, rfl, hfillers⟩
    exact ⟨_, gap, trail, rest, rfl, ⟨hname, rfl⟩, hfillers⟩

theorem prospects_head?_params (t : Text) :
    ((prospects t).head?.bind fun row => row.params.code) = (prospectAt t).params.code := by
  cases t with
  | nil => rfl
  | cons b t => rw [prospectAt_cons, prospects_cons]; rfl

theorem paramsOf?_eq {name : List Nat} {t rest : Text}
    (hafter : Utf8.afterCodes? name t = some rest) (inWord : Bool) (known : List Prospect) :
    paramsOf? name inWord t known =
      if inWord == beginsWithWord t then none
      else (after? [openParen] (rest.dropWhile isSpace)).bind fun list =>
        ((known.drop (t.length - rest.length + (rest.takeWhile isSpace).length + 1)).head?.bind
          fun row => row.params.code).map fun closing =>
            list.take (list.length - closing.length) := by
  simp only [paramsOf?, hafter, drop_length_takeWhile, Option.bind_eq_bind, Option.bind_some,
    Option.map_eq_bind, Option.bind_assoc, Option.pure_def, beginsWithWord]
  rfl

/-- The parameters that are read at a point are those of a definition there, and are read whenever
there is one. -/
theorem picks_paramsOf? {name : Text} (hname : Utf8.IsUtf8 name) (inWord : Bool) (t : Text) :
    Picks (paramsOf? (Utf8.codes name) inWord t (prospects t))
      (fun params => inWord ≠ beginsWithWord t ∧ Defines (ReadsAs name) params t) := by
  cases hafter : Utf8.afterCodes? (Utf8.codes name) t with
  | none =>
    have h : paramsOf? (Utf8.codes name) inWord t (prospects t) = none := by
      simp [paramsOf?, hafter]
    rw [h]
    refine .none ?_
    rintro params ⟨-, hdefines⟩
    obtain ⟨rest, _, hrest, -⟩ := (defines_iff hname).1 hdefines
    rw [hafter] at hrest
    cases hrest
  | some rest =>
    have hdefines {params : Text} : Defines (ReadsAs name) params t ↔ ∃ closing,
        rest.dropWhile isSpace = openParen :: (params ++ closing) ∧ Filler isParam params ∧
          ClosesParams closing closing := by
      simp [defines_iff hname, hafter]
    rw [paramsOf?_eq hafter]
    split_ifs with hw
    · exact .none fun params hp => hp.1 (beq_iff_eq.1 hw)
    rw [beq_iff_eq] at hw
    cases hopen : after? [openParen] (rest.dropWhile isSpace) with
    | none =>
      refine .none fun params hp => ?_
      obtain ⟨closing, hrest, -⟩ := hdefines.1 hp.2
      rw [after?_eq_some_iff.2 hrest] at hopen
      cases hopen
    | some list =>
      have hlist : rest.dropWhile isSpace = openParen :: list := after?_eq_some_iff.1 hopen
      have hdrop : t.drop (t.length - rest.length + (rest.takeWhile isSpace).length + 1) = list := by
        obtain ⟨gap, hrest, hgap⟩ := exists_gap hlist
        obtain ⟨spelled, rfl, -⟩ :=
          (Utf8.afterCodes?_eq_some_iff (hrest ▸ isContinuation_gap hgap)).1 hafter
        rw [List.length_append, Nat.add_sub_cancel_right, ← List.drop_drop, ← List.drop_drop,
          List.drop_left, drop_length_takeWhile, hlist]
        rfl
      rw [Option.bind_some, prospects_drop, hdrop, prospects_head?_params]
      refine (prospectAt_exact list).2.code.map ?_ ?_
      · rintro closing ⟨params, rest, rfl, hparams, rfl, hclose⟩
        have htake :
            (params ++ closing).take ((params ++ closing).length - closing.length) = params := by
          simp
        rw [htake]
        exact ⟨hw, hdefines.2 ⟨closing, hlist, hparams, rfl, hclose⟩⟩
      · rintro params ⟨-, hp⟩
        obtain ⟨closing, hrest, hparams, hclose⟩ := hdefines.1 hp
        rw [hlist] at hrest
        exact ⟨closing, params, closing, (List.cons.inj hrest).2, hparams, hclose⟩

end Phrases

section Scan
variable {t name : Text} {named : Text → Prop} {p q stop : Nat}

theorem skipsAt_iff : SkipsAt t p q ↔ ∃ n, skippedLength? (t.drop p) = some n ∧ q = p + n := by
  simp only [skippedLength?_eq_some_iff]
  constructor
  · rintro ⟨token, rest, ht, htoken, rfl⟩
    exact ⟨_, ⟨token, rest, ht, htoken, rfl⟩, rfl⟩
  · rintro ⟨_, ⟨token, rest, ht, htoken, rfl⟩, rfl⟩
    exact ⟨token, rest, ht, htoken, rfl⟩

theorem skippedLength?_pos {n : Nat} (h : skippedLength? t = some n) : 0 < n := by
  obtain ⟨token, rest, -, htoken, rfl⟩ := skippedLength?_eq_some_iff.1 h
  cases htoken <;> simp

theorem not_defines_nil {params : Text} : ¬ Defines named params [] := by
  rintro ⟨_, _, _, _, ht, -⟩
  simp at ht

/-- A scan at the end of the text, or past it, stops nowhere. -/
theorem not_scanStops_of_length_le (hp : t.length ≤ p) : ¬ ScanStops t named p stop := by
  have hdrop : t.drop p = [] := List.drop_eq_nil_of_le hp
  intro h
  cases h with
  | skip h _ =>
    obtain ⟨n, hn, -⟩ := skipsAt_iff.1 h
    rw [hdrop] at hn
    cases hn
  | found _ h => exact not_defines_nil (hdrop ▸ h.2)
  | advance hp' _ _ _ =>
    rw [hdrop] at hp'
    cases hp'

theorem scanStops_skip (h : SkipsAt t p q) :
    ScanStops t named p stop ↔ ScanStops t named q stop := by
  refine ⟨fun hstop => ?_, .skip h⟩
  cases hstop with
  | skip h' more =>
    obtain ⟨n, hn, rfl⟩ := skipsAt_iff.1 h
    obtain ⟨n', hn', rfl⟩ := skipsAt_iff.1 h'
    rw [hn] at hn'
    cases hn'
    exact more
  | found hs _ => exact absurd h (hs q)
  | advance _ hs _ _ => exact absurd h (hs q)

theorem scanStops_advance {b : UInt8} {rest : Text} (hp : t.drop p = b :: rest)
    (hs : ∀ q, ¬ SkipsAt t p q) (hd : ∀ params, ¬ DefinesAt t named p params) :
    ScanStops t named p stop ↔ ScanStops t named (p + (Utf8.decode b rest).2) stop := by
  refine ⟨fun hstop => ?_, .advance hp hs hd⟩
  cases hstop with
  | skip h _ => exact absurd h (hs _)
  | found _ h => exact absurd h (hd _)
  | advance hp' _ _ more =>
    rw [hp] at hp'
    cases hp'
    exact more

/-- Where a scan stops there is a definition. -/
theorem ScanStops.definesAt (h : ScanStops t named p stop) :
    ∃ params, DefinesAt t named stop params := by
  induction h with
  | skip _ _ ih => exact ih
  | @found _ params _ h => exact ⟨params, h⟩
  | advance _ _ _ _ ih => exact ih

theorem ScanStops.lt_length (h : ScanStops t named p stop) : stop < t.length := by
  obtain ⟨params, hdef⟩ := h.definesAt
  by_contra hle
  exact not_defines_nil (List.drop_eq_nil_of_le (Nat.le_of_not_lt hle) ▸ hdef.2)

/-- A token ends between two characters. -/
theorem isUtf8_of_skipToken {token rest : Text} (h : SkipToken token rest)
    (ht : Utf8.IsUtf8 (token ++ rest)) : Utf8.IsUtf8 rest := by
  cases h with
  | line _ hrest =>
    have hhead : ∀ b ∈ rest.head?, Utf8.isContinuation b = false := by
      rcases hrest with rfl | hrest
      · nofun
      · rw [hrest]
        rintro _ ⟨⟩
        decide
    have hdrop := (ht.split (Utf8.isBoundary_append hhead _)).2
    rwa [List.drop_left] at hdrop
  | @block body _ _ =>
    refine Utf8.IsUtf8.of_append_cons (t := slash :: asterisk :: (body ++ [asterisk])) (b := slash)
      (by decide) ?_
    simpa using ht
  | @literal body _ _ =>
    refine Utf8.IsUtf8.of_append_cons (t := quote :: body) (b := quote) (by decide) ?_
    simpa using ht

theorem SkipsAt.isUtf8_drop (h : SkipsAt t p q) (ht : Utf8.IsUtf8 (t.drop p)) :
    Utf8.IsUtf8 (t.drop q) := by
  obtain ⟨token, rest, hdrop, htoken, rfl⟩ := h
  rw [← List.drop_drop, hdrop, List.drop_left]
  exact isUtf8_of_skipToken htoken (hdrop ▸ ht)

theorem isUtf8_drop_decode {b : UInt8} {rest : Text} (hp : t.drop p = b :: rest)
    (ht : Utf8.IsUtf8 (t.drop p)) : Utf8.IsUtf8 (t.drop (p + (Utf8.decode b rest).2)) := by
  rw [← List.drop_drop, hp]
  rw [hp] at ht
  cases ht with
  | cons hcharacter more => rwa [hcharacter.decode_append, List.drop_succ_cons, List.drop_left]

/-- In UTF-8 a scan stays between the characters. -/
theorem ScanStops.isUtf8_drop (h : ScanStops t named p stop) (ht : Utf8.IsUtf8 (t.drop p)) :
    Utf8.IsUtf8 (t.drop stop) := by
  induction h with
  | skip h _ ih => exact ih (h.isUtf8_drop ht)
  | found _ _ => exact ht
  | advance hp _ _ _ ih => exact ih (isUtf8_drop_decode hp ht)

/-- Two scans for names that cannot be told apart where the scan passes stop in the same place. In
UTF-8 a scan passes only between characters. -/
theorem ScanStops.congr {named' : Text → Prop} (h : ScanStops t named p stop)
    (hsame : ∀ q, (Utf8.IsUtf8 (t.drop p) → Utf8.IsUtf8 (t.drop q)) → ∀ params,
      (DefinesAt t named q params ↔ DefinesAt t named' q params)) : ScanStops t named' p stop := by
  induction h with
  | skip h _ ih =>
    exact .skip h (ih fun q hq => hsame q fun ht => hq (h.isUtf8_drop ht))
  | found hs hd => exact .found hs ((hsame _ id _).1 hd)
  | advance hp hs hd _ ih =>
    refine .advance hp hs (fun params h => hd params ((hsame _ id _).2 h)) (ih fun q hq => ?_)
    exact hsame q fun ht => hq (isUtf8_drop_decode hp ht)

/-- A scan stops in one place at most. -/
theorem ScanStops.unique {stop' : Nat} (h : ScanStops t named p stop)
    (h' : ScanStops t named p stop') : stop = stop' := by
  induction h with
  | skip h _ ih => exact ih ((scanStops_skip h).1 h')
  | found hs hd =>
    cases h' with
    | skip h _ => exact absurd h (hs _)
    | found _ _ => rfl
    | advance _ _ hd' _ => exact absurd hd (hd' _)
  | advance hp hs hd _ ih => exact ih ((scanStops_advance hp hs hd).1 h')

theorem endsInWord_concat (front : Text) (b : UInt8) : endsInWord (front ++ [b]) = isWord b := by
  simp [endsInWord]

/-- The scan from `p` stops before the text `found.1`, at a definition with parameters `found.2`. -/
def StopsWith (t name : Text) (p : Nat) (found : Text × Text) : Prop :=
  ScanStops t (ReadsAs name) p (t.length - found.1.length) ∧
    DefinesAt t (ReadsAs name) (t.length - found.1.length) found.2

/-- A search that has `front` behind it, and `skip` bytes to its next point, finds where the scan from
that point stops. -/
theorem picks_search (hname : Utf8.IsUtf8 name) (front t : Text) (skip : Nat) :
    Picks (search (Utf8.codes name) skip (endsInWord front) t (prospects t))
      (StopsWith (front ++ t) name (front.length + skip)) := by
  induction t generalizing front skip with
  | nil =>
    refine .none fun found hfound => ?_
    exact not_scanStops_of_length_le (by simp) hfound.1
  | cons b t ih =>
    have hnext : ∀ skip, Picks (search (Utf8.codes name) skip (isWord b) t (prospects t))
        (StopsWith (front ++ b :: t) name (front.length + 1 + skip)) := by
      intro skip
      have h := ih (front ++ [b]) skip
      rwa [endsInWord_concat, List.append_assoc, List.singleton_append, List.length_append] at h
    cases skip with
    | succ skip =>
      rw [search, prospects_tail, List.tail_cons, ← Nat.add_assoc, Nat.add_right_comm]
      exact hnext skip
    | zero =>
      have hdrop : (front ++ b :: t).drop front.length = b :: t := List.drop_left
      have htake : (front ++ b :: t).take front.length = front := List.take_left
      have hskip : ∀ q, SkipsAt (front ++ b :: t) front.length q ↔
          ∃ n, skippedLength? (b :: t) = some n ∧ q = front.length + n := by
        intro q
        rw [skipsAt_iff, hdrop]
      have hdef : ∀ params, DefinesAt (front ++ b :: t) (ReadsAs name) front.length params ↔
          endsInWord front ≠ beginsWithWord (b :: t) ∧ Defines (ReadsAs name) params (b :: t) := by
        intro params
        rw [DefinesAt, hdrop, htake]
      have hparams := picks_paramsOf? hname (endsInWord front) (b :: t)
      rw [search, prospects_tail, List.tail_cons, Nat.add_zero]
      cases hs : skippedLength? (b :: t) with
      | some n =>
        have hn := skippedLength?_pos hs
        have hpoint : front.length + 1 + (n - 1) = front.length + n := by omega
        refine (hpoint ▸ hnext (n - 1)).congr fun found => ?_
        rw [StopsWith, scanStops_skip ((hskip _).2 ⟨n, hs, rfl⟩), StopsWith]
      | none =>
        have hs' : ∀ q, ¬ SkipsAt (front ++ b :: t) front.length q := by
          intro q h
          obtain ⟨n, hn, -⟩ := (hskip q).1 h
          rw [hs] at hn
          cases hn
        cases hp : paramsOf? (Utf8.codes name) (endsInWord front) (b :: t)
            (prospects (b :: t)) with
        | some params =>
          have hfound := (hdef params).2 (hparams.1 params hp)
          refine .some ?_
          rw [StopsWith, List.length_append, Nat.add_sub_cancel_right]
          exact ⟨.found hs' hfound, hfound⟩
        | none =>
          have hd : ∀ params, ¬ DefinesAt (front ++ b :: t) (ReadsAs name) front.length params := by
            intro params h
            have hsome := hparams.2 ⟨params, (hdef params).1 h⟩
            rw [hp] at hsome
            cases hsome
          have hwidth := Utf8.decode_width_pos b t
          have hpoint : front.length + 1 + ((Utf8.decode b t).2 - 1) =
              front.length + (Utf8.decode b t).2 := by omega
          refine (hpoint ▸ hnext ((Utf8.decode b t).2 - 1)).congr fun found => ?_
          rw [StopsWith, scanStops_advance hdrop hs' hd, StopsWith]

theorem position_of_definition? {site : Site} (h : definition? t name = some site) :
    site.position = t.positionAt site.offset := by
  rw [definition?] at h
  split_ifs at h
  obtain ⟨found, -, rfl⟩ := Option.map_eq_some_iff.1 h
  rfl

/-- Where a definition is found, the scan stops and a definition stands. -/
theorem stops_of_definition? {site : Site} (h : definition? t name = some site) :
    ScanStops t (ReadsAs name) 0 site.offset ∧
      DefinesAt t (ReadsAs name) site.offset site.params := by
  rw [definition?] at h
  split_ifs at h with hname
  simp only [Bool.or_eq_true, Bool.not_eq_true', not_or, Bool.not_eq_false] at hname
  obtain ⟨found, hfound, rfl⟩ := Option.map_eq_some_iff.1 h
  exact (picks_search (Utf8.valid_iff.1 hname.2) [] t 0).1 found hfound

/-- A definition of `name` is found just if the scan for the names that are `named` stops, and then it
is found where the scan stops, with the parameters of a definition phrase there. -/
structure FollowsScan (t name : Text) (named : Text → Prop) : Prop where
  offset : ∀ p, (∃ site, definition? t name = some site ∧ site.offset = p) ↔ ScanStops t named 0 p
  phrase : ∀ site, definition? t name = some site → DefinesAt t named site.offset site.params
  position : ∀ site, definition? t name = some site → site.position = t.positionAt site.offset

theorem FollowsScan.literal (h : FollowsScan t name (ReadsAs name)) (hutf8 : Utf8.IsUtf8 name)
    (ht : Utf8.IsUtf8 t ∨ Utf8.replacement ∉ Utf8.codes name) : FollowsScan t name (· = name) := by
  have hsame (p : Nat) (hp : Utf8.IsUtf8 (t.drop 0) → Utf8.IsUtf8 (t.drop p)) (params : Text) :
      DefinesAt t (ReadsAs name) p params ↔ DefinesAt t (· = name) p params :=
    and_congr_right' (defines_readsAs_iff hutf8 (ht.imp_left hp))
  refine ⟨fun p => (h.offset p).trans ?_, fun site hsite => ?_, h.position⟩
  · exact ⟨fun hs => hs.congr hsame, fun hs => hs.congr fun q hq params => (hsame q hq params).symm⟩
  · have hstops := (h.offset _).1 ⟨site, hsite, rfl⟩
    exact (hsame _ hstops.isUtf8_drop _).1 (h.phrase site hsite)

end Scan

/-- A byte that is no character has no definition, and stands where a replacement character is
named. -/
example : definition? [97, 0x80, 40, 41, 123] [0x80] = none ∧
    (definition? [97, 0x80, 40, 41, 123] [0xEF, 0xBF, 0xBD]).map (·.offset) = some 1 := by decide

end ScriptNav.Script
