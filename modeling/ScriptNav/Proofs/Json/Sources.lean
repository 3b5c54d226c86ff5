import ScriptNav.Proofs.Json.Values

/-! Sources of values. A reader of JSON never looks past what it takes off a text, so it reads the
same when the text ends anywhere after that, and with room for no more than the bytes that it takes.
The source of a member of an object is therefore a text that holds the value of the member. -/
namespace ScriptNav.Json

open Text

variable {α β : Type}

/-- A reader takes a front off a text, and reads the same when the text ends anywhere after it. -/
def IsLocal (read : Text → Option (α × Text)) : Prop :=
  ∀ ⦃t a rest⦄, read t = some (a, rest) →
    ∃ front, t = front ++ rest ∧ ∀ more, more <+: rest → read (front ++ more) = some (a, more)

/-- A reader takes a front off a text, and reads the same when the text ends anywhere after it and
there is room for the bytes of the front. -/
def Reads (read : Nat → Text → Option (α × Text)) (t : Text) (a : α) (rest : Text) : Prop :=
  ∃ front, t = front ++ rest ∧ front ≠ [] ∧
    ∀ more, more <+: rest → ∀ fuel, front.length ≤ fuel → read fuel (front ++ more) = some (a, more)

section Marks
variable {lead t u rest : Text} {b : UInt8}

theorem after?_append (lead rest : Text) : after? lead (lead ++ rest) = some rest :=
  after?_eq_some_iff.2 rfl

theorem after?_of_isPrefix (h : after? lead t = none) (hu : u <+: t) : after? lead u = none := by
  obtain ⟨more, rfl⟩ := hu
  rw [Option.eq_none_iff_forall_ne_some] at h ⊢
  intro rest hrest
  rw [after?_eq_some_iff] at hrest
  exact h (rest ++ more) (after?_eq_some_iff.2 (by rw [hrest, List.append_assoc]))

theorem exists_of_skipBlanks (h : skipBlanks t = b :: rest) :
    ∃ blanks, t = blanks ++ b :: rest ∧ ∀ more, skipBlanks (blanks ++ b :: more) = b :: more := by
  have hrun := isRun_while isBlank t
  rw [show t.dropWhile isBlank = _ from h] at hrun
  refine ⟨t.takeWhile isBlank, ?_, fun more => ?_⟩
  · rw [← h]
    exact List.takeWhile_append_dropWhile.symm
  · exact IsRun.dropWhile_eq ⟨hrun.all, hrun.stop⟩

theorem skipBlanks_append (h : skipBlanks t = b :: rest) (more : Text) :
    skipBlanks (t ++ more) = b :: (rest ++ more) := by
  obtain ⟨blanks, rfl, hskip⟩ := exists_of_skipBlanks h
  rw [List.append_assoc]
  exact hskip (rest ++ more)

end Marks

section Strings
variable {t u : Text}

theorem length_of_hex4? {n : Nat} (h : hex4? t = some n) : 4 ≤ t.length := by
  unfold hex4? at h
  split at h
  · next hdigits =>
    match t with
    | [] | [_] | [_, _] | [_, _, _] => simp [Option.bind_eq_some_iff] at hdigits
    | _ :: _ :: _ :: _ :: _ => simp
  · cases h

theorem hex4?_append (h : 4 ≤ t.length) (more : Text) : hex4? (t ++ more) = hex4? t := by
  rw [hex4?, List.take_append_of_le_length h]
  rfl

/-- The value of a second escape, as it is looked up behind the first. -/
def secondEscape? (t : Text) : Option Nat := (after? "\\u" t).bind hex4?

theorem secondEscape?_append {n : Nat} (h : secondEscape? t = some n) (more : Text) :
    secondEscape? (t ++ more) = some n := by
  obtain ⟨digits, hdigits, hn⟩ := Option.bind_eq_some_iff.1 h
  rw [after?_eq_some_iff] at hdigits
  rw [hdigits, secondEscape?, List.append_assoc, after?_append]
  exact (hex4?_append (length_of_hex4? hn) more).trans hn

/-- Six bytes are enough to tell a second escape. -/
theorem secondEscape?_eq_some_of_append {n : Nat} {more : Text} (hlength : 6 ≤ t.length)
    (h : secondEscape? (t ++ more) = some n) : secondEscape? t = some n := by
  obtain ⟨digits, hdigits, hn⟩ := Option.bind_eq_some_iff.1 h
  rw [after?_eq_some_iff] at hdigits
  have htwo : (ofString "\\u").length = 2 := by decide
  obtain ⟨front, rfl⟩ := List.prefix_of_prefix_length_le
    (hdigits ▸ List.prefix_append (ofString "\\u") digits) (List.prefix_append t more) (by omega)
  rw [List.append_assoc] at hdigits
  obtain rfl := List.append_cancel_left hdigits
  rw [List.length_append] at hlength
  rw [secondEscape?, after?_append]
  exact (hex4?_append (by omega) more).symm.trans hn

/-- The code and the width of an escape with what is looked up behind it. -/
def paired (high : Nat) : Option Nat → Nat × Nat
  | some low =>
    if 0xD800 ≤ high && high < 0xDC00 && 0xDC00 ≤ low && low < 0xE000 then
      (0x10000 + (high - 0xD800) * 0x400 + (low - 0xDC00), 10)
    else (high, 4)
  | none => (high, 4)

theorem unicodeEscape?_eq (t : Text) :
    unicodeEscape? t = (hex4? t).map fun high => paired high (secondEscape? (t.drop 4)) := rfl

theorem paired_eq_or (high low : Nat) :
    paired high (some low) = paired high none ∨ (paired high (some low)).2 = 10 := by
  rw [paired]
  split_ifs
  · exact .inr rfl
  · exact .inl rfl

/-- Both widths have the digits of the first escape. -/
theorem four_le_paired (high : Nat) (low : Option Nat) : 4 ≤ (paired high low).2 := by
  cases low with
  | none => exact Nat.le_refl 4
  | some low =>
    rcases paired_eq_or high low with h | h
    · rw [h]
      exact Nat.le_refl 4
    · omega

/-- An escape is the same when the text ends after it. -/
theorem unicodeEscape?_of_isPrefix {code width : Nat} (h : unicodeEscape? t = some (code, width))
    (hu : u <+: t) (hwidth : width ≤ u.length) : unicodeEscape? u = some (code, width) := by
  obtain ⟨more, rfl⟩ := hu
  rw [unicodeEscape?_eq] at h
  obtain ⟨high, hhigh, hcode⟩ := Option.map_eq_some_iff.1 h
  have hfour : 4 ≤ u.length := by
    have hpaired := four_le_paired high (secondEscape? ((u ++ more).drop 4))
    rw [hcode] at hpaired
    exact hpaired.trans hwidth
  rw [hex4?_append hfour] at hhigh
  rw [List.drop_append_of_le_length hfour] at hcode
  rw [unicodeEscape?_eq, hhigh, Option.map_some, ← hcode]
  congr 1
  cases hsecond : secondEscape? (u.drop 4) with
  | some low => rw [secondEscape?_append hsecond]
  | none =>
    cases hlow : secondEscape? (u.drop 4 ++ more) with
    | none => rfl
    | some low =>
      rw [hlow] at hcode
      rcases paired_eq_or high low with halone | hpair
      · exact halone.symm
      · -- The halves of a pair are both in the text, so the second is found there too.
        rw [hcode] at hpair
        rw [secondEscape?_eq_some_of_append (by simp; omega) hlow] at hsecond
        cases hsecond

theorem exists_of_stringFrom {out a rest : Text} {skip : Nat}
    (h : stringFrom out skip t = some (a, rest)) :
    ∃ front, t = front ++ rest ∧ skip < front.length ∧
      ∀ more, more <+: rest → stringFrom out skip (front ++ more) = some (a, more) := by
  induction t generalizing out skip with
  | nil => cases skip <;> cases h
  | cons b t ih =>
    cases skip with
    | succ skip =>
      obtain ⟨front, rfl, hskip, hread⟩ := ih h
      exact ⟨b :: front, rfl, Nat.succ_lt_succ hskip, hread⟩
    | zero =>
      rw [stringFrom.eq_def] at h
      dsimp only at h
      split_ifs at h with hquote hback hlow
      · obtain ⟨rfl, rfl⟩ : out.reverse = a ∧ t = rest := by simpa using h
        refine ⟨[b], rfl, by simp, fun more _ => ?_⟩
        rw [List.singleton_append, stringFrom.eq_def]
        dsimp only
        rw [if_pos hquote]
      · cases t with
        | nil => cases h
        | cons c digits =>
          dsimp only at h
          -- An escape ends before the string does, as the closing quote comes after it.
          have hfinish {out' : Text} {width : Nat}
              (h : stringFrom out' (width + 1) (c :: digits) = some (a, rest))
              (hsame : ∀ u, u <+: digits → width ≤ u.length →
                stringFrom out 0 (b :: c :: u) = stringFrom out' (width + 1) (c :: u)) :
              ∃ front, b :: c :: digits = front ++ rest ∧ 0 < front.length ∧
                ∀ more, more <+: rest → stringFrom out 0 (front ++ more) = some (a, more) := by
            obtain ⟨front, hfront, hskip, hread⟩ := ih h
            cases front with
            | nil => cases hskip
            | cons c' front =>
              obtain ⟨rfl, rfl⟩ := List.cons.inj hfront
              refine ⟨b :: c :: front, rfl, by simp, fun more hmore => ?_⟩
              rw [← hread more hmore]
              refine hsame (front ++ more) ((List.prefix_append_right_inj front).2 hmore) ?_
              simp only [List.length_cons, List.length_append] at hskip ⊢
              omega
          split_ifs at h with hc
          · cases hescape : unicodeEscape? digits with
            | none =>
              rw [hescape] at h
              cases h
            | some escape =>
              rw [hescape] at h
              refine hfinish h fun u hu hwidth => ?_
              rw [stringFrom.eq_def]
              dsimp only
              rw [if_neg hquote, if_pos hback, if_pos hc,
                unicodeEscape?_of_isPrefix hescape hu hwidth]
          · cases hsimple : simpleEscape? c with
            | none =>
              rw [hsimple] at h
              cases h
            | some byte =>
              rw [hsimple] at h
              refine hfinish h fun u _ _ => ?_
              rw [stringFrom.eq_def]
              dsimp only
              rw [if_neg hquote, if_pos hback, if_neg hc, hsimple]
      · obtain ⟨front, rfl, -, hread⟩ := ih h
        refine ⟨b :: front, rfl, by simp, fun more hmore => ?_⟩
        rw [List.cons_append, stringFrom.eq_def]
        dsimp only
        rw [if_neg hquote, if_neg hback, if_neg hlow, hread more hmore]

theorem isLocal_string? : IsLocal string? := by
  intro t a rest h
  obtain ⟨⟨value, _⟩, hvalue, heq⟩ := Option.map_eq_some_iff.1 h
  obtain ⟨rfl, rfl⟩ := Prod.mk.inj heq
  obtain ⟨front, rfl, -, hread⟩ := exists_of_stringFrom hvalue
  refine ⟨front, rfl, fun more hmore => ?_⟩
  rw [string?, hread more hmore]
  rfl

end Strings

section Combinators
variable {f : Text → Option (α × Text)} {a : α}

theorem isLocal_pure (a : α) : IsLocal fun t => some (a, t) := by
  rintro t _ rest ⟨⟩
  exact ⟨[], rfl, fun more _ => rfl⟩

theorem IsLocal.bind {g : α → Text → Option (β × Text)} (hf : IsLocal f) (hg : ∀ a, IsLocal (g a)) :
    IsLocal fun t => (f t).bind fun x => g x.1 x.2 := by
  intro t b rest h
  obtain ⟨⟨a, t'⟩, hfirst, hsecond⟩ := Option.bind_eq_some_iff.1 h
  obtain ⟨front, rfl, hread⟩ := hf hfirst
  obtain ⟨front', rfl, hread'⟩ := hg a hsecond
  refine ⟨front ++ front', by rw [List.append_assoc], fun more hmore => ?_⟩
  dsimp only
  rw [List.append_assoc, hread _ ((List.prefix_append_right_inj front').2 hmore)]
  exact hread' more hmore

theorem IsLocal.map (hf : IsLocal f) (g : α → β) :
    IsLocal fun t => (f t).map fun x => (g x.1, x.2) := by
  intro t b rest h
  obtain ⟨⟨a, t'⟩, hfirst, heq⟩ := Option.map_eq_some_iff.1 h
  obtain ⟨rfl, rfl⟩ := Prod.mk.inj heq
  obtain ⟨front, rfl, hread⟩ := hf hfirst
  refine ⟨front, rfl, fun more hmore => ?_⟩
  dsimp only
  rw [hread more hmore, Option.map_some]

/-- A reader that goes by what a text begins with. -/
theorem isLocal_after? (lead : Text) {g : Text → Option (α × Text)} (hf : IsLocal f)
    (hg : IsLocal g) :
    IsLocal fun t => match after? lead t with
      | some rest => f rest
      | none => g t := by
  intro t a rest h
  dsimp only at h
  cases hlead : after? lead t with
  | some t' =>
    rw [hlead] at h
    obtain ⟨front, rfl, hread⟩ := hf h
    rw [after?_eq_some_iff] at hlead
    refine ⟨lead ++ front, by rw [hlead, List.append_assoc], fun more hmore => ?_⟩
    dsimp only
    rw [List.append_assoc, after?_append]
    exact hread more hmore
  | none =>
    rw [hlead] at h
    obtain ⟨front, rfl, hread⟩ := hg h
    refine ⟨front, rfl, fun more hmore => ?_⟩
    dsimp only
    rw [after?_of_isPrefix hlead ((List.prefix_append_right_inj front).2 hmore)]
    exact hread more hmore

/-- A reader that goes by the first byte, and takes nothing if it is not of the right kind. -/
theorem isLocal_head (p : UInt8 → Bool) {f : UInt8 → Text → Option (α × Text)}
    (hf : ∀ b, IsLocal (f b)) (a : α) :
    IsLocal fun t => match t with
      | b :: rest => if p b then f b rest else some (a, t)
      | [] => some (a, t) := by
  intro t x rest h
  cases t with
  | nil =>
    obtain ⟨rfl, rfl⟩ : a = x ∧ [] = rest := by simpa using h
    refine ⟨[], rfl, fun more hmore => ?_⟩
    rw [List.prefix_nil.1 hmore]
    rfl
  | cons b t =>
    dsimp only at h
    split_ifs at h with hb
    · obtain ⟨front, rfl, hread⟩ := hf b h
      refine ⟨b :: front, rfl, fun more hmore => ?_⟩
      simp only [List.cons_append, hb, if_true]
      exact hread more hmore
    · obtain ⟨rfl, rfl⟩ : a = x ∧ b :: t = rest := by simpa using h
      refine ⟨[], rfl, fun more hmore => ?_⟩
      cases more with
      | nil => rfl
      | cons c more =>
        obtain ⟨rfl, -⟩ := List.cons_prefix_cons.1 hmore
        simp [hb]

end Combinators

section Numbers

theorem isLocal_digits? : IsLocal digits? := by
  intro t run rest h
  unfold digits? at h
  dsimp only at h
  split_ifs at h with hempty
  obtain ⟨rfl, rfl⟩ : t.takeWhile isDigit = run ∧ t.drop (t.takeWhile isDigit).length = rest := by
    simpa using h
  rw [drop_length_takeWhile]
  have hrun := isRun_while isDigit t
  refine ⟨t.takeWhile isDigit, List.takeWhile_append_dropWhile.symm, fun more hmore => ?_⟩
  refine digits?_append ⟨hrun.all, fun b hb => hrun.stop b ?_⟩ (by simpa using hempty)
  obtain ⟨_, hmore⟩ := hmore
  rw [← hmore, List.head?_append, hb]
  rfl

def sign (t : Text) : Text × Text :=
  match after? "-" t with
  | some rest => ("-", rest)
  | none => ([], t)

def whole? (t : Text) : Option (Text × Text) :=
  match after? "0" t with
  | some rest => some ("0", rest)
  | none => digits? t

def fraction? (t : Text) : Option (Text × Text) :=
  match after? "." t with
  | some rest => (digits? rest).map fun (ds, rest) => (dot :: ds, rest)
  | none => some ([], t)

/-- The sign of an exponent. -/
def mark (t : Text) : Text × Text :=
  match t with
  | s :: more => if s == plus || s == minus then ([s], more) else ([], t)
  | [] => ([], t)

def exponent? (t : Text) : Option (Text × Text) :=
  match t with
  | e :: rest =>
    if e == 101 || e == 69 then
      (digits? (mark rest).2).map fun (ds, rest') => (e :: (mark rest).1 ++ ds, rest')
    else some ([], t)
  | [] => some ([], t)

section Parts
variable (next : Text × Text → Option α) (t : Text)

theorem whole?_bind :
    (whole? t).bind next = match after? "0" t with
      | some rest => next ("0", rest)
      | none => (digits? t).bind next := by
  unfold whole?
  cases after? "0" t <;> rfl

theorem fraction?_bind :
    (fraction? t).bind next = match after? "." t with
      | some rest => ((digits? rest).map fun (ds, rest) => (dot :: ds, rest)).bind next
      | none => next ([], t) := by
  unfold fraction?
  cases after? "." t <;> rfl

theorem exponent?_bind :
    (exponent? t).bind next = match t with
      | e :: rest =>
        if e == 101 || e == 69 then
          ((digits? (mark rest).2).map fun (ds, rest') =>
            (e :: (mark rest).1 ++ ds, rest')).bind next
        else next ([], t)
      | [] => next ([], t) := by
  cases t with
  | nil => rfl
  | cons e rest =>
    unfold exponent?
    dsimp only
    split_ifs <;> rfl

end Parts

/-- A numeral is read in four parts, one after another. -/
theorem number?_eq (t : Text) :
    number? t = (whole? (sign t).2).bind fun (whole, t') =>
      (fraction? t').bind fun (fraction, t') => (exponent? t').bind fun (exponent, t') =>
        some ((sign t).1 ++ whole ++ fraction ++ exponent, t') := by
  simp only [whole?_bind, fraction?_bind, exponent?_bind]
  rfl

theorem isLocal_number? : IsLocal number? := by
  have hsign : IsLocal fun t => some (sign t) := by
    have heq : (fun t => some (sign t)) = fun t => match after? "-" t with
        | some rest => some ("-", rest)
        | none => some ([], t) := by
      funext t
      unfold sign
      cases after? "-" t <;> rfl
    rw [heq]
    exact isLocal_after? "-" (isLocal_pure _) (isLocal_pure _)
  have hwhole : IsLocal whole? := isLocal_after? "0" (isLocal_pure _) isLocal_digits?
  have hfraction : IsLocal fraction? :=
    isLocal_after? "." (isLocal_digits?.map _) (isLocal_pure _)
  have hmark : IsLocal fun t => some (mark t) := by
    have heq : (fun t => some (mark t)) = fun t => match t with
        | s :: more => if s == plus || s == minus then some ([s], more) else some ([], t)
        | [] => some ([], t) := by
      funext t
      unfold mark
      cases t with
      | nil => rfl
      | cons s more => exact apply_ite some _ _ _
    rw [heq]
    exact isLocal_head (fun s => s == plus || s == minus) (fun s => isLocal_pure [s]) []
  have hexponent : IsLocal exponent? :=
    isLocal_head (fun e => e == 101 || e == 69)
      (fun e => hmark.bind fun m => isLocal_digits?.map fun ds => e :: m ++ ds) []
  rw [funext number?_eq]
  exact hsign.bind fun s => hwhole.bind fun w => hfraction.bind fun f => hexponent.bind fun e =>
    isLocal_pure (s ++ w ++ f ++ e)

end Numbers

section Values
variable {t rest : Text} {n : Nat}

theorem value?_of_blank (h : skipBlanks t = []) : value? n t = none := by
  cases n with
  | zero => rw [value?]
  | succ n => rw [value?, h]

theorem items?_of_blank (h : skipBlanks t = []) : items? n t = none := by
  cases n with
  | zero => rw [items?]
  | succ n =>
    rw [items?, value?_of_blank h]
    rfl

theorem members?_of_blank (h : skipBlanks t = []) : members? n t = none := by
  cases n with
  | zero => rw [members?]
  | succ n =>
    rw [members?, h]
    rfl

/-- What stands between an opening and a closing mark, if anything does. -/
def enclosed? (close : UInt8) (read : Nat → Text → Option (α × Text)) (wrap : α → Json)
    (empty : Json) (fuel : Nat) (t : Text) : Option (Json × Text) :=
  match skipBlanks t with
  | [] => none
  | c :: more =>
    if c == close then some (empty, more)
    else (read fuel t).map fun (a, rest) => (wrap a, rest)

theorem reads_enclosed? (close : UInt8) (wrap : α → Json) (empty : Json)
    {read : Nat → Text → Option (α × Text)} {v : Json}
    (hread : ∀ {t a rest}, read n t = some (a, rest) → Reads read t a rest)
    (hblank : ∀ {n t}, skipBlanks t = [] → read n t = none)
    (h : enclosed? close read wrap empty n t = some (v, rest)) :
    Reads (enclosed? close read wrap empty) t v rest := by
  unfold enclosed? at h
  cases hskip : skipBlanks t with
  | nil =>
    rw [hskip] at h
    cases h
  | cons c after =>
    rw [hskip] at h
    dsimp only at h
    split_ifs at h with hclose
    · obtain ⟨rfl, rfl⟩ : empty = v ∧ after = rest := by simpa using h
      obtain ⟨blanks, rfl, hblanks⟩ := exists_of_skipBlanks hskip
      refine ⟨blanks ++ [c], by simp, by simp, fun more _ fuel _ => ?_⟩
      rw [enclosed?, List.append_assoc, List.singleton_append, hblanks]
      dsimp only
      rw [if_pos hclose]
    · obtain ⟨⟨a, _⟩, ha, heq⟩ := Option.map_eq_some_iff.1 h
      obtain ⟨rfl, rfl⟩ := Prod.mk.inj heq
      obtain ⟨front, rfl, hne, hfront⟩ := hread ha
      refine ⟨front, rfl, hne, fun more hmore fuel hfuel => ?_⟩
      -- What is read is not blank, so the front has the same first byte on its own.
      cases hfirst : skipBlanks front with
      | nil =>
        have hsome := hfront [] List.nil_prefix front.length le_rfl
        rw [List.append_nil, hblank hfirst] at hsome
        cases hsome
      | cons c' after' =>
        rw [skipBlanks_append hfirst] at hskip
        obtain ⟨rfl, -⟩ := List.cons.inj hskip
        rw [enclosed?, skipBlanks_append hfirst]
        dsimp only
        rw [if_neg hclose, hfront more hmore fuel hfuel]
        rfl

/-- What is no string, array or object: a word or a number. -/
def scalar? (t : Text) : Option (Json × Text) :=
  match after? "null" t, after? "true" t, after? "false" t with
  | some rest, _, _ => some (.null, rest)
  | _, some rest, _ => some (.bool true, rest)
  | _, _, some rest => some (.bool false, rest)
  | _, _, _ => (number? t).map fun (numeral, rest) => (.number numeral, rest)

theorem isLocal_scalar? : IsLocal scalar? := by
  have heq : scalar? = fun t => match after? "null" t with
      | some rest => some (.null, rest)
      | none => match after? "true" t with
        | some rest => some (.bool true, rest)
        | none => match after? "false" t with
          | some rest => some (.bool false, rest)
          | none => (number? t).map fun x => (.number x.1, x.2) := by
    funext t
    unfold scalar?
    cases after? "null" t <;> cases after? "true" t <;> cases after? "false" t <;> rfl
  rw [heq]
  exact isLocal_after? "null" (isLocal_pure _) (isLocal_after? "true" (isLocal_pure _)
    (isLocal_after? "false" (isLocal_pure _) (isLocal_number?.map _)))

theorem reads_value? {v : Json}
    (hitems : ∀ {t items rest}, items? n t = some (items, rest) → Reads items? t items rest)
    (hmembers : ∀ {t members rest}, members? n t = some (members, rest) →
      Reads members? t members rest)
    (h : value? (n + 1) t = some (v, rest)) : Reads value? t v rest := by
  rw [value?] at h
  cases hskip : skipBlanks t with
  | nil =>
    rw [hskip] at h
    cases h
  | cons b after =>
    obtain ⟨blanks, rfl, hblanks⟩ := exists_of_skipBlanks hskip
    rw [hskip] at h
    dsimp only at h
    -- It is enough to follow what comes after the first byte.
    have hfinish (front : Text) (hafter : after = front ++ rest)
        (hread : ∀ more, more <+: rest → ∀ fuel, front.length ≤ fuel →
          value? (fuel + 1) (blanks ++ b :: (front ++ more)) = some (v, more)) :
        Reads value? (blanks ++ b :: after) v rest := by
      refine ⟨blanks ++ b :: front, by simp [hafter], by simp, fun more hmore fuel hfuel => ?_⟩
      obtain ⟨fuel, rfl⟩ := Nat.exists_eq_add_of_le' (by simp at hfuel; omega : 1 ≤ fuel)
      rw [List.append_assoc, List.cons_append]
      exact hread more hmore fuel (by simp at hfuel; omega)
    split_ifs at h with hquote hbracket hbrace
    · obtain ⟨⟨value, _⟩, hvalue, heq⟩ := Option.map_eq_some_iff.1 h
      obtain ⟨rfl, rfl⟩ := Prod.mk.inj heq
      obtain ⟨front, rfl, hread⟩ := isLocal_string? hvalue
      refine hfinish front rfl fun more hmore fuel _ => ?_
      rw [value?, hblanks]
      dsimp only
      rw [if_pos hquote, hread more hmore]
      rfl
    · obtain ⟨front, rfl, -, hread⟩ :=
        reads_enclosed? closeBracket Json.array (.array []) hitems items?_of_blank h
      refine hfinish front rfl fun more hmore fuel hfuel => ?_
      rw [value?, hblanks]
      dsimp only
      rw [if_neg hquote, if_pos hbracket]
      exact hread more hmore fuel hfuel
    · obtain ⟨front, rfl, -, hread⟩ :=
        reads_enclosed? closeBrace Json.object (.object []) hmembers members?_of_blank h
      refine hfinish front rfl fun more hmore fuel hfuel => ?_
      rw [value?, hblanks]
      dsimp only
      rw [if_neg hquote, if_neg hbracket, if_pos hbrace]
      exact hread more hmore fuel hfuel
    · obtain ⟨front, hfront, hread⟩ := isLocal_scalar? h
      cases front with
      | nil => cases hread [] List.nil_prefix
      | cons b' front =>
        obtain ⟨rfl, rfl⟩ := List.cons.inj hfront
        refine hfinish front rfl fun more hmore fuel _ => ?_
        rw [value?, hblanks]
        dsimp only
        rw [if_neg hquote, if_neg hbracket, if_neg hbrace]
        exact hread more hmore

/-- Elements with commas between them: each is followed by a comma, and then by more, or by the
closing mark. -/
theorem reads_list (close : UInt8) {element : Nat → Text → Option (α × Text)}
    {list : Nat → Text → Option (List α × Text)}
    (hlist : ∀ fuel t, list (fuel + 1) t = (element fuel t).bind fun (a, t) =>
      match skipBlanks t with
      | [] => none
      | b :: rest =>
        if b == comma then (list fuel rest).map fun (more, rest) => (a :: more, rest)
        else if b == close then some ([a], rest)
        else none)
    (helement : ∀ {t a rest}, element n t = some (a, rest) → Reads element t a rest)
    (hmore : ∀ {t as rest}, list n t = some (as, rest) → Reads list t as rest) {as : List α}
    (h : list (n + 1) t = some (as, rest)) : Reads list t as rest := by
  rw [hlist] at h
  obtain ⟨⟨a, t'⟩, ha, hafter⟩ := Option.bind_eq_some_iff.1 h
  obtain ⟨front, rfl, hne, hfront⟩ := helement ha
  dsimp only at hafter
  cases hskip : skipBlanks t' with
  | nil =>
    rw [hskip] at hafter
    cases hafter
  | cons b after =>
    obtain ⟨blanks, rfl, hblanks⟩ := exists_of_skipBlanks hskip
    rw [hskip] at hafter
    dsimp only at hafter
    -- It is enough to follow what comes after the mark.
    have hfinish (last : Text) (hlast : after = last ++ rest)
        (hread : ∀ more, more <+: rest → ∀ fuel, last.length ≤ fuel →
          (if b == comma then (list fuel (last ++ more)).map fun (more, rest) => (a :: more, rest)
            else if b == close then some ([a], last ++ more) else none) = some (as, more)) :
        Reads list (front ++ (blanks ++ b :: after)) as rest := by
      refine ⟨front ++ (blanks ++ b :: last), by simp [hlast], by simp [hne], ?_⟩
      intro more hmore fuel hfuel
      simp only [List.length_append, List.length_cons] at hfuel
      obtain ⟨fuel, rfl⟩ := Nat.exists_eq_add_of_le' (by omega : 1 ≤ fuel)
      have hcut : blanks ++ b :: (last ++ more) <+: blanks ++ b :: after := by
        rw [hlast, List.prefix_append_right_inj, List.cons_prefix_cons,
          List.prefix_append_right_inj]
        exact ⟨rfl, hmore⟩
      rw [List.append_assoc, List.append_assoc, List.cons_append, hlist,
        hfront _ hcut fuel (by omega)]
      dsimp only [Option.bind_some]
      rw [hblanks]
      exact hread more hmore fuel (by omega)
    split_ifs at hafter with hcomma hclose
    · obtain ⟨⟨as', _⟩, has, heq⟩ := Option.map_eq_some_iff.1 hafter
      obtain ⟨rfl, rfl⟩ := Prod.mk.inj heq
      obtain ⟨last, rfl, -, hread⟩ := hmore has
      refine hfinish last rfl fun more hmore fuel hfuel => ?_
      rw [if_pos hcomma, hread more hmore fuel hfuel]
      rfl
    · obtain ⟨rfl, rfl⟩ : [a] = as ∧ after = rest := by simpa using hafter
      refine hfinish [] rfl fun more _ fuel _ => ?_
      rw [if_neg hcomma, if_pos hclose]
      rfl

/-- A mark after blanks. -/
theorem isLocal_mark (b : UInt8) :
    IsLocal fun t => (after? [b] (skipBlanks t)).map fun rest => ((), rest) := by
  intro t a rest h
  obtain ⟨_, hafter, heq⟩ := Option.map_eq_some_iff.1 h
  obtain ⟨-, rfl⟩ := Prod.mk.inj heq
  obtain ⟨blanks, rfl, hblanks⟩ := exists_of_skipBlanks (after?_eq_some_iff.1 hafter)
  refine ⟨blanks ++ [b], by simp, fun more _ => ?_⟩
  dsimp only
  rw [List.append_assoc, List.singleton_append, hblanks]
  exact congrArg (Option.map _) (after?_append [b] more)

/-- The key of a member, up to its value. -/
def label? (t : Text) : Option (Text × Text) := do
  let (key, t) ← (after? [quote] (skipBlanks t)).bind string?
  let t ← after? [colon] (skipBlanks t)
  return (key, t)

theorem isLocal_label? : IsLocal label? := by
  have heq : label? = fun t =>
      (((after? [quote] (skipBlanks t)).map fun rest => ((), rest)).bind fun x => string? x.2).bind
        fun x => ((after? [colon] (skipBlanks x.2)).map fun rest => ((), rest)).bind fun y =>
          some (x.1, y.2) := by
    funext t
    unfold label?
    cases after? [quote] (skipBlanks t) with
    | none => rfl
    | some t =>
      dsimp only [bind, Option.bind_some, Option.map_some]
      cases string? t with
      | none => rfl
      | some x => cases h : after? [colon] (skipBlanks x.2) <;> simp [h]
  rw [heq]
  exact ((isLocal_mark quote).bind fun _ => isLocal_string?).bind fun key =>
    (isLocal_mark colon).bind fun _ => isLocal_pure key

/-- A member of an object. -/
def member? (fuel : Nat) (t : Text) : Option ((Text × Json) × Text) :=
  (label? t).bind fun (key, t) => (value? fuel t).map fun (value, t) => ((key, value), t)

theorem reads_member? (hvalue : ∀ {t v rest}, value? n t = some (v, rest) → Reads value? t v rest)
    {m : Text × Json} (h : member? n t = some (m, rest)) : Reads member? t m rest := by
  obtain ⟨⟨key, t'⟩, hkey, hafter⟩ := Option.bind_eq_some_iff.1 h
  obtain ⟨⟨value, _⟩, hvalue', heq⟩ := Option.map_eq_some_iff.1 hafter
  obtain ⟨rfl, rfl⟩ := Prod.mk.inj heq
  obtain ⟨front, rfl, hfront⟩ := isLocal_label? hkey
  obtain ⟨last, rfl, hne, hlast⟩ := hvalue hvalue'
  refine ⟨front ++ last, by rw [List.append_assoc], by simp [hne], fun more hmore fuel hfuel => ?_⟩
  rw [List.length_append] at hfuel
  rw [member?, List.append_assoc, hfront _ ((List.prefix_append_right_inj last).2 hmore),
    Option.bind_some]
  dsimp only
  rw [hlast more hmore fuel (by omega)]
  rfl

theorem members?_succ (fuel : Nat) (t : Text) :
    members? (fuel + 1) t = (member? fuel t).bind fun (m, t) =>
      match skipBlanks t with
      | [] => none
      | b :: rest =>
        if b == comma then (members? fuel rest).map fun (more, rest) => (m :: more, rest)
        else if b == closeBrace then some ([m], rest)
        else none := by
  rw [members?, member?, label?]
  cases (after? [quote] (skipBlanks t)).bind string? with
  | none => rfl
  | some x =>
    dsimp only [bind, Option.bind_some]
    cases after? [colon] (skipBlanks x.2) with
    | none => rfl
    | some t =>
      dsimp only [pure, Option.bind_some]
      cases value? fuel t <;> rfl

theorem reads_all (n : Nat) :
    (∀ {t v rest}, value? n t = some (v, rest) → Reads value? t v rest) ∧
      (∀ {t items rest}, items? n t = some (items, rest) → Reads items? t items rest) ∧
      ∀ {t members rest}, members? n t = some (members, rest) → Reads members? t members rest := by
  induction n with
  | zero =>
    refine ⟨?_, ?_, ?_⟩ <;> intro t _ rest h
    · rw [value?] at h; cases h
    · rw [items?] at h; cases h
    · rw [members?] at h; cases h
  | succ n ih =>
    obtain ⟨hvalue, hitems, hmembers⟩ := ih
    refine ⟨reads_value? hitems hmembers, ?_, ?_⟩
    · exact reads_list closeBracket (fun fuel t => by rw [items?]; rfl) hvalue hitems
    · exact reads_list closeBrace members?_succ (reads_member? hvalue) hmembers

end Values

section Sources

theorem value?_skipBlanks (n : Nat) (t : Text) : value? n (skipBlanks t) = value? n t := by
  have hrun : IsRun isBlank [] (skipBlanks t) := ⟨nofun, (isRun_while isBlank t).stop⟩
  have hskip : skipBlanks (skipBlanks t) = skipBlanks t := hrun.dropWhile_eq
  cases n with
  | zero => rw [value?, value?]
  | succ n => rw [value?, value?, hskip]

/-- The source of a value holds that value. -/
theorem parse?_source {n : Nat} {t rest : Text} {v : Json} (h : value? n t = some (v, rest)) :
    parse? ((skipBlanks t).take ((skipBlanks t).length - rest.length)) = some v := by
  rw [← value?_skipBlanks] at h
  obtain ⟨front, hfront, -, hread⟩ := (reads_all n).1 h
  have hwhole := hread [] List.nil_prefix (room front) (by rw [room]; omega)
  rw [List.append_nil] at hwhole
  rw [hfront, List.length_append, Nat.add_sub_cancel, List.take_left, parse?, hwhole]
  rfl

theorem isSome_parse?_of_mem_sourcesFrom {space fuel : Nat} {t : Text} {m : Text × Text}
    (h : m ∈ sourcesFrom space fuel t) : (parse? m.2).isSome := by
  induction fuel generalizing t with
  | zero => cases h
  | succ fuel ih =>
    rw [sourcesFrom] at h
    dsimp only at h
    split at h
    · cases h
    · next key start rest hmember =>
      simp only [Option.bind_eq_bind, Option.bind_eq_some_iff, pure, Option.some.injEq,
        Prod.mk.injEq] at hmember
      obtain ⟨_, -, t', -, ⟨v, rest'⟩, hvalue, -, rfl, rfl⟩ := hmember
      obtain rfl | hmore := List.mem_cons.1 h
      · rw [parse?_source hvalue]
        rfl
      · split at hmore
        · exact ih hmore
        · cases hmore

/-- Every member of an object has a value for its source. -/
theorem isSome_parse?_of_mem_sources {t : Text} {m : Text × Text} (h : m ∈ sources t) :
    (parse? m.2).isSome := by
  unfold sources at h
  split at h
  · exact isSome_parse?_of_mem_sourcesFrom h
  · cases h

theorem value?_of_brace {n : Nat} {t after rest : Text} {v : Json}
    (ht : skipBlanks t = openBrace :: after) (h : value? n t = some (v, rest)) :
    ∃ members, v = .object members := by
  cases n with
  | zero => rw [value?] at h; cases h
  | succ n =>
    rw [value?, ht] at h
    dsimp only at h
    rw [if_neg (by decide), if_neg (by decide), if_pos (by decide)] at h
    split at h
    · cases h
    · split_ifs at h
      · exact ⟨[], (Prod.mk.inj (Option.some.inj h)).1.symm⟩
      · obtain ⟨x, -, heq⟩ := Option.map_eq_some_iff.1 h
        exact ⟨x.1, (Prod.mk.inj heq).1.symm⟩

/-- Only an object has sources. -/
theorem sources_of_parse? {t : Text} {v : Json} (h : parse? t = some v)
    (hv : ∀ members, v ≠ .object members) : sources t = [] := by
  unfold sources
  split
  · next rest hbrace =>
    unfold parse? at h
    split at h
    · next value rest' hvalue =>
      split_ifs at h
      obtain ⟨members, rfl⟩ := value?_of_brace (after?_eq_some_iff.1 hbrace) hvalue
      exact absurd (Option.some.inj h).symm (hv members)
    · cases h
  · rfl

end Sources
end ScriptNav.Json
