import Mathlib.Data.List.TakeWhile
import Mathlib.Tactic.SplitIfs
import ScriptNav.Text.Utf8

/-! Well-formed texts as sequences of characters, each a lead byte with the continuation bytes that it
announces. What the decoder makes of a character does not depend on what follows it, and a
well-formed text is cut into well-formed parts wherever no continuation byte comes next. -/
namespace ScriptNav.Utf8

/-- The bytes that follow a lead byte are those that it announces. -/
structure IsCharacter (lead : UInt8) (cont : Text) : Prop where
  length : announced lead = cont.length + 1
  second : ∀ c, cont.head? = some c → isSecond lead c = true
  others : ∀ c ∈ cont.tail, isContinuation c = true

/-- A sequence of characters. -/
inductive IsUtf8 : Text → Prop
  | nil : IsUtf8 []
  | cons {lead : UInt8} {cont rest : Text} (h : IsCharacter lead cont) (more : IsUtf8 rest) :
      IsUtf8 (lead :: (cont ++ rest))

/-- No character of a text lies across the offset `o`. -/
def IsBoundary (t : Text) (o : Nat) : Prop :=
  o ≤ t.length ∧ ∀ b, t[o]? = some b → isContinuation b = false

instance (t : Text) (o : Nat) : Decidable (IsBoundary t o) :=
  decidable_of_iff (o ≤ t.length ∧ t[o]?.any isContinuation = false)
    (by cases h : t[o]? <;> simp [IsBoundary, h])

section Character
variable {lead : UInt8} {cont rest t : Text}

theorem isContinuation_of_isSecond {b : UInt8} (h : isSecond lead b = true) :
    isContinuation b = true := by
  rw [isSecond, Bool.and_eq_true] at h
  exact h.1

theorem IsCharacter.all_isContinuation (h : IsCharacter lead cont) :
    ∀ c ∈ cont, isContinuation c = true := by
  intro c hc
  cases cont with
  | nil => cases hc
  | cons d cont =>
    rcases List.mem_cons.1 hc with rfl | hc
    · exact isContinuation_of_isSecond (h.second _ rfl)
    · exact h.others c hc

/-- A continuation byte announces nothing. -/
theorem announced_of_isContinuation {b : UInt8} (h : isContinuation b = true) : announced b = 0 := by
  simp only [isContinuation, Bool.and_eq_true, decide_eq_true_eq] at h
  rw [announced, if_neg (UInt8.not_lt.2 h.1), if_pos (UInt8.lt_trans h.2 (by decide))]

theorem continued_nil (lead : UInt8) : continued lead [] = 0 := by
  rw [continued]
  simp

theorem continued_cons {n : Nat} (ha : announced lead = n + 2) (c : UInt8) (more : Text) :
    continued lead (c :: more) =
      if isSecond lead c then 1 + ((more.take n).takeWhile isContinuation).length else 0 := by
  rw [continued.eq_def, ha]

/-- The bytes of a character are counted whatever follows them. -/
theorem IsCharacter.continued_append (h : IsCharacter lead cont) (rest : Text) :
    continued lead (cont ++ rest) = cont.length := by
  have hlen := h.length
  cases cont with
  | nil => simp [continued, hlen]
  | cons c cont =>
    have hall : cont.takeWhile isContinuation = cont :=
      List.takeWhile_eq_self_iff.2 h.others
    rw [List.cons_append, continued_cons hlen, if_pos (h.second c rfl), List.take_left, hall,
      List.length_cons, Nat.add_comm]

/-- A character is complete if and only if the text begins with the bytes that it announces. -/
theorem completes_iff :
    completes lead t = true ↔ ∃ cont rest, t = cont ++ rest ∧ IsCharacter lead cont := by
  rw [completes, beq_iff_eq]
  constructor
  · intro h
    cases t with
    | nil =>
      rw [continued_nil] at h
      exact ⟨[], [], rfl, h, by simp, by simp⟩
    | cons c more =>
      rcases ha : announced lead with _ | _ | n
      · rw [ha] at h
        omega
      · exact ⟨[], c :: more, rfl, ha, by simp, by simp⟩
      · rw [continued_cons ha, ha] at h
        split_ifs at h with hc
        · have hsub := List.takeWhile_prefix isContinuation (l := more.take n)
          have heq : (more.take n).takeWhile isContinuation = more.take n := by
            refine hsub.eq_of_length_le ?_
            rw [List.length_take]
            omega
          have hn : (more.take n).length = n := by
            rw [← heq]
            omega
          refine ⟨c :: more.take n, more.drop n, by simp, by simp [ha, hn], ?_, ?_⟩
          · rintro _ ⟨⟩
            exact hc
          · exact List.takeWhile_eq_self_iff.1 heq
        · omega
  · rintro ⟨cont, rest, rfl, h⟩
    rw [h.continued_append, h.length]

/-- What a character is decoded to, whatever follows it. -/
theorem IsCharacter.decode_append (h : IsCharacter lead cont) (rest : Text) :
    decode lead (cont ++ rest) = (assemble lead cont, cont.length + 1) := by
  have hc : completes lead (cont ++ rest) = true := completes_iff.2 ⟨cont, rest, rfl, h⟩
  rw [decode, hc, h.continued_append]
  simp

theorem decode_width_pos (lead : UInt8) (rest : Text) : 0 < (decode lead rest).2 := by
  rw [decode]
  split_ifs
  · exact Nat.succ_pos _
  · exact Nat.one_pos

/-- What is decoded ends within the text. -/
theorem decode_width_le (lead : UInt8) (rest : Text) : (decode lead rest).2 ≤ rest.length + 1 := by
  rw [decode]
  split_ifs with hc
  · obtain ⟨cont, rest, rfl, hcharacter⟩ := completes_iff.1 hc
    rw [hcharacter.continued_append, List.length_append]
    dsimp only
    omega
  · exact Nat.le_add_left 1 rest.length

end Character

section Sequence
variable {lead : UInt8} {cont rest t u : Text}

theorem validFrom_drop (skip : Nat) (t : Text) : validFrom skip t = valid (t.drop skip) := by
  induction skip generalizing t with
  | zero => rfl
  | succ skip ih =>
    cases t with
    | nil => rfl
    | cons b t => rw [validFrom, ih, List.drop_succ_cons]

theorem valid_character (h : IsCharacter lead cont) :
    valid (lead :: (cont ++ rest)) = valid rest := by
  have hc : completes lead (cont ++ rest) = true := completes_iff.2 ⟨cont, rest, rfl, h⟩
  rw [valid, validFrom, hc, h.continued_append, validFrom_drop, List.drop_left, Bool.true_and]

/-- A text is valid if and only if it is a sequence of characters. -/
theorem valid_iff : valid t = true ↔ IsUtf8 t := by
  constructor
  · intro h
    induction hn : t.length using Nat.strongRecOn generalizing t with
    | ind n ih =>
      cases t with
      | nil => exact .nil
      | cons lead t =>
        have hcomplete : completes lead t = true := by
          rw [valid, validFrom, Bool.and_eq_true] at h
          exact h.1
        obtain ⟨cont, rest, rfl, hc⟩ := completes_iff.1 hcomplete
        rw [valid_character hc] at h
        have hlt : rest.length < n := by
          rw [← hn, List.length_cons, List.length_append]
          omega
        exact .cons hc (ih _ hlt h rfl)
  · intro h
    induction h with
    | nil => rfl
    | cons h _ ih => rw [valid_character h, ih]

instance (t : Text) : Decidable (IsUtf8 t) := decidable_of_iff _ valid_iff

/-- A text begins with no continuation byte. -/
theorem IsUtf8.isContinuation_head {b : UInt8} (h : IsUtf8 (b :: t)) : isContinuation b = false := by
  cases h with
  | cons hcharacter more =>
    have hlength := hcharacter.length
    by_contra hb
    rw [announced_of_isContinuation (by simpa using hb)] at hlength
    omega

theorem IsUtf8.isContinuation_of_mem_head? (h : IsUtf8 t) :
    ∀ b ∈ t.head?, isContinuation b = false := by
  cases t with
  | nil => nofun
  | cons b t =>
    rintro _ ⟨⟩
    exact h.isContinuation_head

theorem getElem?_append_length (front rest : Text) :
    (front ++ rest)[front.length]? = rest.head? := by
  rw [List.getElem?_append_right (Nat.le_refl _), Nat.sub_self, List.head?_eq_getElem?]

theorem isBoundary_append (h : ∀ b ∈ rest.head?, isContinuation b = false) (front : Text) :
    IsBoundary (front ++ rest) front.length := by
  refine ⟨by simp, fun b hb => h b ?_⟩
  rwa [getElem?_append_length] at hb

theorem IsUtf8.append (ht : IsUtf8 t) (hu : IsUtf8 u) : IsUtf8 (t ++ u) := by
  induction ht with
  | nil => exact hu
  | cons h _ ih =>
    rw [List.cons_append, List.append_assoc]
    exact .cons h ih

/-- A text is cut at a boundary into two texts. -/
theorem IsUtf8.split (ht : IsUtf8 t) {o : Nat} (ho : IsBoundary t o) :
    IsUtf8 (t.take o) ∧ IsUtf8 (t.drop o) := by
  induction ht generalizing o with
  | nil => simpa using IsUtf8.nil
  | @cons lead cont rest h more ih =>
    cases o with
    | zero => exact ⟨.nil, .cons h more⟩
    | succ o =>
      by_cases hlt : o < cont.length
      · have hbyte := ho.2 cont[o] (by simp [List.getElem?_append_left hlt, hlt])
        rw [h.all_isContinuation _ (List.getElem_mem hlt)] at hbyte
        cases hbyte
      · obtain ⟨k, rfl⟩ := Nat.exists_eq_add_of_le (Nat.le_of_not_lt hlt)
        have hrest : IsBoundary rest k := by
          refine ⟨by simpa using ho.1, fun b hb => ho.2 b ?_⟩
          simpa [List.getElem?_append_right] using hb
        obtain ⟨htake, hdrop⟩ := ih hrest
        rw [List.take_succ_cons, List.take_length_add_append, List.drop_succ_cons, ← List.drop_drop,
          List.drop_left]
        exact ⟨.cons h htake, hdrop⟩

/-- After a byte that is a character of its own there is a boundary. -/
theorem IsUtf8.of_append_cons {b : UInt8} (hb : announced b = 1) (ht : IsUtf8 (t ++ b :: u)) :
    IsUtf8 u := by
  have hcont : isContinuation b = false := by
    by_contra h
    rw [announced_of_isContinuation (by simpa using h)] at hb
    cases hb
  have hbound : IsBoundary (t ++ b :: u) t.length := by
    refine isBoundary_append ?_ t
    rintro _ ⟨⟩
    exact hcont
  have hdrop := (ht.split hbound).2
  rw [List.drop_left] at hdrop
  generalize hbu : b :: u = v at hdrop
  cases hdrop with
  | nil => cases hbu
  | @cons lead cont rest h more =>
    obtain ⟨rfl, rfl⟩ := List.cons.inj hbu
    have hlen := h.length
    obtain rfl : cont = [] := List.length_eq_zero_iff.1 (by omega)
    exact more

end Sequence

section Runes
variable {lead : UInt8} {cont rest : Text}

theorem runesFrom_drop (out : List (Nat × Text)) (skip : Nat) (t : Text) :
    runesFrom out skip t = runesFrom out 0 (t.drop skip) := by
  induction skip generalizing t with
  | zero => rfl
  | succ skip ih =>
    cases t with
    | nil => rfl
    | cons b t => rw [runesFrom, ih, List.drop_succ_cons]

theorem runesFrom_out (out : List (Nat × Text)) (skip : Nat) (t : Text) :
    runesFrom out skip t = out.reverse ++ runesFrom [] skip t := by
  induction t generalizing out skip with
  | nil => simp [runesFrom]
  | cons b t ih =>
    cases skip with
    | succ skip => rw [runesFrom, runesFrom, ih]
    | zero =>
      rcases hd : decode b t with ⟨code, width⟩
      simp only [runesFrom, hd]
      rw [ih, ih [_]]
      simp

/-- The characters of a text are read one after another. -/
theorem runes_character (h : IsCharacter lead cont) :
    runes (lead :: (cont ++ rest)) = (assemble lead cont, lead :: cont) :: runes rest := by
  simp only [runes, runesFrom, h.decode_append]
  rw [runesFrom_out, runesFrom_drop]
  simp

theorem codes_cons (lead : UInt8) (rest : Text) :
    codes (lead :: rest) =
      (decode lead rest).1 :: codes (rest.drop ((decode lead rest).2 - 1)) := by
  rw [codes, runes, runesFrom]
  dsimp only
  rw [runesFrom_out, runesFrom_drop]
  rfl

end Runes

section Encoding
variable {lead : UInt8} {cont : Text}

theorem toUInt8_eq {n : Nat} {b : UInt8} (h : n = b.toNat) : n.toUInt8 = b := by
  subst h
  exact UInt8.ofNat_toNat

theorem toNat_of_isContinuation {b : UInt8} (h : isContinuation b = true) :
    0x80 ≤ b.toNat ∧ b.toNat < 0xC0 := by
  simpa [isContinuation, UInt8.le_iff_toNat_le, UInt8.lt_iff_toNat_lt] using h

theorem toNat_of_isSecond {b : UInt8} (h : isSecond lead b = true) :
    (lead.toNat = 0xE0 → 0xA0 ≤ b.toNat) ∧ (lead.toNat = 0xED → b.toNat < 0xA0) ∧
    (lead.toNat = 0xF0 → 0x90 ≤ b.toNat) ∧ (lead.toNat = 0xF4 → b.toNat < 0x90) := by
  rw [isSecond, Bool.and_eq_true] at h
  have h2 := h.2
  simp only [beq_iff_eq, UInt8.le_iff_toNat_le, UInt8.lt_iff_toNat_lt, ← UInt8.toNat_inj,
    UInt8.reduceToNat] at h2
  split_ifs at h2 <;> simp at h2 <;> omega

/-- The lead bytes by the number of bytes that follow them. -/
theorem toNat_of_announced {n : Nat} (h : announced lead = n + 1) :
    n = 0 ∧ lead.toNat < 0x80 ∨ n = 1 ∧ 0xC2 ≤ lead.toNat ∧ lead.toNat < 0xE0 ∨
    n = 2 ∧ 0xE0 ≤ lead.toNat ∧ lead.toNat < 0xF0 ∨
    n = 3 ∧ 0xF0 ≤ lead.toNat ∧ lead.toNat < 0xF5 := by
  rw [announced] at h
  simp only [UInt8.lt_iff_toNat_lt, UInt8.reduceToNat] at h
  split_ifs at h <;> omega

/-- A character is written the way it was read. -/
theorem encode_assemble (h : IsCharacter lead cont) : encode (assemble lead cont) = lead :: cont := by
  have hlead := toNat_of_announced h.length
  have hcont c (hc : c ∈ cont) := toNat_of_isContinuation (h.all_isContinuation c hc)
  rw [assemble, h.length]
  -- The top bits are named in each case, since they are a truncated difference.
  rcases cont with _ | ⟨a, _ | ⟨b, _ | ⟨c, _ | ⟨d, cont⟩⟩⟩⟩ <;>
    simp only [List.length_cons, List.length_nil, List.foldl_cons, List.foldl_nil] at hlead ⊢
  · rw [encode, if_pos (by omega), toUInt8_eq rfl]
  · have ha := hcont a (by simp)
    generalize htop : lead.toNat - 0xC0 = top
    rw [encode, if_neg (by omega), if_pos (by omega), toUInt8_eq (b := lead) (by omega),
      toUInt8_eq (b := a) (by omega)]
  · have ha := hcont a (by simp)
    have hb := hcont b (by simp)
    have hsecond := toNat_of_isSecond (h.second a rfl)
    generalize htop : lead.toNat - 0xE0 = top
    rw [encode, if_neg (by omega), if_neg (by omega), if_pos (by simp; omega),
      toUInt8_eq (b := lead) (by omega), toUInt8_eq (b := a) (by omega),
      toUInt8_eq (b := b) (by omega)]
  · have ha := hcont a (by simp)
    have hb := hcont b (by simp)
    have hc := hcont c (by simp)
    have hsecond := toNat_of_isSecond (h.second a rfl)
    generalize htop : lead.toNat - 0xF0 = top
    rw [encode, if_neg (by omega), if_neg (by omega), if_neg (by simp; omega),
      if_pos (by simp; omega), toUInt8_eq (b := lead) (by omega), toUInt8_eq (b := a) (by omega),
      toUInt8_eq (b := b) (by omega), toUInt8_eq (b := c) (by omega)]
  · omega
end Encoding

section Codes
variable {t u rest : Text}

theorem continued_le_length (lead : UInt8) (t : Text) : continued lead t ≤ t.length := by
  rw [continued.eq_def]
  split
  · rename_i n b more _
    split_ifs
    · have h := (List.takeWhile_sublist isContinuation (l := more.take n)).length_le
      rw [List.length_take] at h
      rw [List.length_cons]
      omega
    · exact Nat.zero_le _
  · exact Nat.zero_le _

/-- No character reaches into a text that begins with no continuation byte. -/
theorem continued_append (h : ∀ b ∈ rest.head?, isContinuation b = false) (lead : UInt8)
    (t : Text) : continued lead (t ++ rest) = continued lead t := by
  rcases ha : announced lead with _ | _ | n
  · simp [continued, ha]
  · simp [continued, ha]
  cases t with
  | nil =>
    cases rest with
    | nil => rfl
    | cons b rest =>
      have hb : isSecond lead b = false := by rw [isSecond, h b rfl, Bool.false_and]
      rw [List.nil_append, continued_cons ha, hb, continued_nil]
      rfl
  | cons c t =>
    have hstop : (rest.take (n - t.length)).takeWhile isContinuation = [] := by
      cases rest with
      | nil => simp
      | cons b rest => cases n - t.length <;> simp [h b rfl]
    have hrun : ((t ++ rest).take n).takeWhile isContinuation =
        (t.take n).takeWhile isContinuation := by
      rw [List.take_append, List.takeWhile_append, hstop, List.append_nil]
      split_ifs with hall
      · exact ((List.takeWhile_prefix _).eq_of_length hall).symm
      · rfl
    rw [List.cons_append, continued_cons ha, continued_cons ha, hrun]

theorem decode_append (h : ∀ b ∈ rest.head?, isContinuation b = false) (lead : UInt8) (t : Text) :
    decode lead (t ++ rest) = decode lead t := by
  rw [decode, decode, completes, completes, continued_append h,
    List.take_append_of_le_length (continued_le_length lead t)]

/-- The given characters stand in front of a point where no character is cut, if and only if they are
those of what stands there. -/
theorem afterCodes?_eq_some_iff {wanted : List Nat} (h : ∀ b ∈ rest.head?, isContinuation b = false) :
    afterCodes? wanted t = some rest ↔ ∃ front, t = front ++ rest ∧ codes front = wanted := by
  induction wanted generalizing t with
  | nil =>
    rw [afterCodes?, Option.some.injEq]
    constructor
    · rintro rfl
      exact ⟨[], rfl, rfl⟩
    · rintro ⟨front, rfl, hfront⟩
      cases front with
      | nil => rfl
      | cons b front =>
        rw [codes_cons] at hfront
        cases hfront
  | cons code wanted ih =>
    cases t with
    | nil =>
      rw [afterCodes?]
      constructor
      · nofun
      · rintro ⟨front, hfront, hcodes⟩
        rw [(List.append_eq_nil_iff.1 hfront.symm).1] at hcodes
        cases hcodes
    | cons b t =>
      simp only [afterCodes?, Option.ite_none_right_eq_some, beq_iff_eq, ih]
      have hle := decode_width_le b t
      have hpos := decode_width_pos b t
      constructor
      · rintro ⟨hcode, front, hdrop, rfl⟩
        have ht : t = (t.take ((decode b t).2 - 1) ++ front) ++ rest := by
          rw [List.append_assoc, ← hdrop, List.take_append_drop]
        have hdecode : decode b (t.take ((decode b t).2 - 1) ++ front) = decode b t := by
          rw [← decode_append h, ← ht]
        refine ⟨b :: (t.take ((decode b t).2 - 1) ++ front), congrArg _ ht, ?_⟩
        have hlen : (t.take ((decode b t).2 - 1)).length = (decode b t).2 - 1 :=
          List.length_take_of_le (by omega)
        rw [codes_cons, hdecode, hcode, List.drop_left' hlen]
      · rintro ⟨front, ht, hcodes⟩
        cases front with
        | nil => cases hcodes
        | cons b' front =>
          rw [List.cons_append] at ht
          obtain ⟨rfl, rfl⟩ := List.cons.inj ht
          have hle := decode_width_le b front
          rw [codes_cons] at hcodes
          obtain ⟨rfl, rfl⟩ := List.cons.inj hcodes
          rw [decode_append h]
          exact ⟨rfl, _, List.drop_append_of_le_length (by omega), rfl⟩

theorem ofCodes_codes (h : IsUtf8 t) : ofCodes (codes t) = t := by
  induction h with
  | nil => rfl
  | cons h _ ih =>
    rw [codes, runes_character h, List.map_cons, ← codes, ofCodes, List.flatMap_cons,
      encode_assemble h, ← ofCodes, ih]
    rfl

/-- A text that reads without the replacement character is well-formed. -/
theorem isUtf8_of_replacement (h : replacement ∉ codes t) : IsUtf8 t := by
  induction hn : t.length using Nat.strongRecOn generalizing t with
  | ind n ih =>
    cases t with
    | nil => exact .nil
    | cons b t =>
      rw [codes_cons, List.mem_cons, not_or] at h
      by_cases hc : completes b t = true
      · obtain ⟨cont, rest, rfl, hcharacter⟩ := completes_iff.1 hc
        have hlt : rest.length < n := by
          rw [← hn, List.length_cons, List.length_append]
          omega
        refine .cons hcharacter (ih _ hlt ?_ rfl)
        simpa [hcharacter.decode_append] using h.2
      · simp [decode, hc] at h

/-- Well-formed texts of the same characters are the same text. -/
theorem eq_of_codes_eq (ht : IsUtf8 t) (hu : IsUtf8 u) (h : codes t = codes u) : t = u := by
  rw [← ofCodes_codes ht, h, ofCodes_codes hu]

end Codes

section Repair

theorem IsCharacter.isUtf8 {lead : UInt8} {cont : Text} (h : IsCharacter lead cont) :
    IsUtf8 (lead :: cont) := by
  rw [← List.append_nil cont]
  exact .cons h .nil

/-- What is repaired stays well-formed, since a whole character or a replacement is added to it. -/
theorem isUtf8_repairFrom {out : Text} (h : IsUtf8 out.reverse) (skip : Nat) (t : Text) :
    IsUtf8 (repairFrom out skip t) := by
  induction t generalizing out skip with
  | nil => exact h
  | cons lead t ih =>
    cases skip with
    | succ skip => exact ih h skip
    | zero =>
      rw [repairFrom]
      split_ifs with hc
      · obtain ⟨cont, rest, rfl, hcharacter⟩ := completes_iff.1 hc
        refine ih ?_ _
        rw [hcharacter.continued_append, List.take_left]
        simpa using h.append hcharacter.isUtf8
      · refine ih ?_ _
        have hreplacement : IsUtf8 [0xEF, 0xBF, 0xBD] := by decide
        simpa using h.append hreplacement

/-- Whatever is stored, what is read is well-formed. -/
theorem isUtf8_read (t : Text) : IsUtf8 (read t) := @isUtf8_repairFrom [] .nil 0 _

end Repair
end ScriptNav.Utf8
