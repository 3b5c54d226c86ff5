import ScriptNav.Proofs.Json.Strings
import ScriptNav.Proofs.Text.Numeral

/-! Values on one line. What is written for a value is read back as that value, and for the members
of an object the sources are what was written for them. -/
namespace ScriptNav.Json

open Text Utf8

/-- Values that can be written: their strings are texts, and their numbers are natural. -/
inductive IsWritable : Json → Prop
  | null : IsWritable .null
  | bool (b : Bool) : IsWritable (.bool b)
  | nat (n : Nat) : IsWritable (.nat n)
  | string {t : Text} (ht : IsUtf8 t) : IsWritable (.string t)
  | array {items : List Json} (h : ∀ item ∈ items, IsWritable item) : IsWritable (.array items)
  | object {members : List (Text × Json)} (hkeys : ∀ m ∈ members, IsUtf8 m.1)
      (hvalues : ∀ m ∈ members, IsWritable m.2) : IsWritable (.object members)

namespace IsWritable

theorem object_nil : IsWritable (.object []) := .object nofun nofun

theorem object_cons {key : Text} {value : Json} {members : List (Text × Json)} (hkey : IsUtf8 key)
    (hvalue : IsWritable value) (h : IsWritable (.object members)) :
    IsWritable (.object ((key, value) :: members)) := by
  cases h with
  | object hkeys hvalues =>
    exact .object (List.forall_mem_cons.2 ⟨hkey, hkeys⟩) (List.forall_mem_cons.2 ⟨hvalue, hvalues⟩)

end IsWritable

/-- What may follow a value. -/
def IsClosing (rest : Text) : Prop :=
  ∀ b, rest.head? = some b → b = comma ∨ b = closeBracket ∨ b = closeBrace

theorem skipBlanks_cons {b : UInt8} {t : Text} (h : isBlank b = false) :
    skipBlanks (b :: t) = b :: t := by
  rw [skipBlanks, List.dropWhile_cons_of_neg (by simp [h])]

section Numbers
variable {rest : Text}

theorem after?_cons_of_ne {b c : UInt8} (lead t : Text) (h : b ≠ c) :
    after? (c :: lead) (b :: t) = none := by
  rw [Option.eq_none_iff_forall_ne_some]
  intro rest hrest
  rw [after?_eq_some_iff, List.cons_append] at hrest
  exact h (List.cons.inj hrest).1

theorem digits?_append {run : Text} (h : IsRun isDigit run rest) (hne : run ≠ []) :
    digits? (run ++ rest) = some (run, rest) := by
  have hempty : run.isEmpty = false := by simpa using hne
  simp [digits?, h.takeWhile_eq, hempty]

theorem IsClosing.ne_digit (h : IsClosing rest) {b : UInt8} (hb : rest.head? = some b) :
    isDigit b = false := by
  rcases h b hb with rfl | rfl | rfl <;> rfl

/-- The numeral of a number is read to its end. -/
theorem number?_ofNat (n : Nat) (hrest : IsClosing rest) :
    number? (ofNat n ++ rest) = some (ofNat n, rest) := by
  by_cases hn : n = 0
  · subst hn
    cases rest with
    | nil => rfl
    | cons c rest => rcases hrest c rfl with rfl | rfl | rfl <;> rfl
  · obtain ⟨b, t, ht, hb, hzero⟩ := ofNat_eq_cons n
    have hsign : after? "-" (ofNat n ++ rest) = none := by
      rw [ht]
      refine after?_cons_of_ne [] _ ?_
      rintro rfl
      exact absurd hb (by decide)
    have hlead : after? "0" (ofNat n ++ rest) = none := by
      rw [ht]
      exact after?_cons_of_ne [] _ (hzero (by omega))
    have hdigits : digits? (ofNat n ++ rest) = some (ofNat n, rest) :=
      digits?_append ⟨isDigit_of_mem_ofNat, fun _ => hrest.ne_digit⟩ (by simp [ht])
    have hpoint : after? "." rest = none := by
      cases rest with
      | nil => rfl
      | cons c rest => rcases hrest c rfl with rfl | rfl | rfl <;> rfl
    simp only [number?, hsign, hlead, hdigits, hpoint, bind, pure, Option.bind_some]
    cases rest with
    | nil => simp
    | cons c rest =>
      have hexponent : (c == 101 || c == 69) = false := by
        rcases hrest c rfl with rfl | rfl | rfl <;> rfl
      simp [hexponent]

end Numbers

section Rendering

theorem renderItems_eq_map (items : List Json) : renderItems items = items.map render := by
  induction items with
  | nil => rfl
  | cons item items ih => rw [renderItems, ih, List.map_cons]

/-- What is written for a member of an object. -/
def renderMember (m : Text × Json) : Text := quoted m.1 ++ colon :: render m.2

theorem renderMembers_eq_map (members : List (Text × Json)) :
    renderMembers members = members.map renderMember := by
  induction members with
  | nil => rfl
  | cons m members ih => rw [renderMembers, ih, List.map_cons, renderMember]

theorem render_array (items : List Json) :
    render (.array items) = openBracket :: (join [comma] (items.map render) ++ [closeBracket]) := by
  rw [render, renderItems_eq_map, List.cons_append]

theorem render_object (members : List (Text × Json)) :
    render (.object members) =
      openBrace :: (join [comma] (members.map renderMember) ++ [closeBrace]) := by
  rw [render, renderMembers_eq_map, List.cons_append]

theorem join_comma_cons (piece next : Text) (pieces : List Text) :
    join [comma] (piece :: next :: pieces) = piece ++ comma :: join [comma] (next :: pieces) := by
  rw [join, List.intercalate_cons_cons, List.append_assoc, List.singleton_append, join]

theorem join_eq_cons {piece t : Text} {b : UInt8} (h : piece = b :: t) (pieces : List Text) :
    ∃ t', join [comma] (piece :: pieces) = b :: t' := by
  cases pieces with
  | nil => exact ⟨t, by rw [join, List.intercalate_singleton, h]⟩
  | cons next pieces => exact ⟨_, by rw [join_comma_cons, h, List.cons_append]⟩

/-- A value begins with a byte that is no blank and closes nothing. -/
theorem IsWritable.render_eq_cons {j : Json} (h : IsWritable j) :
    ∃ b t, render j = b :: t ∧ isBlank b = false ∧ b ≠ closeBracket := by
  cases h with
  | null => exact ⟨_, _, rfl, by decide, by decide⟩
  | bool b => cases b <;> exact ⟨_, _, rfl, by decide, by decide⟩
  | nat n =>
    obtain ⟨b, t, ht, hb, -⟩ := ofNat_eq_cons n
    refine ⟨b, t, ht, ?_, ?_⟩
    · by_contra hblank
      simp only [isBlank, Bool.or_eq_true, beq_iff_eq, Bool.not_eq_false] at hblank
      rcases hblank with ((rfl | rfl) | rfl) | rfl <;> exact absurd hb (by decide)
    · rintro rfl
      exact absurd hb (by decide)
  | string _ => exact ⟨_, _, rfl, by decide, by decide⟩
  | array _ => exact ⟨_, _, render_array _, by decide, by decide⟩
  | object _ _ => exact ⟨_, _, render_object _, by decide, by decide⟩

end Rendering

section Reading

/-- What is written for a value is read back, whatever closes it, if there is room for it. -/
def IsReadBack (j : Json) : Prop :=
  ∀ fuel rest, 2 * (render j).length ≤ fuel → IsClosing rest →
    value? fuel (render j ++ rest) = some (j, rest)

theorem isClosing_cons {b : UInt8} (rest : Text) (h : b = comma ∨ b = closeBracket ∨ b = closeBrace) :
    IsClosing (b :: rest) := by
  rintro _ ⟨⟩
  exact h

theorem items?_join {items : List Json} (hne : items ≠ []) (h : ∀ item ∈ items, IsReadBack item)
    (fuel : Nat) (hfuel : 2 * (join [comma] (items.map render)).length + 1 ≤ fuel) (rest : Text) :
    items? fuel (join [comma] (items.map render) ++ closeBracket :: rest) = some (items, rest) := by
  induction items generalizing fuel with
  | nil => exact absurd rfl hne
  | cons item items ih =>
    obtain ⟨fuel, rfl⟩ := Nat.exists_eq_add_of_le' (Nat.le_trans (by omega) hfuel : 1 ≤ fuel)
    have hitem := h item List.mem_cons_self fuel
    cases items with
    | nil =>
      simp only [List.map_cons, List.map_nil, join, List.intercalate_singleton] at hfuel ⊢
      rw [items?, hitem _ (by omega) (isClosing_cons _ (by simp))]
      rfl
    | cons next items =>
      have hmore := ih (by simp) (fun item hi => h item (List.mem_cons_of_mem _ hi)) fuel
      rw [List.map_cons] at hmore
      rw [List.map_cons, List.map_cons, join_comma_cons] at hfuel ⊢
      simp only [List.length_append, List.length_cons] at hfuel
      rw [List.append_assoc, List.cons_append, items?,
        hitem _ (by omega) (isClosing_cons _ (by simp))]
      simp [skipBlanks_cons (b := comma) rfl, hmore (by omega)]

/-- The key of a member is read up to the colon. -/
theorem key?_quoted {key : Text} (h : IsUtf8 key) (rest : Text) :
    (after? [quote] (skipBlanks (quoted key ++ rest))).bind string? = some (key, rest) := by
  obtain ⟨body, hbody, hstring⟩ := string?_quoted h rest
  rw [hbody, skipBlanks_cons rfl, after?_eq_some_iff.2 (List.singleton_append).symm, Option.bind_some,
    hstring]

theorem after?_colon (t : Text) : after? [colon] (skipBlanks (colon :: t)) = some t := rfl

theorem members?_join {members : List (Text × Json)} (hne : members ≠ [])
    (hkeys : ∀ m ∈ members, IsUtf8 m.1) (h : ∀ m ∈ members, IsReadBack m.2) (fuel : Nat)
    (hfuel : 2 * (join [comma] (members.map renderMember)).length + 1 ≤ fuel) (rest : Text) :
    members? fuel (join [comma] (members.map renderMember) ++ closeBrace :: rest) =
      some (members, rest) := by
  induction members generalizing fuel with
  | nil => exact absurd rfl hne
  | cons m members ih =>
    obtain ⟨fuel, rfl⟩ := Nat.exists_eq_add_of_le' (Nat.le_trans (by omega) hfuel : 1 ≤ fuel)
    have hkey := key?_quoted (hkeys m List.mem_cons_self)
    have hvalue := h m List.mem_cons_self fuel
    cases members with
    | nil =>
      simp only [List.map_cons, List.map_nil, join, List.intercalate_singleton, renderMember,
        List.length_append, List.length_cons] at hfuel ⊢
      rw [List.append_assoc, members?, hkey]
      simp only [List.cons_append, bind, Option.bind_some, after?_colon]
      rw [hvalue _ (by omega) (isClosing_cons _ (by simp))]
      rfl
    | cons next members =>
      have hmore := ih (by simp) (fun m hm => hkeys m (List.mem_cons_of_mem _ hm))
        (fun m hm => h m (List.mem_cons_of_mem _ hm)) fuel
      rw [List.map_cons] at hmore
      rw [List.map_cons, List.map_cons, join_comma_cons] at hfuel ⊢
      simp only [renderMember.eq_1 m, List.length_append, List.length_cons] at hfuel ⊢
      rw [List.append_assoc, List.append_assoc, members?, hkey]
      simp only [List.cons_append, bind, Option.bind_some, after?_colon]
      rw [hvalue _ (by omega) (isClosing_cons _ (by simp))]
      simp [skipBlanks_cons (b := comma) rfl, hmore (by omega)]

theorem value?_nat (n fuel : Nat) {rest : Text} (hrest : IsClosing rest) :
    value? (fuel + 1) (ofNat n ++ rest) = some (.nat n, rest) := by
  have hnumber := number?_ofNat n hrest
  obtain ⟨b, t, ht, hb, -⟩ := ofNat_eq_cons n
  have hne (c : UInt8) (hc : isDigit c = false) : b ≠ c := by
    rintro rfl
    rw [hb] at hc
    cases hc
  obtain ⟨_, _, hcons, hblank, -⟩ := (IsWritable.nat n).render_eq_cons
  obtain ⟨rfl, -⟩ := List.cons.inj (ht.symm.trans hcons)
  rw [ht, List.cons_append] at hnumber ⊢
  rw [value?, skipBlanks_cons hblank]
  dsimp only
  rw [if_neg (by simpa using hne quote rfl), if_neg (by simpa using hne openBracket rfl),
    if_neg (by simpa using hne openBrace rfl), hnumber, Json.nat, ht,
    show after? "null" (b :: (t ++ rest)) = none from after?_cons_of_ne _ _ (hne 110 rfl),
    show after? "true" (b :: (t ++ rest)) = none from after?_cons_of_ne _ _ (hne 116 rfl),
    show after? "false" (b :: (t ++ rest)) = none from after?_cons_of_ne _ _ (hne 102 rfl)]
  rfl

theorem value?_string {t : Text} (ht : IsUtf8 t) (fuel : Nat) (rest : Text) :
    value? (fuel + 1) (quoted t ++ rest) = some (.string t, rest) := by
  obtain ⟨body, hbody, hstring⟩ := string?_quoted ht rest
  rw [hbody, value?, skipBlanks_cons rfl]
  simp [hstring]

theorem value?_array {b : UInt8} (hblank : isBlank b = false) (hclose : b ≠ closeBracket)
    (fuel : Nat) (t : Text) :
    value? (fuel + 1) (openBracket :: b :: t) =
      (items? fuel (b :: t)).map fun (items, rest) => (.array items, rest) := by
  rw [value?, skipBlanks_cons rfl]
  dsimp only
  rw [if_neg (by decide), if_pos (by decide), skipBlanks_cons hblank]
  dsimp only
  rw [if_neg (by simpa using hclose)]

theorem value?_object (fuel : Nat) (t : Text) :
    value? (fuel + 1) (openBrace :: quote :: t) =
      (members? fuel (quote :: t)).map fun (members, rest) => (.object members, rest) := by
  rw [value?, skipBlanks_cons rfl]
  rfl

theorem IsWritable.isReadBack_of_succ {j : Json} (hj : IsWritable j)
    (h : ∀ fuel rest, 2 * (render j).length ≤ fuel + 1 → IsClosing rest →
      value? (fuel + 1) (render j ++ rest) = some (j, rest)) : IsReadBack j := by
  intro fuel rest hfuel
  obtain ⟨b, t, ht, -⟩ := hj.render_eq_cons
  cases fuel with
  | zero => simp [ht] at hfuel
  | succ fuel => exact h fuel rest hfuel

/-- What is written for a value is read back. -/
theorem IsWritable.isReadBack {j : Json} (h : IsWritable j) : IsReadBack j := by
  induction h with
  | null => exact isReadBack_of_succ .null fun _ _ _ _ => rfl
  | bool b => cases b <;> exact isReadBack_of_succ (.bool _) fun _ _ _ _ => rfl
  | nat n => exact isReadBack_of_succ (.nat n) fun fuel rest _ hrest => value?_nat n fuel hrest
  | string ht =>
    exact isReadBack_of_succ (.string ht) fun fuel rest _ _ => value?_string ht fuel rest
  | @array items hitems ih =>
    refine isReadBack_of_succ (.array hitems) fun fuel rest hfuel _ => ?_
    cases items with
    | nil => rfl
    | cons item items =>
      obtain ⟨b, t, hb, hblank, hclose⟩ := (hitems item List.mem_cons_self).render_eq_cons
      obtain ⟨more, hmore⟩ := join_eq_cons hb (items.map render)
      have hread := items?_join (List.cons_ne_nil _ _) ih fuel
      rw [render_array] at hfuel ⊢
      simp only [List.length_cons, List.length_append, List.length_nil] at hfuel
      specialize hread (by omega) rest
      rw [List.cons_append, List.append_assoc, List.singleton_append]
      rw [List.map_cons, hmore, List.cons_append] at hread ⊢
      rw [value?_array hblank hclose, hread]
      rfl
  | @object members hkeys hvalues ih =>
    refine isReadBack_of_succ (.object hkeys hvalues) fun fuel rest hfuel _ => ?_
    cases members with
    | nil => rfl
    | cons m members =>
      obtain ⟨more, hmore⟩ :=
        join_eq_cons (show renderMember m = quote :: _ from rfl) (members.map renderMember)
      have hread := members?_join (List.cons_ne_nil _ _) hkeys ih fuel
      rw [render_object] at hfuel ⊢
      simp only [List.length_cons, List.length_append, List.length_nil] at hfuel
      specialize hread (by omega) rest
      rw [List.cons_append, List.append_assoc, List.singleton_append]
      rw [List.map_cons, hmore, List.cons_append] at hread ⊢
      rw [value?_object, hread]
      rfl

/-- A text that is written for a value is that value to a reader. -/
theorem IsWritable.parse?_render {j : Json} (h : IsWritable j) : parse? (render j) = some j := by
  have hread := h.isReadBack (room (render j)) [] (by rw [room]; omega) (by rintro _ ⟨⟩)
  rw [List.append_nil] at hread
  rw [parse?, hread]
  rfl

theorem skipBlanks_render {j : Json} (h : IsWritable j) (rest : Text) :
    skipBlanks (render j ++ rest) = render j ++ rest := by
  obtain ⟨b, t, ht, hblank, -⟩ := h.render_eq_cons
  rw [ht, List.cons_append, skipBlanks_cons hblank]

theorem sourcesFrom_member {m : Text × Json} (hkey : IsUtf8 m.1) (hvalue : IsWritable m.2)
    {room : Nat} (hroom : 2 * (render m.2).length ≤ room) (fuel : Nat) {rest : Text}
    (hrest : IsClosing rest) :
    sourcesFrom room (fuel + 1) (renderMember m ++ rest) = (m.1, render m.2) ::
      ((after? [comma] (skipBlanks rest)).map (sourcesFrom room fuel)).getD [] := by
  rw [renderMember, List.append_assoc, List.cons_append, sourcesFrom]
  simp only [key?_quoted hkey, bind, pure, Option.bind_some, after?_colon,
    hvalue.isReadBack room rest hroom hrest, skipBlanks_render hvalue, List.length_append,
    Nat.add_sub_cancel, List.take_left]
  cases after? [comma] (skipBlanks rest) <;> rfl

theorem sourcesFrom_join {members : List (Text × Json)} (hkeys : ∀ m ∈ members, IsUtf8 m.1)
    (hvalues : ∀ m ∈ members, IsWritable m.2) (hne : members ≠ []) {room : Nat}
    (hroom : 2 * (join [comma] (members.map renderMember)).length ≤ room) (fuel : Nat)
    (hfuel : (join [comma] (members.map renderMember)).length ≤ fuel) (rest : Text) :
    sourcesFrom room fuel (join [comma] (members.map renderMember) ++ closeBrace :: rest) =
      members.map fun m => (m.1, render m.2) := by
  induction members generalizing fuel with
  | nil => exact absurd rfl hne
  | cons m members ih =>
    have hlength : (render m.2).length < (renderMember m).length := by
      simp only [renderMember, List.length_append, List.length_cons]
      omega
    have hmember (hroom : 2 * (render m.2).length ≤ room) :=
      sourcesFrom_member (hkeys m List.mem_cons_self) (hvalues m List.mem_cons_self) hroom
    cases members with
    | nil =>
      simp only [List.map_cons, List.map_nil, join, List.intercalate_singleton] at hroom hfuel ⊢
      obtain ⟨fuel, rfl⟩ := Nat.exists_eq_add_of_le' (by omega : 1 ≤ fuel)
      rw [hmember (by omega) fuel (isClosing_cons _ (by simp))]
      rfl
    | cons next members =>
      have hmore := ih (fun m hm => hkeys m (List.mem_cons_of_mem _ hm))
        (fun m hm => hvalues m (List.mem_cons_of_mem _ hm)) (by simp)
      rw [List.map_cons] at hmore
      rw [List.map_cons, List.map_cons, join_comma_cons] at hroom hfuel ⊢
      simp only [List.length_append, List.length_cons] at hroom hfuel
      obtain ⟨fuel, rfl⟩ := Nat.exists_eq_add_of_le' (by omega : 1 ≤ fuel)
      rw [List.append_assoc, List.cons_append, hmember (by omega) fuel (isClosing_cons _ (by simp)),
        skipBlanks_cons rfl, after?_eq_some_iff.2 (List.singleton_append).symm, Option.map_some,
        Option.getD_some, hmore (by omega) fuel (by omega)]
      rfl

/-- The sources of the members of an object are what was written for them. -/
theorem IsWritable.sources_render {members : List (Text × Json)} (h : IsWritable (.object members))
    (hne : members ≠ []) :
    sources (render (.object members)) = members.map fun m => (m.1, render m.2) := by
  cases h with
  | object hkeys hvalues =>
    rw [render_object, sources, skipBlanks_cons rfl,
      after?_eq_some_iff.2 (List.singleton_append).symm]
    refine sourcesFrom_join hkeys hvalues hne ?_ _ ?_ [] <;>
      · simp only [room, List.length_cons, List.length_append]
        omega

end Reading
end ScriptNav.Json
