import ScriptNav.Proofs.Association
import ScriptNav.Proofs.Server.Responses

/-! A session beside one that lacks one of its requests. The two differ in the request that the one
has and the other has not, and in the numbers of the requests after it. As long as ids are distinct
they stay beside each other, whatever happens: they send the same, apart from the completion of that
request. -/
namespace ScriptNav.Server

open Text

/-- The numbers with `k` left out: the number that takes the place of `n`. -/
def pastNumber (k n : Nat) : Nat := if n < k then n else n + 1

/-- The number whose place `n` has taken. -/
def backNumber (k n : Nat) : Nat := if n < k then n else n - 1

theorem pastNumber_ne (k n : Nat) : pastNumber k n ≠ k := by
  unfold pastNumber
  split_ifs <;> omega

theorem pastNumber_inj {k m n : Nat} : pastNumber k m = pastNumber k n ↔ m = n := by
  unfold pastNumber
  split_ifs <;> omega

theorem pastNumber_backNumber {k n : Nat} (h : n ≠ k) : pastNumber k (backNumber k n) = n := by
  unfold pastNumber backNumber
  split_ifs <;> omega

theorem backNumber_pastNumber (k n : Nat) : backNumber k (pastNumber k n) = n := by
  unfold pastNumber backNumber
  split_ifs <;> omega

def Request.renumber (f : Nat → Nat) (r : Request) : Request := { r with number := f r.number }

@[simp] theorem Request.number_renumber (f : Nat → Nat) (r : Request) :
    (r.renumber f).number = f r.number := rfl

@[simp] theorem Request.id_renumber (f : Nat → Nat) (r : Request) : (r.renumber f).id = r.id := rfl

namespace Session

variable (settings : Settings)

/-- An event of a session in a session without the request numbered `k`. -/
def Event.without (k : Nat) : Event → Option Event
  | .received payload => some (.received payload)
  | .completed n => if n = k then none else some (.completed (backNumber k n))

/-- The messages of a session, each with its replies. -/
def answered (s : Session) (es : List Event) : List (Text × List Reply) :=
  (exchanges settings s es).map fun x => (x.payload, x.replies settings)

/-- An id is in the pending table once, and stands for a request in flight. -/
structure IsTabled (s : Session) : Prop where
  nodup : (s.pending.map Prod.fst).Nodup
  inFlight : ∀ id n, (id, n) ∈ s.pending → ∃ r ∈ s.inFlight, r.id = id ∧ r.number = n

/-- A session beside one that lacks the request numbered `k`. -/
structure Twins (k : Nat) (s t : Session) : Prop where
  bare : s.bare = t.bare
  next : s.next = t.next + 1
  le : k ≤ t.next
  inFlight : s.inFlight.filter (·.number != k) = t.inFlight.map (Request.renumber (pastNumber k))
  pending : s.pending.filter (·.2 != k) = t.pending.map fun entry =>
    (entry.1, pastNumber k entry.2)

variable {s t : Session} {k : Nat}

section Table

theorem isTabled_empty : IsTabled {} := ⟨List.nodup_nil, nofun⟩

theorem IsTabled.receive (h : s.IsTabled) (payload : Text) :
    (s.receive settings payload).1.IsTabled := by
  constructor
  · rw [pending_receive, pendingAfter]
    cases s.question? payload with
    | none => exact h.nodup
    | some q =>
      refine List.nodup_cons.2 ⟨?_, h.nodup.sublist (List.filter_sublist.map _)⟩
      simp
  · intro id n hmem
    have hold : ∀ r ∈ s.inFlight, ∃ r' ∈ (s.receive settings payload).1.inFlight,
        r'.id = r.id ∧ r'.number = r.number :=
      fun r hr => ⟨_, mem_inFlight_receive settings hr payload, rfl, rfl⟩
    rw [pending_receive, pendingAfter] at hmem
    cases hq : s.question? payload with
    | none =>
      rw [hq] at hmem
      obtain ⟨r, hr, rfl, rfl⟩ := h.inFlight id n hmem
      exact hold r hr
    | some q =>
      rw [hq] at hmem
      obtain heq | hmem := List.mem_cons.1 hmem
      · obtain ⟨rfl, rfl⟩ := Prod.mk.inj heq
        exact ⟨_, mem_inFlight_of_question settings hq, rfl, rfl⟩
      · obtain ⟨r, hr, rfl, rfl⟩ := h.inFlight id n (List.mem_of_mem_filter hmem)
        exact hold r hr

theorem IsTabled.complete (h : s.IsTabled) (hs : s.IsNumbered) (m : Nat) :
    (s.complete settings m).1.IsTabled := by
  by_cases hm : ∃ r ∈ s.inFlight, r.number = m
  · obtain ⟨r, hr, rfl⟩ := hm
    rw [hs.complete_of_mem settings hr]
    refine ⟨h.nodup.sublist (List.filter_sublist.map _), ?_⟩
    intro id n hmem
    obtain ⟨hmem, hne⟩ := List.mem_filter.1 hmem
    obtain ⟨r', hr', rfl, rfl⟩ := h.inFlight id n hmem
    refine ⟨r', List.mem_filter.2 ⟨hr', ?_⟩, rfl, rfl⟩
    simp only [bne_iff_ne] at hne ⊢
    exact fun heq => hne (by rw [hs.eq_of_number hr' hr heq])
  · rw [complete_of_absent settings (by simpa using hm)]
    exact h

theorem IsTabled.step (h : s.IsTabled) (hs : s.IsNumbered) (e : Event) :
    (s.step settings e).1.IsTabled := by
  cases e with
  | received payload => exact h.receive settings payload
  | completed n => exact h.complete settings hs n

theorem IsTabled.run (h : s.IsTabled) (hs : s.IsNumbered) (es : List Event) :
    (s.run settings es).1.IsTabled := by
  induction es generalizing s with
  | nil => exact h
  | cons e es ih => exact ih (h.step settings hs e) (hs.step settings e)

end Table

section Step

theorem Twins.question? (h : Twins k s t) : s.question? = t.question? := by
  rw [← question?_bare, h.bare, question?_bare]

theorem Twins.snapshot (h : Twins k s t) : s.snapshot = t.snapshot := by
  rw [← snapshot_bare, h.bare, snapshot_bare]

theorem Twins.mem_pending_iff (h : Twins k s t) {id : Text} {n : Nat} :
    (id, pastNumber k n) ∈ s.pending ↔ (id, n) ∈ t.pending := by
  have hkeep : (id, pastNumber k n) ∈ s.pending ↔
      (id, pastNumber k n) ∈ s.pending.filter (·.2 != k) := by
    simp [pastNumber_ne]
  rw [hkeep, h.pending]
  simp [pastNumber_inj]

theorem Twins.nodup_keys (h : Twins k s t) (hs : s.IsTabled) :
    (t.pending.map Prod.fst).Nodup := by
  have hkeys : t.pending.map Prod.fst = (s.pending.filter (·.2 != k)).map Prod.fst := by
    rw [h.pending, List.map_map]
    rfl
  rw [hkeys]
  exact hs.nodup.sublist (List.filter_sublist.map _)

/-- A message cancels the same requests in either session. -/
theorem Twins.contains_cancelledBy (h : Twins k s t) (hs : s.IsTabled) (payload : Text) (n : Nat) :
    (s.cancelledBy payload).contains (pastNumber k n) = (t.cancelledBy payload).contains n := by
  unfold cancelledBy
  rw [Bool.eq_iff_iff]
  cases shutsDown payload with
  | true => simp [h.mem_pending_iff]
  | false =>
    cases cancelledId? payload with
    | none => simp
    | some id =>
      have hlookup : s.pending.lookup id = some (pastNumber k n) ↔
          t.pending.lookup id = some n := by
        rw [Association.lookup_eq_some_iff_mem hs.nodup,
          Association.lookup_eq_some_iff_mem (h.nodup_keys hs), h.mem_pending_iff]
      simpa using hlookup

theorem Twins.receive (h : Twins k s t) (hs : s.IsTabled) (payload : Text) :
    Twins k (s.receive settings payload).1 (t.receive settings payload).1 := by
  have hle := h.le
  have hnext := h.next
  have hcancel (r : Request) : (r.renumber (pastNumber k)).cancelIf (s.cancelledBy payload) =
      (r.cancelIf (t.cancelledBy payload)).renumber (pastNumber k) := by
    rw [Request.cancelIf, Request.number_renumber, h.contains_cancelledBy hs]
    rfl
  constructor
  · rw [bare_receive, h.bare, ← bare_receive]
  · rw [next_receive, next_receive, nextAfter, nextAfter, h.question?]
    omega
  · rw [next_receive, nextAfter]
    omega
  · have hold : (s.inFlight.map (Request.cancelIf (s.cancelledBy payload))).filter (·.number != k) =
        (t.inFlight.map (Request.cancelIf (t.cancelledBy payload))).map
          (Request.renumber (pastNumber k)) := by
      rw [List.filter_map]
      show (s.inFlight.filter (·.number != k)).map _ = _
      rw [h.inFlight, List.map_map, List.map_map]
      exact List.map_congr_left fun r _ => hcancel r
    have hnew : (s.requestOf? payload).toList.filter (·.number != k) =
        (t.requestOf? payload).toList.map (Request.renumber (pastNumber k)) := by
      rw [requestOf?, requestOf?, h.question?, h.snapshot]
      cases t.question? payload with
      | none => rfl
      | some q =>
        have hne : t.next + 1 ≠ k := by omega
        simp [Request.renumber, pastNumber, hnext, hne, hle]
    rw [inFlight_receive, inFlight_receive, inFlightAfter, inFlightAfter, List.filter_append,
      List.map_append, hold, hnew]
  · rw [pending_receive, pending_receive, pendingAfter, pendingAfter, h.question?]
    cases t.question? payload with
    | none => exact h.pending
    | some q =>
      have hne : t.next + 1 ≠ k := by omega
      have hold : (s.pending.filter (·.1 != q.id)).filter (·.2 != k) =
          (t.pending.filter (·.1 != q.id)).map fun entry => (entry.1, pastNumber k entry.2) := by
        rw [List.filter_comm, h.pending, List.filter_map]
        rfl
      simp [hnext, hne, hold, pastNumber, hle]

/-- A completion of another request is the same in either session. -/
theorem Twins.complete (h : Twins k s t) (n : Nat) :
    Twins k (s.complete settings (pastNumber k n)).1 (t.complete settings n).1 ∧
      (s.complete settings (pastNumber k n)).2 = (t.complete settings n).2 := by
  have hfind : s.inFlight.find? (·.number == pastNumber k n) =
      (t.inFlight.find? (·.number == n)).map (Request.renumber (pastNumber k)) := by
    have hkeep : s.inFlight.find? (·.number == pastNumber k n) =
        (s.inFlight.filter (·.number != k)).find? (·.number == pastNumber k n) := by
      rw [List.find?_filter]
      congr 1
      funext r
      by_cases hr : r.number = pastNumber k n <;> simp [hr, pastNumber_ne]
    rw [hkeep, h.inFlight, List.find?_map]
    congr 2
    funext r
    simp [pastNumber_inj]
  unfold Session.complete
  rw [hfind]
  cases t.inFlight.find? (·.number == n) with
  | none => exact ⟨h, rfl⟩
  | some r =>
    refine ⟨⟨h.bare, h.next, h.le, ?_, ?_⟩, rfl⟩
    · show (s.inFlight.filter (·.number != pastNumber k n)).filter (·.number != k) = _
      rw [List.filter_comm, h.inFlight, List.filter_map]
      congr 2
      funext r
      simp [bne, pastNumber_inj]
    · show (s.pending.filter (·.1 != r.id)).filter (·.2 != k) = _
      rw [List.filter_comm, h.pending, List.filter_map]
      rfl

/-- The completion of the request that the other session lacks makes no difference. -/
theorem Twins.complete_self (h : Twins k s t) (hs : s.IsTabled) (hnumbered : s.IsNumbered)
    (hids : (s.inFlight.map Request.id).Nodup) : Twins k (s.complete settings k).1 t := by
  by_cases hk : ∃ r ∈ s.inFlight, r.number = k
  · obtain ⟨r, hr, rfl⟩ := hk
    rw [hnumbered.complete_of_mem settings hr]
    refine ⟨h.bare, h.next, h.le, ?_, ?_⟩
    · rw [List.filter_filter, ← h.inFlight]
      simp
    · rw [← h.pending, List.filter_comm, List.filter_eq_self]
      -- An entry under the id of the request is that of the request itself.
      intro entry hentry
      obtain ⟨hentry, hne⟩ := List.mem_filter.1 hentry
      obtain ⟨r', hr', hid, hnumber⟩ := hs.inFlight entry.1 entry.2 hentry
      simp only [bne_iff_ne] at hne ⊢
      intro heq
      rw [List.inj_on_of_nodup_map hids hr' hr (hid.trans heq)] at hnumber
      exact hne hnumber.symm
  · rw [complete_of_absent settings (by simpa using hk)]
    exact h

theorem Twins.nodup_ids (h : Twins k s t) (hids : (s.inFlight.map Request.id).Nodup) :
    (t.inFlight.map Request.id).Nodup := by
  have hmap : t.inFlight.map Request.id = (s.inFlight.filter (·.number != k)).map Request.id := by
    rw [h.inFlight, List.map_map]
    rfl
  rw [hmap]
  exact hids.sublist (List.filter_sublist.map _)

theorem hasDistinctIds_nil : s.HasDistinctIds settings [] ↔ (s.inFlight.map Request.id).Nodup := by
  constructor
  · exact fun h => h.nodup
  · intro h front hfront
    rw [List.prefix_nil.1 hfront]
    exact h

theorem hasDistinctIds_cons {e : Event} {es : List Event} :
    s.HasDistinctIds settings (e :: es) ↔ (s.inFlight.map Request.id).Nodup ∧
      (s.step settings e).1.HasDistinctIds settings es := by
  constructor
  · exact fun h => ⟨h.nodup, h.tail⟩
  · rintro ⟨hnow, hlater⟩ front hfront
    obtain rfl | ⟨more, rfl, hmore⟩ := List.prefix_cons_iff.1 hfront
    · exact hnow
    · exact hlater more hmore

end Step

section Run

/-- Events of a session, and what they are for a session beside it that lacks the request numbered
`k`. The same is sent on both sides, apart from the completion of that request. -/
inductive Beside (k : Nat) : Session → List Event → Session → List Event → Prop
  | nil {s t : Session} (h : Twins k s t) : Beside k s [] t []
  | missing {s t : Session} {es es' : List Event} (h : Twins k s t)
      (more : Beside k (s.complete settings k).1 es t es') :
      Beside k s (.completed k :: es) t es'
  | completed {s t : Session} {es es' : List Event} (h : Twins k s t) (n : Nat)
      (sent : (s.complete settings (pastNumber k n)).2 = (t.complete settings n).2)
      (more : Beside k (s.complete settings (pastNumber k n)).1 es (t.complete settings n).1 es') :
      Beside k s (.completed (pastNumber k n) :: es) t (.completed n :: es')
  | received {s t : Session} {es es' : List Event} (h : Twins k s t) (payload : Text)
      (sent : (s.receive settings payload).2 = (t.receive settings payload).2)
      (more : Beside k (s.receive settings payload).1 es (t.receive settings payload).1 es') :
      Beside k s (.received payload :: es) t (.received payload :: es')

/-- Sessions that stand beside each other go on so, as long as ids are distinct. -/
theorem Twins.beside (h : Twins k s t) (hs : s.IsTabled) (hnumbered : s.IsNumbered)
    {es : List Event} (hids : s.HasDistinctIds settings es) :
    Beside settings k s es t (es.filterMap (Event.without k)) := by
  induction es generalizing s t with
  | nil => exact .nil h
  | cons e es ih =>
    have hlater {t' : Session} (h' : Twins k (s.step settings e).1 t') :=
      ih h' (hs.step settings hnumbered e) (hnumbered.step settings e) (hids.tail settings)
    cases e with
    | received payload =>
      have hsent : (s.receive settings payload).2 = (t.receive settings payload).2 := by
        rw [replies_receive, h.bare, ← replies_receive]
      exact .received h payload hsent (hlater (h.receive settings hs payload))
    | completed n =>
      by_cases hn : n = k
      · subst hn
        rw [List.filterMap_cons_none (by simp [Event.without])]
        exact .missing h (hlater (h.complete_self settings hs hnumbered hids.nodup))
      · obtain ⟨m, rfl⟩ : ∃ m, n = pastNumber k m := ⟨_, (pastNumber_backNumber hn).symm⟩
        have hkept : Event.without k (.completed (pastNumber k m)) = some (.completed m) := by
          simp [Event.without, pastNumber_ne, backNumber_pastNumber]
        rw [List.filterMap_cons_some hkept]
        obtain ⟨htwins, hsent⟩ := h.complete settings m
        exact .completed h m hsent (hlater htwins)

namespace Beside
variable {es es' : List Event}

theorem twins_run (h : Beside settings k s es t es') :
    Twins k (s.run settings es).1 (t.run settings es').1 := by
  induction h with
  | nil h => exact h
  | missing _ _ ih | completed _ _ _ _ ih | received _ _ _ _ ih => exact ih

theorem payloads_eq (h : Beside settings k s es t es') : payloads es' = payloads es := by
  induction h with
  | nil => rfl
  | missing _ _ ih | completed _ _ _ _ ih => exact ih
  | received _ payload _ _ ih => exact congrArg (payload :: ·) ih

/-- What the one session sends the other sends too, in the same order. -/
theorem sublist_run (h : Beside settings k s es t es') :
    (t.run settings es').2.Sublist (s.run settings es).2 := by
  induction h with
  | nil => exact .slnil
  | missing _ _ ih => exact ih.trans (List.sublist_append_right _ _)
  | @completed s t es es' _ n hsent _ ih =>
    show ((t.complete settings n).2 ++ _).Sublist ((s.complete settings (pastNumber k n)).2 ++ _)
    rw [hsent]
    exact ih.append_left _
  | @received s t es es' _ payload hsent _ ih =>
    show ((t.receive settings payload).2 ++ _).Sublist ((s.receive settings payload).2 ++ _)
    rw [hsent]
    exact ih.append_left _

/-- A request that both sessions have is answered alike. -/
theorem answersTo_eq (h : Beside settings k s es t es') (n : Nat) :
    answersTo settings n t es' = answersTo settings (pastNumber k n) s es := by
  induction h with
  | nil => rfl
  | missing _ _ ih =>
    rw [answersTo_completed_of_ne settings (pastNumber_ne k n).symm]
    exact ih
  | received _ _ _ _ ih => exact ih
  | completed _ m hsent _ ih =>
    by_cases hm : m = n
    · subst hm
      rw [answersTo_completed_self, answersTo_completed_self, hsent, ih]
    · rw [answersTo_completed_of_ne settings hm,
        answersTo_completed_of_ne settings (mt pastNumber_inj.1 hm), ih]

/-- All messages that both sessions receive are answered alike. -/
theorem answered_eq (h : Beside settings k s es t es') :
    answered settings t es' = answered settings s es := by
  induction h with
  | nil => rfl
  | missing _ _ ih | completed _ _ _ _ ih => exact ih
  | @received s t es es' h payload hsent more ih =>
    have hnext : s.next = pastNumber k t.next := by
      have hle := h.le
      rw [h.next, pastNumber, if_neg (by omega)]
    have hreplies : (Exchange.mk t payload es').replies settings =
        (Exchange.mk s payload es).replies settings := by
      rw [replies_mk, replies_mk, hsent, requestOf?, requestOf?, h.question?]
      cases t.question? payload with
      | none => rfl
      | some q => simp [more.answersTo_eq settings, hnext]
    exact congrArg₂ List.cons (congrArg (Prod.mk payload) hreplies) ih

theorem hasDistinctIds (h : Beside settings k s es t es') (hids : s.HasDistinctIds settings es) :
    t.HasDistinctIds settings es' := by
  induction h with
  | nil h => exact (hasDistinctIds_nil settings).2 (h.nodup_ids hids.nodup)
  | missing _ _ ih => exact ih (hids.tail settings)
  | completed h _ _ _ ih | received h _ _ _ ih =>
    exact (hasDistinctIds_cons settings).2 ⟨h.nodup_ids hids.nodup, ih (hids.tail settings)⟩

end Beside
end Run
end Session
end ScriptNav.Server
