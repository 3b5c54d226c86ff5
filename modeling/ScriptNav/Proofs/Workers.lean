import Mathlib.Data.List.Nodup
import Mathlib.Logic.Relation

/-! Workers that share a list of tasks. Tasks are taken up in their order while fewer than `limit` are
at work, they finish in any order, and each one writes what it finds into a slot of its own. However a
run goes, its slots hold the results in the order of the tasks, and no run gets stuck before that. -/
namespace ScriptNav.Workers

open Relation

variable {α : Type}

/-- How many tasks were taken up, which of them are at work, and what the slots hold. -/
structure Pool (α : Type) where
  taken : Nat
  atWork : List Nat
  slots : List α

namespace Pool

def start (zero : α) (count : Nat) : Pool α := ⟨0, [], List.replicate count zero⟩

/-- A task is taken up, or a task at work finishes with its result. -/
inductive Step (limit : Nat) (results : List α) : Pool α → Pool α → Prop
  | take {p : Pool α} (h : p.taken < results.length) (hl : p.atWork.length < limit) :
      Step limit results p { p with taken := p.taken + 1, atWork := p.taken :: p.atWork }
  | finish {p : Pool α} {i : Nat} {result : α} (h : i ∈ p.atWork) (hr : results[i]? = some result) :
      Step limit results p { p with atWork := p.atWork.erase i, slots := p.slots.set i result }

/-- A run of steps. -/
abbrev Runs (limit : Nat) (results : List α) : Pool α → Pool α → Prop :=
  ReflTransGen (Step limit results)

def IsFinished (p : Pool α) (count : Nat) : Prop := p.taken = count ∧ p.atWork = []

/-- Every task that is done has its result in its slot. -/
structure Inv (results : List α) (p : Pool α) : Prop where
  length : p.slots.length = results.length
  taken_le : p.taken ≤ results.length
  nodup : p.atWork.Nodup
  lt_taken : ∀ i ∈ p.atWork, i < p.taken
  done : ∀ i < p.taken, i ∉ p.atWork → p.slots[i]? = results[i]?

variable {limit : Nat} {results : List α} {p q : Pool α}

theorem inv_start (zero : α) (results : List α) : Inv results (start zero results.length) where
  length := by simp [start]
  taken_le := Nat.zero_le _
  nodup := List.nodup_nil
  lt_taken := by simp [start]
  done := by simp [start]

theorem Step.inv (h : Step limit results p q) (hp : Inv results p) : Inv results q := by
  cases h with
  | take h hl =>
    refine ⟨hp.length, h, ?_, ?_, ?_⟩
    · exact List.nodup_cons.2 ⟨fun hm => absurd (hp.lt_taken _ hm) (Nat.lt_irrefl _), hp.nodup⟩
    · intro i hi
      rcases List.mem_cons.1 hi with rfl | hi
      · exact Nat.lt_succ_self _
      · exact Nat.lt_succ_of_lt (hp.lt_taken i hi)
    · intro i hi hnot
      simp only [List.mem_cons, not_or] at hnot
      simp only at hi
      exact hp.done i (by omega) hnot.2
  | @finish i result h hr =>
    refine ⟨by rw [List.length_set]; exact hp.length, hp.taken_le, hp.nodup.erase i, ?_, ?_⟩
    · exact fun j hj => hp.lt_taken j (List.mem_of_mem_erase hj)
    · intro j hj hnot
      have hlt : i < p.slots.length := by
        have := hp.lt_taken i h
        have := hp.taken_le
        have := hp.length
        omega
      by_cases hji : i = j
      · rw [← hji, List.getElem?_set_self hlt, hr]
      · rw [List.getElem?_set_ne hji]
        exact hp.done j hj fun hm => hnot ((List.mem_erase_of_ne (Ne.symm hji)).2 hm)

theorem Runs.inv (h : Runs limit results p q) (hp : Inv results p) : Inv results q := by
  induction h with
  | refl => exact hp
  | tail _ hstep ih => exact hstep.inv ih

/-- When all tasks are done, the slots are the results. -/
theorem Inv.slots_eq (hp : Inv results p) (hf : p.IsFinished results.length) : p.slots = results := by
  refine List.ext_getElem? fun i => ?_
  by_cases hi : i < results.length
  · exact hp.done i (by rw [hf.1]; exact hi) (by simp [hf.2])
  · rw [List.getElem?_eq_none (by rw [hp.length]; omega), List.getElem?_eq_none (by omega)]

/-- From every state of a run all tasks can be brought to an end. -/
theorem Inv.exists_finished (hl : results ≠ [] → 0 < limit) (hp : Inv results p) :
    ∃ q, Runs limit results p q ∧ q.IsFinished results.length := by
  induction hn : 2 * (results.length - p.taken) + p.atWork.length using Nat.strongRecOn
    generalizing p with
  | ind n ih =>
    have htaken := hp.taken_le
    cases hw : p.atWork with
    | nil =>
      by_cases ht : p.taken = results.length
      · exact ⟨p, .refl, ht, hw⟩
      · have hlt : p.taken < results.length := by omega
        have hpos := hl (List.ne_nil_of_length_pos (by omega))
        have hstep : Step limit results p _ := .take hlt (by simpa [hw] using hpos)
        obtain ⟨q, hq, hf⟩ := ih _ (by simp [hw] at hn ⊢; omega) (hstep.inv hp) rfl
        exact ⟨q, .head hstep hq, hf⟩
    | cons i atWork =>
      have hi : i ∈ p.atWork := by simp [hw]
      have hlt : i < results.length := Nat.lt_of_lt_of_le (hp.lt_taken i hi) htaken
      have hstep : Step limit results p _ := .finish hi (List.getElem?_eq_getElem hlt)
      have hlen : (p.atWork.erase i).length < p.atWork.length := by simp [hw]
      obtain ⟨q, hq, hf⟩ := ih _ (by simp only; omega) (hstep.inv hp) rfl
      exact ⟨q, .head hstep hq, hf⟩

end Pool
end ScriptNav.Workers
