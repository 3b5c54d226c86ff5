import ScriptNav.Proofs.Workers

/-! Workers that stop when their request is cancelled. A task looks whether the request stands before
it begins, and once more if its work came to nothing; if the request is cancelled the task fails, and
the first failure cancels the request for the whole group. In a live request no task ever fails,
whatever its work comes to, and the group does what a pool does. In a cancelled request no task
begins. -/
namespace ScriptNav.Workers

open Relation

variable {α : Type}

/-- A pool with the tasks that have begun, and whether one of its tasks has failed. -/
structure TaskGroup (α : Type) where
  pool : Pool (Option α)
  begun : List Nat := []
  hasFailed : Bool := false

namespace TaskGroup

def start (count : Nat) : TaskGroup α := { pool := Pool.start none count }

/-- What a task can do. The list `results` holds what each task comes to: nothing if its work cannot
be done, and otherwise what it finds, which may be nothing too. -/
inductive Step (limit : Nat) (isCancelled : Bool) (results : List (Option (Option α))) :
    TaskGroup α → TaskGroup α → Prop
  | take {g : TaskGroup α} (h : g.pool.taken < results.length) (hl : g.pool.atWork.length < limit) :
      Step limit isCancelled results g { g with pool := { g.pool with
        taken := g.pool.taken + 1, atWork := g.pool.taken :: g.pool.atWork } }
  | begin {g : TaskGroup α} {i : Nat} (h : i ∈ g.pool.atWork)
      (hlive : (isCancelled || g.hasFailed) = false) :
      Step limit isCancelled results g { g with begun := i :: g.begun }
  | refuse {g : TaskGroup α} {i : Nat} (h : i ∈ g.pool.atWork) (hb : i ∉ g.begun)
      (hdead : (isCancelled || g.hasFailed) = true) :
      Step limit isCancelled results g
        { g with pool := { g.pool with atWork := g.pool.atWork.erase i }, hasFailed := true }
  | finish {g : TaskGroup α} {i : Nat} {result : Option (Option α)} (h : i ∈ g.pool.atWork)
      (hb : i ∈ g.begun) (hr : results[i]? = some result)
      (hlive : result = none → (isCancelled || g.hasFailed) = false) :
      Step limit isCancelled results g { g with pool := { g.pool with
        atWork := g.pool.atWork.erase i, slots := g.pool.slots.set i result.join } }
  | fail {g : TaskGroup α} {i : Nat} (h : i ∈ g.pool.atWork) (hb : i ∈ g.begun)
      (hr : results[i]? = some none) (hdead : (isCancelled || g.hasFailed) = true) :
      Step limit isCancelled results g
        { g with pool := { g.pool with atWork := g.pool.atWork.erase i }, hasFailed := true }

/-- A run of steps. -/
abbrev Runs (limit : Nat) (isCancelled : Bool) (results : List (Option (Option α))) :
    TaskGroup α → TaskGroup α → Prop :=
  ReflTransGen (Step limit isCancelled results)

/-- What a group that has finished comes to: nothing if the request was cancelled or a task has
failed, and otherwise what its tasks have found. -/
def outcome (isCancelled : Bool) (g : TaskGroup α) : Option (List α) :=
  if isCancelled || g.hasFailed then none else some (g.pool.slots.filterMap id)

variable {limit : Nat} {results : List (Option (Option α))} {g g' : TaskGroup α}

section Live

/-- In a live request no task fails, and each step is one of the pool or leaves the pool alone. -/
theorem Step.live (h : Step limit false results g g') (hg : g.hasFailed = false) :
    g'.hasFailed = false ∧ Pool.Runs limit (results.map Option.join) g.pool g'.pool := by
  cases h with
  | take h hl => exact ⟨hg, .single (.take (by simpa using h) hl)⟩
  | begin _ _ => exact ⟨hg, .refl⟩
  | finish h _ hr _ => exact ⟨hg, .single (.finish h (by simp [hr]))⟩
  | refuse _ _ hdead | fail _ _ _ hdead => simp [hg] at hdead

theorem Runs.live (h : Runs limit false results g g') (hg : g.hasFailed = false) :
    g'.hasFailed = false ∧ Pool.Runs limit (results.map Option.join) g.pool g'.pool := by
  induction h with
  | refl => exact ⟨hg, .refl⟩
  | tail _ hstep ih =>
    obtain ⟨hfailed, hpool⟩ := hstep.live ih.1
    exact ⟨hfailed, ih.2.trans hpool⟩

/-- What the pool does, the group can do: a task begins right before it finishes. -/
theorem exists_runs_of_step {q : Pool (Option α)} (hg : g.hasFailed = false)
    (h : Pool.Step limit (results.map Option.join) g.pool q) :
    ∃ g', Runs limit false results g g' ∧ g'.hasFailed = false ∧ g'.pool = q := by
  cases h with
  | take h hl => exact ⟨_, .single (.take (by simpa using h) hl), hg, rfl⟩
  | finish h hr =>
    rw [List.getElem?_map] at hr
    obtain ⟨result, hresult, rfl⟩ := Option.map_eq_some_iff.1 hr
    have hbegin : Step limit false results g _ := .begin h (by simpa using hg)
    exact ⟨_, .tail (.single hbegin) (.finish h List.mem_cons_self hresult fun _ => hg), hg, rfl⟩

theorem exists_runs_of_pool {p q : Pool (Option α)} (h : Pool.Runs limit (results.map Option.join) p q)
    (hg : g.hasFailed = false) (hp : g.pool = p) :
    ∃ g', Runs limit false results g g' ∧ g'.hasFailed = false ∧ g'.pool = q := by
  induction h with
  | refl => exact ⟨g, .refl, hg, hp⟩
  | tail _ hstep ih =>
    obtain ⟨g₁, hruns, hg₁, rfl⟩ := ih
    obtain ⟨g₂, hruns', hg₂, hq⟩ := exists_runs_of_step hg₁ hstep
    exact ⟨g₂, hruns.trans hruns', hg₂, hq⟩

end Live

section Cancelled

/-- In a cancelled request what the pool takes up is taken up, and what it finishes is refused. -/
theorem exists_runs_cancelled {p q : Pool (Option (Option α))}
    (h : Pool.Runs limit results p q) (htaken : g.pool.taken = p.taken)
    (hwork : g.pool.atWork = p.atWork) (hbegun : g.begun = []) :
    ∃ g', Runs limit true results g g' ∧ g'.pool.taken = q.taken ∧ g'.pool.atWork = q.atWork ∧
      g'.begun = [] := by
  induction h with
  | refl => exact ⟨g, .refl, htaken, hwork, hbegun⟩
  | tail _ hstep ih =>
    obtain ⟨g₁, hruns, htaken, hwork, hbegun⟩ := ih
    cases hstep with
    | take h hl =>
      refine ⟨_, hruns.tail (.take (htaken ▸ h) (hwork ▸ hl)), ?_, ?_, hbegun⟩
      · simp [htaken]
      · simp [htaken, hwork]
    | finish h _ =>
      refine ⟨_, hruns.tail (.refuse (hwork ▸ h) (by simp [hbegun]) rfl), htaken, ?_, hbegun⟩
      simp [hwork]

end Cancelled

/-- A group in a live request that has finished holds what its tasks have found. -/
theorem Runs.outcome_live (h : Runs limit false results (start results.length) g)
    (hf : g.pool.IsFinished results.length) :
    g.outcome false = some (results.filterMap Option.join) := by
  obtain ⟨hfailed, hpool⟩ := h.live rfl
  have hlen : (results.map Option.join).length = results.length := List.length_map _
  have hinv := hpool.inv (hlen ▸ Pool.inv_start none (results.map Option.join))
  rw [outcome, hfailed, hinv.slots_eq (hlen ▸ hf), List.filterMap_map]
  rfl

/-- A group can be brought to an end, in a live request and in a cancelled one. -/
theorem exists_finished (hl : results ≠ [] → 0 < limit) (isCancelled : Bool) :
    ∃ g, Runs limit isCancelled results (start results.length) g ∧
      g.pool.IsFinished results.length := by
  cases isCancelled with
  | false =>
    have hlen : (results.map Option.join).length = results.length := List.length_map _
    have hpos : results.map Option.join ≠ [] → 0 < limit := by simpa using hl
    obtain ⟨q, hq, hf⟩ := (Pool.inv_start none (results.map Option.join)).exists_finished hpos
    obtain ⟨g, hruns, -, hpool⟩ := exists_runs_of_pool (g := start results.length) hq rfl
      (by rw [hlen]; rfl)
    exact ⟨g, hruns, by rw [hpool, ← hlen]; exact hf⟩
  | true =>
    obtain ⟨q, hq, hf⟩ := (Pool.inv_start none results).exists_finished hl
    obtain ⟨g, hruns, htaken, hwork, -⟩ :=
      exists_runs_cancelled (g := start results.length) hq rfl rfl rfl
    exact ⟨g, hruns, htaken.trans hf.1, hwork.trans hf.2⟩

end TaskGroup
end ScriptNav.Workers
