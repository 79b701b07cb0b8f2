/-
# Executions with a lower ceiling on the blocks

Two executions of one program that differ only in the ceiling on the blocks do the same
until the lower ceiling is reached. From then on the execution with the lower ceiling only
clears its agenda, and whatever the other one does, it goes on from the same state. So
the lower ceiling cuts off the output and nothing else.

Key definitions: `RunContext.withMaxBlocks`, `Truncates`.
Key theorems: `Truncates.next`, `Program.run_withMaxBlocks`.
-/
import VoxelBlueprint.Proofs.Execution.Runs

namespace VoxelBlueprint

open Stage

/-- The limits with another ceiling on the blocks. -/
def Limits.withMaxBlocks (limits : Limits) (n : Int) : Limits :=
  { limits with maxBlocks := n }

/-- The context with another ceiling on the blocks. -/
def RunContext.withMaxBlocks (c : RunContext) (n : Int) : RunContext :=
  { c with limits := c.limits.withMaxBlocks n }

/-- How a stage of an execution with the lower ceiling stands to the stage of the other
one: they are the same, or the output is full and the other one has gone on from it. -/
inductive Truncates (limits : Limits) : Stage RunState → Stage RunState → Prop
  | same {a : Stage RunState} : Truncates limits a a
  | cut {agenda : Agenda} {s : RunState} {a : Stage RunState} :
    s.isFull limits = true → s.Grows a.state → Truncates limits (.ok agenda s) a

section Simulation

variable {c : RunContext} {m : Int}

/-- Beginning a step does not depend on the ceiling on the blocks. -/
theorem beginStep_withMaxBlocks (scope : Scope) (rest : Agenda) (s : RunState) (step : Step) :
    (c.withMaxBlocks m).beginStep scope rest step s = c.beginStep scope rest step s := by
  cases step with
  | call callee arguments =>
    have h : enterCall (c.withMaxBlocks m) = enterCall c := enterCall_congr rfl rfl
    rw [RunContext.beginStep_call, RunContext.beginStep_call, h]
    rfl
  | _ => rfl

/-- As long as there is room under both ceilings, the transitions are the same. -/
theorem transition_withMaxBlocks {s : RunState} (hm : s.isFull (c.withMaxBlocks m).limits = false)
    (hc : s.isFull c.limits = false) :
    ∀ agenda, (c.withMaxBlocks m).transition agenda s = c.transition agenda s
  | [] => rfl
  | .steps _ [] :: _ => rfl
  | .steps scope (step :: steps) :: rest => by
    rw [RunContext.transition_step, RunContext.transition_step, beginStep_withMaxBlocks, hm, hc]
    rfl
  | .loop scope counter last stride body value :: rest => by
    rw [RunContext.transition_loop, RunContext.transition_loop, hm, hc]
    rfl

theorem isFull_of_le {limits limits' : Limits} (h : limits.maxBlocks ≤ limits'.maxBlocks)
    {s : RunState} (hf : s.isFull limits = false) : s.isFull limits' = false := by
  rw [Bool.eq_false_iff, Ne, RunState.isFull_iff] at hf ⊢
  omega

/-- A full execution goes on to clear its agenda, in the same state. -/
theorem next_of_full {s : RunState} (h : s.isFull c.limits = true) (agenda : Agenda) :
    next c.transition (.ok agenda s) = .ok agenda.tail s := by
  cases agenda with
  | nil => rfl
  | cons task rest => exact RunContext.transition_full h task rest

theorem Truncates.next (hm : m ≤ c.limits.maxBlocks) {a b : Stage RunState}
    (h : Truncates (c.withMaxBlocks m).limits b a) :
    Truncates (c.withMaxBlocks m).limits (next (c.withMaxBlocks m).transition b)
      (next c.transition a) := by
  cases h with
  | same =>
    cases a with
    | error r s => exact .same
    | ok agenda s =>
      by_cases hf : s.isFull (c.withMaxBlocks m).limits
      · rw [next_of_full hf]
        exact .cut hf (grows_next (.ok agenda s))
      · have hf : s.isFull (c.withMaxBlocks m).limits = false := by simpa using hf
        have ht := transition_withMaxBlocks hf (isFull_of_le hm hf) agenda
        rw [Stage.next, Stage.next, ht]
        exact .same
  | cut hf hg =>
    rw [next_of_full hf]
    exact .cut hf (hg.trans (grows_next a))

theorem Truncates.iterate (hm : m ≤ c.limits.maxBlocks) {a b : Stage RunState}
    (h : Truncates (c.withMaxBlocks m).limits b a) (n : ℕ) :
    Truncates (c.withMaxBlocks m).limits ((Stage.next (c.withMaxBlocks m).transition)^[n] b)
      ((Stage.next c.transition)^[n] a) := by
  induction n generalizing a b with
  | zero => exact h
  | succ n ih => exact ih (h.next hm)

theorem Truncates.of_error {limits : Limits} {r : Rejection} {s : RunState} {a : Stage RunState}
    (h : Truncates limits (.error r s) a) : a = .error r s := by
  cases h
  rfl

theorem Truncates.grows {limits : Limits} {b a : Stage RunState} (h : Truncates limits b a) :
    b.state.Grows a.state := by
  cases h with
  | same => exact .refl _
  | cut _ hg => exact hg

/-- The output under the lower ceiling is a prefix, and as long as the ceiling allows. -/
theorem Truncates.toList_eq_take {limits : Limits} {agenda : Agenda} {s : RunState}
    {a : Stage RunState} (h : Truncates limits (.ok agenda s) a)
    (hs : s.output.size ≤ limits.maxBlocks.toNat) :
    s.output.toList = a.state.output.toList.take limits.maxBlocks.toNat := by
  cases h with
  | same => exact (List.take_of_length_le (by simpa [Stage.state] using hs)).symm
  | cut hf hg =>
    have hl : s.output.toList.length = limits.maxBlocks.toNat := by
      have := (RunState.isFull_iff ..).mp hf
      rw [Array.length_toList]
      omega
    rw [← hl]
    exact List.prefix_iff_eq_take.mp hg.output

end Simulation

/-! ### Runs from the start -/

namespace Program

variable {limits : Limits} {p : Program} {ledger : Ledger}

/-- The outcome with a lower ceiling: the same, or a full output from which the run with the
higher ceiling has gone on. -/
theorem outcome_withMaxBlocks {m : Int} (hm : m ≤ limits.maxBlocks) :
    Truncates (limits.withMaxBlocks m) (ofResult [] (p.outcome (limits.withMaxBlocks m) ledger))
      (ofResult [] (p.outcome limits ledger)) := by
  obtain ⟨i, hi⟩ := p.eventually_outcome limits ledger
  obtain ⟨j, hj⟩ := p.eventually_outcome (limits.withMaxBlocks m) ledger
  rw [← hi (max i j) (le_max_left i j), ← hj (max i j) (le_max_right i j)]
  exact Truncates.iterate (c := p.context limits ledger.store.current) hm .same _

/-- **A lower ceiling on the blocks takes a prefix.** If a run ends well, or is rejected
when its output has reached the lower ceiling, then the run with the lower ceiling ends
well, with the first blocks and with no more work. -/
theorem run_withMaxBlocks (limits : Limits) {m : Int} (hm : m ≤ limits.maxBlocks)
    (hd : 0 ≤ limits.maxCallDepth) {s : RunState}
    (h : p.run limits ledger = .ok () s ∨
      ∃ r, p.run limits ledger = .error r s ∧ m ≤ s.output.size) :
    ∃ s', p.run (limits.withMaxBlocks m) ledger = .ok () s' ∧
      s'.output.toList = s.output.toList.take m.toNat ∧
      s'.work.steps ≤ s.work.steps ∧ s'.work.calls ≤ s.work.calls := by
  obtain ⟨n, hn⟩ := p.eventually_outcome (limits.withMaxBlocks m) ledger
  have ht : Truncates (limits.withMaxBlocks m)
      (ofResult [] (p.outcome (limits.withMaxBlocks m) ledger))
      (ofResult [] (p.outcome limits ledger)) := outcome_withMaxBlocks hm
  cases hm' : p.outcome (limits.withMaxBlocks m) ledger with
  | error r s' =>
    -- the rejection came before the lower ceiling, and the other run was rejected there too
    have hd' : 0 ≤ (limits.withMaxBlocks m).maxCallDepth := hd
    have hf : s'.isFull (limits.withMaxBlocks m) = false :=
      room_of_error hd' (by rw [hn n le_rfl, hm']; rfl)
    rw [hm'] at ht
    have ho := ht.of_error
    rcases h with h | ⟨r', h, hl⟩
    · obtain ⟨s₀, h₀, -⟩ := outcome_of_run_ok h
      rw [h₀] at ho
      cases ho
    · rw [outcome_of_run_error h] at ho
      cases ho
      rw [(RunState.isFull_iff ..).mpr hl] at hf
      cases hf
  | ok u s' =>
    have hs := p.size_stage (limits.withMaxBlocks m) ledger n
    rw [hn n le_rfl, hm'] at hs
    rw [hm'] at ht
    refine ⟨s'.record s'.endEvent, by rw [run_eq, hm'], ?_⟩
    have hl := ht.toList_eq_take hs
    have hg := ht.grows
    rcases h with h | ⟨r, h, -⟩
    · obtain ⟨s₀, h₀, rfl⟩ := outcome_of_run_ok h
      rw [h₀] at hl hg
      exact ⟨hl, hg.steps, hg.calls⟩
    · rw [outcome_of_run_error h] at hl hg
      exact ⟨hl, hg.steps, hg.calls⟩

end Program
end VoxelBlueprint
