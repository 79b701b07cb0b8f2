/-
# Executions with any room

How many lists of steps an execution may still open is its room. A program starts with the
room that the ceiling on the depth gives; a list of steps that is executed as if others were
open already has less, and it has more if the depth it is given is below zero. It does what it
would do as a whole program under the ceiling that its room amounts to. All that differs is the
record of how many lists were open at once, and the ceiling that a rejection names.

Key definitions: `RunContext.withRoom`, `Beside`, `Executor.Beside`.
Key theorems: `runSteps_beside`, `execute_withRoom`.
-/
import VoxelBlueprint.Proofs.Execution.Adequacy

namespace VoxelBlueprint

open Effects

/-- The context under the ceiling on the depth that so much room amounts to. -/
def RunContext.withRoom (c : RunContext) (room : Nat) : RunContext :=
  { c with limits := { c.limits with maxCallDepth := room - 1 } }

theorem RunContext.maxLevels_withRoom (c : RunContext) (room : Nat) :
    (c.withRoom room).maxLevels = room := by
  show ((room : Int) - 1 + 1).toNat = room
  omega

/-- The state with another record of how many lists were open at once. -/
def RunState.withLevels (s : RunState) (levels : Nat) : RunState :=
  { s with work := { s.work with levels } }

/-- Whether two parts of a run end alike, in states that are the same but for the record of how
many lists were open at once. -/
inductive Beside : EStateM.Result Rejection RunState Unit →
    EStateM.Result Rejection RunState Unit → Prop
  | ok (s : RunState) (levels : Nat) : Beside (.ok () s) (.ok () (s.withLevels levels))
  | error (r r' : Rejection) (s : RunState) (levels : Nat) :
    Beside (.error r s) (.error r' (s.withLevels levels))

/-- Whether two executors end alike from such states. -/
def Executor.Beside (inner inner' : Executor) : Prop :=
  ∀ (steps : List Step) (scope : Scope) (s : RunState) (levels : Nat),
    VoxelBlueprint.Beside (inner steps scope s) (inner' steps scope (s.withLevels levels))

section Execution

variable {c : RunContext} {room : Nat} {inner inner' : Executor}

theorem iterate_beside (hi : inner.Beside inner') (scope : Scope) (counter : String) (stride : Int)
    (body : List Step) : ∀ (count : Nat) (value : Int) (s : RunState) (levels : Nat),
      Beside (iterate c inner scope counter stride body count value s)
        (iterate (c.withRoom room) inner' scope counter stride body count value
          (s.withLevels levels))
  | 0, _, s, levels => .ok s levels
  | count + 1, value, s, levels => by
    have hb := hi body (scope.bind counter (.int value)) s.countIteration levels
    have hs : (s.withLevels levels).countIteration = s.countIteration.withLevels levels := rfl
    rw [iterate_succ, iterate_succ, hs]
    generalize inner body (scope.bind counter (.int value)) s.countIteration = a at hb ⊢
    generalize inner' body (scope.bind counter (.int value)) _ = a' at hb ⊢
    cases hb with
    | error r r' t n => exact .error r r' t n
    | ok t n =>
      have hf : (t.withLevels n).isFull (c.withRoom room).limits = t.isFull c.limits := rfl
      simp only [hf]
      split
      · exact .ok t n
      · exact iterate_beside hi scope counter stride body count (value + stride) t n

theorem runStep_beside (hi : inner.Beside inner') (scope : Scope) (step : Step) (s : RunState)
    (levels : Nat) : Beside (runStep c inner scope step s)
      (runStep (c.withRoom room) inner' scope step (s.withLevels levels)) := by
  have hd : (c.withRoom room).limits.maxExpressionDepth = c.limits.maxExpressionDepth := rfl
  cases step with
  | place x y z blockType =>
    rw [runStep, runStep, runPlace, runPlace, ofExcept_bind_apply, ofExcept_bind_apply,
      coordinatesAt_congr hd]
    cases coordinatesAt c.limits scope [.field "place"] x y z with
    | error r => exact .error r r s levels
    | ok p => exact .ok (s.place c scope p.1 p.2.1 p.2.2 blockType) levels
  | loop counter start stop stride body =>
    rw [runStep, runStep, runLoop_apply, runLoop_apply, loopRange_congr hd]
    cases loopRange c.limits scope start stop stride with
    | error r => exact .error r r s levels
    | ok range =>
      cases body with
      | nil => exact .ok s levels
      | cons step body => exact iterate_beside hi scope counter _ _ _ _ s levels
  | call callee arguments =>
    have he : enterCall (c.withRoom room) = enterCall c := enterCall_congr rfl hd
    have hs : (s.withLevels levels).countCall = s.countCall.withLevels levels := rfl
    have hc : (s.countCall.withLevels levels).work.calls = s.countCall.work.calls := rfl
    have hm : (c.withRoom room).limits.maxCalls = c.limits.maxCalls := rfl
    rw [runStep, runStep, runCall_apply, runCall_apply, he, hs, hc, hm]
    split
    · exact .error _ _ s.countCall levels
    · cases enterCall c scope callee arguments with
      | error r => exact .error r r s.countCall levels
      | ok entered => exact hi entered.1 entered.2 s.countCall levels
  | invalid malformation => exact .error _ _ s levels

/-- **Steps end alike when the lists inside them do.** -/
theorem runSteps_beside (hi : inner.Beside inner') (scope : Scope) :
    ∀ (steps : List Step) (s : RunState) (levels : Nat), Beside (runSteps c inner scope steps s)
      (runSteps (c.withRoom room) inner' scope steps (s.withLevels levels))
  | [], s, levels => .ok s levels
  | step :: steps, s, levels => by
    have hf : (s.withLevels levels).isFull (c.withRoom room).limits = s.isFull c.limits := rfl
    have hs : (s.withLevels levels).countStep = s.countStep.withLevels levels := rfl
    have hn : (s.countStep.withLevels levels).work.steps = s.countStep.work.steps := rfl
    have hm : (c.withRoom room).limits.maxSteps = c.limits.maxSteps := rfl
    rw [runSteps_cons, runSteps_cons, hf, hs, hn, hm]
    split
    · exact .ok s levels
    · split
      · exact .error _ _ s.countStep levels
      · have hb : Beside (runStep c inner scope step s.countStep)
            (runStep (c.withRoom room) inner' scope step (s.countStep.withLevels levels)) :=
          runStep_beside hi scope step s.countStep levels
        generalize runStep c inner scope step s.countStep = a at hb ⊢
        generalize runStep (c.withRoom room) inner' scope step _ = a' at hb ⊢
        cases hb with
        | error r r' t n => exact .error r r' t n
        | ok t n => exact runSteps_beside hi scope steps t n

/-- **An execution does what it would do under the ceiling that some room amounts to.** -/
theorem execute_withRoom (c : RunContext) (room : Nat) :
    ∀ n : Nat, Executor.Beside (execute c n) (execute (c.withRoom room) n)
  | 0 => fun _ _ s levels => .error _ _ (s.countLevels (c.maxLevels + 1))
      (max levels ((c.withRoom room).maxLevels + 1))
  | n + 1 => fun steps scope s levels =>
    runSteps_beside (execute_withRoom c room n) scope steps (s.countLevels (c.maxLevels - n))
      (max levels ((c.withRoom room).maxLevels - n))

end Execution
end VoxelBlueprint
