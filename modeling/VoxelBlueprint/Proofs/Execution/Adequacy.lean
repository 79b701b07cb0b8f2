/-
# The transitions come to the end that is computed

`execute` says in one go what a list of steps comes to. The transitions of an agenda on
which the list was opened lead to the same: to the rest of the agenda in the state in
which `execute` ends, or to its rejection. The statement is about every rest of an
agenda, so that it can be used inside loops and calls; only as many levels must be left
above the rest as `execute` may still open.

Key definitions: `Executor.Follows`.
Key theorems: `execute_leads`, `start_leads`.
-/
import VoxelBlueprint.Proofs.Execution.State
import VoxelBlueprint.Proofs.Execution.Transition

namespace VoxelBlueprint

open Effects Stage

/-! ### What the executor does -/

section Equations

variable (c : RunContext) (inner : Executor) (scope : Scope) (s : RunState)

theorem runSteps_nil : runSteps c inner scope [] s = .ok () s := rfl

theorem runSteps_cons (step : Step) (rest : List Step) :
    runSteps c inner scope (step :: rest) s =
      if s.isFull c.limits then .ok () s
      else if c.limits.maxSteps < s.countStep.work.steps then
        .error (.runaway .executedSteps c.limits.maxSteps) s.countStep
      else
        match runStep c inner scope step s.countStep with
        | .ok _ s => runSteps c inner scope rest s
        | .error r s => .error r s := by
  rw [runSteps, get_bind_apply]
  split
  · rfl
  · rw [modify_bind_apply, get_bind_apply]
    refine (unless_apply _ _ _ _).trans (if_congr Iff.rfl rfl ?_)
    refine (bind_apply (runStep c inner scope step) _ _).trans ?_
    cases runStep c inner scope step s.countStep <;> rfl

theorem iterate_succ (counter : String) (stride : Int) (body : List Step) (count : Nat)
    (value : Int) :
    iterate c inner scope counter stride body (count + 1) value s =
      match inner body (scope.bind counter (.int value)) s.countIteration with
      | .ok _ s =>
        if s.isFull c.limits then .ok () s
        else iterate c inner scope counter stride body count (value + stride) s
      | .error r s => .error r s := by
  rw [iterate, modify_bind_apply, bind_apply]
  cases inner body (scope.bind counter (.int value)) s.countIteration with
  | error r s => rfl
  | ok _ s =>
    simp only [get_bind_apply]
    split <;> rfl

theorem runLoop_apply (counter : String) (start stop stride : Json) (body : List Step) :
    runLoop c inner scope counter start stop stride body s =
      match loopRange c.limits scope start stop stride with
      | .ok (first, last, stride) =>
        if body.isEmpty then .ok () s
        else iterate c inner scope counter stride body (loopCount first last stride) first s
      | .error r => .error r s := by
  rw [runLoop, ofExcept_bind_apply]
  cases loopRange c.limits scope start stop stride with
  | error r => rfl
  | ok range => cases body <;> rfl

theorem runCall_apply (callee : String) (arguments : List (String × Json)) :
    runCall c inner scope callee arguments s =
      if c.limits.maxCalls < s.countCall.work.calls then
        .error (.runaway .callCount c.limits.maxCalls) s.countCall
      else
        match enterCall c scope callee arguments with
        | .ok (steps, scope) => inner steps scope s.countCall
        | .error r => .error r s.countCall := by
  rw [runCall, modify_bind_apply, get_bind_apply]
  refine (unless_apply _ _ _ _).trans (if_congr Iff.rfl rfl ?_)
  refine (ofExcept_bind_apply (enterCall c scope callee arguments) _ _).trans ?_
  cases enterCall c scope callee arguments <;> rfl

theorem runProgram_apply : runProgram c s =
    match execute c c.maxLevels c.program.steps [] s with
    | .ok _ s => .ok () (s.record s.endEvent)
    | .error r s => .error r s := by
  rw [runProgram, bind_apply]
  cases execute c c.maxLevels c.program.steps [] s <;> rfl

end Equations

/-! ### The executor and the transitions -/

section Follow

variable {c : RunContext} {inner : Executor} {rest : Agenda}

/-- Opening a list of steps on top of `rest` leads to where an executor ends. -/
def Executor.Follows (c : RunContext) (inner : Executor) (levels : Nat) : Prop :=
  ∀ rest : Agenda, rest.levels = levels → ∀ steps scope s,
    Leads c.transition (c.openSteps scope steps rest s) (ofResult rest (inner steps scope s))

theorem iterate_leads (h : inner.Follows c rest.levels) (scope : Scope) (counter : String)
    {last stride : Int} (hs : stride ≠ 0) (body : List Step) :
    ∀ (count : Nat) (value : Int) (s : RunState), loopCount value last stride = count →
      s.isFull c.limits = false →
      Leads c.transition (.ok (.loop scope counter last stride body value :: rest) s)
        (ofResult rest (iterate c inner scope counter stride body count value s)) := by
  intro count
  induction count with
  | zero =>
    intro value s hn hf
    refine Leads.one ?_
    rw [RunContext.transition_loop, if_pos (.inr (not_remains_of_loopCount hs hn))]
    rfl
  | succ count ih =>
    intro value s hn hf
    obtain ⟨hr, hn'⟩ := remains_of_loopCount hs hn
    refine Leads.cons ((RunContext.transition_loop ..).trans (if_neg (by simp [hf, hr]))) ?_
    have hi := h (.loop scope counter last stride body (value + stride) :: rest) rfl body
      (scope.bind counter (.int value)) s.countIteration
    rw [iterate_succ]
    cases hb : inner body (scope.bind counter (.int value)) s.countIteration with
    | error r s' => rw [hb] at hi; exact hi
    | ok u s' =>
      rw [hb] at hi
      refine hi.trans ?_
      show Leads _ (.ok _ s') (ofResult rest (if s'.isFull c.limits then .ok () s' else _))
      split
      · rename_i hf'
        exact Leads.one (RunContext.transition_full hf' ..)
      · rename_i hf'
        exact ih (value + stride) s' hn' (by simpa using hf')

theorem runStep_leads (h : inner.Follows c rest.levels) (scope : Scope) (step : Step)
    (s : RunState) (hf : s.isFull c.limits = false) :
    Leads c.transition (c.beginStep scope rest step s)
      (ofResult rest (runStep c inner scope step s)) := by
  cases step with
  | place x y z blockType =>
    rw [RunContext.beginStep_place, runStep, runPlace, ofExcept_bind_apply]
    cases coordinatesAt c.limits scope [.field "place"] x y z <;> exact Leads.refl _
  | loop counter start stop stride body =>
    rw [RunContext.beginStep_loop, runStep, runLoop_apply]
    cases hr : loopRange c.limits scope start stop stride with
    | error r => exact Leads.refl _
    | ok range =>
      obtain ⟨first, last, stride⟩ := range
      cases body with
      | nil => exact Leads.refl _
      | cons step body =>
        exact iterate_leads h scope counter (stride_ne_zero hr) _ _ first s rfl hf
  | call callee arguments =>
    rw [RunContext.beginStep_call, runStep, runCall_apply]
    split
    · exact Leads.refl _
    · cases enterCall c scope callee arguments with
      | error r => exact Leads.refl _
      | ok entered => exact h rest rfl entered.1 entered.2 s.countCall
  | invalid malformation => exact Leads.refl _

theorem runSteps_leads (h : inner.Follows c (rest.levels + 1)) (scope : Scope) :
    ∀ (steps : List Step) (s : RunState),
      Leads c.transition (.ok (.steps scope steps :: rest) s)
        (ofResult rest (runSteps c inner scope steps s))
  | [], s => Leads.one (RunContext.transition_done ..)
  | step :: steps, s => by
    rw [runSteps_cons]
    split
    · rename_i hf
      exact Leads.one (RunContext.transition_full hf ..)
    · rename_i hf
      have ht := RunContext.transition_step c scope steps rest s step
      rw [if_neg hf] at ht
      split <;> rename_i hl
      · rw [if_pos hl] at ht
        exact Leads.one ht
      · rw [if_neg hl] at ht
        have h' : inner.Follows c (Agenda.levels (.steps scope steps :: rest)) := h
        have hb := runStep_leads h' scope step s.countStep
          (by rw [RunState.isFull_congr _ s.output_countStep]; simpa using hf)
        refine Leads.cons ht ?_
        cases hr : runStep c inner scope step s.countStep with
        | error r s' => rw [hr] at hb; exact hb
        | ok u s' => rw [hr] at hb; exact hb.trans (runSteps_leads h scope steps s')

end Follow

/-- **The transitions come to the end that `execute` computes.** Where as many levels are
left above an agenda as `execute` may open, opening a list of steps on it leads to the
agenda in the state in which `execute` ends, or to its rejection. -/
theorem execute_leads (c : RunContext) :
    ∀ (room : Nat) (rest : Agenda), rest.levels + room = c.maxLevels → ∀ steps scope s,
      Leads c.transition (c.openSteps scope steps rest s)
        (ofResult rest (execute c room steps scope s))
  | 0, rest, hl, steps, scope, s => by
    rw [RunContext.openSteps_apply, if_pos (by omega)]
    have : c.maxLevels + 1 = rest.levels + 1 := by omega
    rw [execute, modify_bind_apply, this]
    exact Leads.refl _
  | room + 1, rest, hl, steps, scope, s => by
    rw [RunContext.openSteps_apply, if_neg (by omega)]
    have : c.maxLevels - room = rest.levels + 1 := by omega
    rw [execute, modify_bind_apply, this]
    refine runSteps_leads (fun agenda ha => ?_) scope steps _
    exact execute_leads c room agenda (by omega)

/-- The transitions from the start of a program come to the end of its execution. -/
theorem start_leads (c : RunContext) (s : RunState) :
    Leads c.transition (c.start s) (ofResult [] (execute c c.maxLevels c.program.steps [] s)) :=
  execute_leads c c.maxLevels [] (by simp [Agenda.levels]) _ _ _

end VoxelBlueprint
