/-
# Executions with higher ceilings on the work

The ceilings on steps, calls and depth only ever end a run. Two executions of one program
that differ in nothing but these ceilings do the same until the work has come to exceed one
of the lower ceilings. There the execution under the lower ones is rejected, and the other
one goes on with work that only grows. So a run that was not rejected for its work ends in
the same way under higher ceilings, and a run whose work stays within lower ceilings ends in
the same way under these.

Key definitions: `Limits.AllowsMore`, `Work.Exceeds`, `Overruns`.
Key theorems: `RunContext.Moves.exceeds_of_runaway`, `RunContext.Moves.exceeds`,
`Overruns.next`, `Program.run_under_higher_ceilings`.
-/
import VoxelBlueprint.Proofs.Execution.Bounds

namespace VoxelBlueprint

open Stage

/-- The value of one of the ceilings on the work. -/
def Limits.ceiling (limits : Limits) : Ceiling → Int
  | .callDepth => limits.maxCallDepth
  | .executedSteps => limits.maxSteps
  | .callCount => limits.maxCalls

/-- How limits that allow at least as much work stand to others: they are the same but for
the ceilings on the work, which are no lower. -/
structure Limits.AllowsMore (limits' limits : Limits) : Prop where
  maxBlocks : limits'.maxBlocks = limits.maxBlocks
  maxExpressionDepth : limits'.maxExpressionDepth = limits.maxExpressionDepth
  ceiling (ceiling : Ceiling) : limits.ceiling ceiling ≤ limits'.ceiling ceiling

/-- How much of what a ceiling is about was done. The depth of a list of steps is the number
of lists around it. -/
def Work.amount (w : Work) : Ceiling → Int
  | .callDepth => w.levels - 1
  | .executedSteps => w.steps
  | .callCount => w.calls

/-- Whether work exceeds a ceiling. -/
def Work.Exceeds (limits : Limits) (w : Work) (ceiling : Ceiling) : Prop :=
  limits.ceiling ceiling < w.amount ceiling

instance (limits : Limits) (w : Work) (ceiling : Ceiling) : Decidable (w.Exceeds limits ceiling) :=
  inferInstanceAs (Decidable (limits.ceiling ceiling < w.amount ceiling))

/-- The context with other limits. -/
def RunContext.withLimits (c : RunContext) (limits : Limits) : RunContext :=
  { c with limits }

namespace RunContext

variable {c : RunContext}

/-! ### What a ceiling is exceeded by -/

/-- Where no more lists of steps may be opened, one more exceeds the ceiling on the depth. -/
theorem exceeds_countLevels {levels : Nat} (h : c.maxLevels ≤ levels) (s : RunState) :
    (s.countLevels (levels + 1)).work.Exceeds c.limits .callDepth := by
  unfold maxLevels at h
  show c.limits.maxCallDepth < ((max s.work.levels (levels + 1) : ℕ) : Int) - 1
  omega

theorem Begins.exceeds_of_runaway {scope : Scope} {rest : Agenda} {s s' : RunState} {step : Step}
    {ceiling : Ceiling} {limit : Int}
    (h : c.Begins scope rest s step (.error (.runaway ceiling limit) s')) :
    limit = c.limits.ceiling ceiling ∧ s'.work.Exceeds c.limits ceiling := by
  cases h with
  | placeFailed h => cases isRunaway_coordinatesAt h
  | loopFailed h => cases isRunaway_loopRange h
  | callFailed _ h => cases isRunaway_enterCall h
  | tooManyCalls h => exact ⟨rfl, h⟩
  | callTooDeep _ _ h => exact ⟨rfl, exceeds_countLevels h _⟩

/-- A rejection for exceeding a ceiling names the ceiling, and the work exceeds it. -/
theorem Moves.exceeds_of_runaway {agenda : Agenda} {s s' : RunState} {ceiling : Ceiling}
    {limit : Int} (h : c.Moves agenda s (.error (.runaway ceiling limit) s')) :
    limit = c.limits.ceiling ceiling ∧ s'.work.Exceeds c.limits ceiling := by
  cases h with
  | bodyTooDeep _ _ h => exact ⟨rfl, exceeds_countLevels h _⟩
  | tooManySteps _ h => exact ⟨rfl, h⟩
  | step _ _ h => exact h.exceeds_of_runaway

/-! ### The work only grows -/

theorem Begins.levels_le {scope : Scope} {rest : Agenda} {s : RunState} {step : Step}
    {stage : Stage RunState} (h : c.Begins scope rest s step stage) :
    s.work.levels ≤ stage.state.work.levels := by
  cases h with
  | callTooDeep | call => exact le_max_left _ _
  | _ => exact le_refl _

/-- The greatest number of lists that were open at once only grows. -/
theorem Moves.levels_le {agenda : Agenda} {s : RunState} {stage : Stage RunState}
    (h : c.Moves agenda s stage) : s.work.levels ≤ stage.state.work.levels := by
  cases h with
  | bodyTooDeep | body => exact le_max_left _ _
  | step _ _ hb => exact hb.levels_le
  | _ => exact le_refl _

/-- Work that grows goes on to exceed what it exceeds. -/
theorem exceeds_of_grows {limits : Limits} {s s' : RunState} (hg : s.Grows s')
    (hl : s.work.levels ≤ s'.work.levels) {ceiling : Ceiling}
    (h : s.work.Exceeds limits ceiling) : s'.work.Exceeds limits ceiling := by
  refine lt_of_lt_of_le h ?_
  cases ceiling with
  | callDepth => exact Int.sub_le_sub_right (Int.ofNat_le.mpr hl) 1
  | executedSteps => exact Int.ofNat_le.mpr hg.steps
  | callCount => exact Int.ofNat_le.mpr hg.calls

theorem exceeds_openSteps {limits : Limits} {s : RunState} {ceiling : Ceiling}
    (h : s.work.Exceeds limits ceiling) (scope : Scope) (steps : List Step) (rest : Agenda) :
    (state (c.openSteps scope steps rest s)).work.Exceeds limits ceiling := by
  have h' := exceeds_of_grows (RunState.Grows.countLevels s (rest.levels + 1)) (le_max_left _ _) h
  rw [openSteps_apply]
  split <;> exact h'

theorem Begins.exceeds {limits : Limits} {scope : Scope} {rest : Agenda} {s : RunState}
    {step : Step} {stage : Stage RunState} (h : c.Begins scope rest s step stage)
    {ceiling : Ceiling} (he : s.work.Exceeds limits ceiling) :
    stage.state.work.Exceeds limits ceiling :=
  exceeds_of_grows h.grows h.levels_le he

theorem Moves.exceeds {limits : Limits} {agenda : Agenda} {s : RunState} {stage : Stage RunState}
    (h : c.Moves agenda s stage) {ceiling : Ceiling} (he : s.work.Exceeds limits ceiling) :
    stage.state.work.Exceeds limits ceiling :=
  exceeds_of_grows h.grows h.levels_le he

end RunContext

/-! ### Two executions side by side -/

/-- How a stage of an execution under lower ceilings stands to the stage of the other one:
they are the same, or the former was rejected for exceeding a ceiling, which the work of the
latter exceeds as well. -/
inductive Overruns (limits : Limits) : Stage RunState → Stage RunState → Prop
  | same {a : Stage RunState} : Overruns limits a a
  | cut {ceiling : Ceiling} {limit : Int} {s : RunState} {a : Stage RunState} :
    a.state.work.Exceeds limits ceiling → Overruns limits (.error (.runaway ceiling limit) s) a

theorem Overruns.eq_or_exceeds {limits : Limits} {a b : Stage RunState} (h : Overruns limits a b) :
    a = b ∨ ∃ ceiling limit s,
      a = .error (.runaway ceiling limit) s ∧ b.state.work.Exceeds limits ceiling := by
  cases h with
  | same => exact .inl rfl
  | cut he => exact .inr ⟨_, _, _, rfl, he⟩

theorem Stage.ofResult_injective {σ : Type} (rest : Agenda) :
    Function.Injective (ofResult (σ := σ) rest) := by
  intro a b h
  cases a <;> cases b <;> cases h <;> rfl

section Simulation

variable {c : RunContext} {limits : Limits}

theorem openSteps_withLimits (h : limits.AllowsMore c.limits) (scope : Scope) (steps : List Step)
    (rest : Agenda) (s : RunState) :
    Overruns c.limits (c.openSteps scope steps rest s)
      ((c.withLimits limits).openSteps scope steps rest s) := by
  have hc : c.limits.maxCallDepth ≤ limits.maxCallDepth := h.ceiling .callDepth
  rw [RunContext.openSteps_apply, RunContext.openSteps_apply]
  by_cases hl : c.maxLevels ≤ rest.levels
  · rw [if_pos hl]
    have he := RunContext.exceeds_countLevels hl s
    exact .cut (by split <;> exact he)
  · have hl' : ¬ (c.withLimits limits).maxLevels ≤ rest.levels := by
      unfold RunContext.maxLevels RunContext.withLimits at *
      show ¬ (limits.maxCallDepth + 1).toNat ≤ rest.levels
      omega
    rw [if_neg hl, if_neg hl']
    exact .same

theorem beginStep_withLimits (h : limits.AllowsMore c.limits) (scope : Scope) (rest : Agenda)
    (s : RunState) (step : Step) :
    Overruns c.limits (c.beginStep scope rest step s)
      ((c.withLimits limits).beginStep scope rest step s) := by
  cases step with
  | place x y z blockType =>
    rw [RunContext.beginStep_place, RunContext.beginStep_place, RunContext.withLimits,
      coordinatesAt_congr h.maxExpressionDepth]
    exact .same
  | loop counter start stop stride body =>
    rw [RunContext.beginStep_loop, RunContext.beginStep_loop, RunContext.withLimits,
      loopRange_congr h.maxExpressionDepth]
    exact .same
  | call callee arguments =>
    have hc : c.limits.maxCalls ≤ limits.maxCalls := h.ceiling .callCount
    rw [RunContext.beginStep_call, RunContext.beginStep_call]
    by_cases hl : c.limits.maxCalls < s.countCall.work.calls
    · have he : s.countCall.work.Exceeds c.limits .callCount := hl
      rw [if_pos hl]
      refine .cut ?_
      split
      · exact he
      · split
        · exact RunContext.exceeds_openSteps he _ _ _
        · exact he
    · have hl' : ¬ (c.withLimits limits).limits.maxCalls < s.countCall.work.calls :=
        fun hlt => hl (lt_of_le_of_lt hc hlt)
      have he : enterCall (c.withLimits limits) = enterCall c :=
        enterCall_congr rfl h.maxExpressionDepth
      rw [if_neg hl, if_neg hl', he]
      cases enterCall c scope callee arguments with
      | error r => exact .same
      | ok entered => exact openSteps_withLimits h _ _ _ _
  | invalid malformation => exact .same

theorem isFull_withLimits (h : limits.AllowsMore c.limits) (s : RunState) :
    s.isFull (c.withLimits limits).limits = s.isFull c.limits := by
  unfold RunState.isFull RunContext.withLimits
  rw [h.maxBlocks]

/-- As long as the lower ceilings are not exceeded, the transitions are the same. -/
theorem transition_withLimits (h : limits.AllowsMore c.limits) (s : RunState) :
    ∀ agenda, Overruns c.limits (c.transition agenda s)
      ((c.withLimits limits).transition agenda s)
  | [] => .same
  | .steps _ [] :: _ => .same
  | .steps scope (step :: steps) :: rest => by
    have hf := isFull_withLimits h s
    have hs : c.limits.maxSteps ≤ limits.maxSteps := h.ceiling .executedSteps
    rw [RunContext.transition_step, RunContext.transition_step, hf]
    by_cases hfull : s.isFull c.limits
    · rw [if_pos hfull, if_pos hfull]
      exact .same
    rw [if_neg hfull, if_neg hfull]
    by_cases hl : c.limits.maxSteps < s.countStep.work.steps
    · have he : s.countStep.work.Exceeds c.limits .executedSteps := hl
      rw [if_pos hl]
      refine .cut ?_
      split
      · exact he
      · exact ((c.withLimits limits).begins_beginStep ..).exceeds he
    · have hl' : ¬ (c.withLimits limits).limits.maxSteps < s.countStep.work.steps :=
        fun hlt => hl (lt_of_le_of_lt hs hlt)
      rw [if_neg hl, if_neg hl']
      exact beginStep_withLimits h _ _ _ _
  | .loop scope counter last stride body value :: rest => by
    have hf := isFull_withLimits h s
    rw [RunContext.transition_loop, RunContext.transition_loop, hf]
    split
    · exact .same
    · exact openSteps_withLimits h _ _ _ _

theorem Overruns.next (h : limits.AllowsMore c.limits) {a b : Stage RunState}
    (hab : Overruns c.limits a b) :
    Overruns c.limits (next c.transition a) (next (c.withLimits limits).transition b) := by
  cases hab with
  | same =>
    cases a with
    | error r s => exact .same (a := .error r s)
    | ok agenda s => exact transition_withLimits h s agenda
  | cut he =>
    refine .cut ?_
    cases b with
    | error r s => exact he
    | ok agenda s => exact ((c.withLimits limits).moves_transition agenda s).exceeds he

theorem Overruns.iterate (h : limits.AllowsMore c.limits) {a b : Stage RunState}
    (hab : Overruns c.limits a b) (n : ℕ) :
    Overruns c.limits ((Stage.next c.transition)^[n] a)
      ((Stage.next (c.withLimits limits).transition)^[n] b) := by
  induction n generalizing a b with
  | zero => exact hab
  | succ n ih => exact ih (hab.next h)

end Simulation

/-! ### Runs from the start -/

namespace Program

variable {limits limits' : Limits} {p : Program} {ledger : Ledger}

/-- The outcome under higher ceilings: the same, or the work exceeds a lower ceiling that was
exceeded under the lower ones. -/
theorem outcome_under_higher_ceilings (p : Program) (ledger : Ledger)
    (h : limits'.AllowsMore limits) :
    Overruns limits (ofResult [] (p.outcome limits ledger))
      (ofResult [] (p.outcome limits' ledger)) := by
  obtain ⟨i, hi⟩ := p.eventually_outcome limits ledger
  obtain ⟨j, hj⟩ := p.eventually_outcome limits' ledger
  rw [← hi (max i j) (le_max_left i j), ← hj (max i j) (le_max_right i j)]
  let c := p.context limits ledger.store.current
  have hstart : Overruns limits (c.start { ledger }) ((c.withLimits limits').start { ledger }) :=
    openSteps_withLimits (c := c) h [] p.steps [] { ledger }
  exact hstart.iterate (c := c) h _

/-- A run that is rejected for exceeding a ceiling names the ceiling, and its work exceeds it. -/
theorem exceeds_of_run {ceiling : Ceiling} {limit : Int} {s : RunState}
    (h : p.run limits ledger = .error (.runaway ceiling limit) s) :
    limit = limits.ceiling ceiling ∧ s.work.Exceeds limits ceiling := by
  obtain ⟨n, hn⟩ := exists_stage_of_run_error h
  rcases exists_rejecting hn with h0 | ⟨m, agenda, t, ht, hm⟩
  · rw [stage_zero] at h0
    split at h0
    · cases h0
    · rename_i hd
      cases h0
      refine ⟨rfl, ?_⟩
      show limits.maxCallDepth < (1 : Int) - 1
      omega
  · exact (hm ▸ moves_stage ht).exceeds_of_runaway

/-- Under higher ceilings a run ends in the same way, or it was rejected for exceeding a ceiling,
which its work exceeds under the higher ceilings as well. -/
theorem run_eq_or_exceeds (p : Program) (ledger : Ledger) (h : limits'.AllowsMore limits) :
    p.run limits ledger = p.run limits' ledger ∨
      ∃ ceiling limit s, p.run limits ledger = .error (.runaway ceiling limit) s ∧
        (p.finalState limits' ledger).work.Exceeds limits ceiling := by
  rcases (outcome_under_higher_ceilings p ledger h).eq_or_exceeds with
    he | ⟨ceiling, limit, s, he, hx⟩
  · refine .inl ?_
    rw [run_eq, run_eq, ofResult_injective [] he]
  · have ho : p.outcome limits ledger = .error (.runaway ceiling limit) s :=
      ofResult_injective [] he
    rw [← work_finalState] at hx
    exact .inr ⟨ceiling, limit, s, by rw [run_eq, ho], hx⟩

/-- **Ceilings on the work are transparent unless they are exceeded.** A run that is not
rejected for exceeding a ceiling ends in the same way under higher ceilings. A run whose work
does not exceed lower ceilings ends in the same way under these. A run that is rejected for
exceeding a ceiling names it and does exceed it, and so does the run under higher ceilings.
The blocks of a program stay the same under higher ceilings. -/
theorem run_under_higher_ceilings (p : Program) (ledger : Ledger)
    (h : limits'.AllowsMore limits) :
    ((∀ ceiling limit s, p.run limits ledger ≠ .error (.runaway ceiling limit) s) →
      p.run limits' ledger = p.run limits ledger) ∧
    ((∀ ceiling, ¬ (p.finalState limits' ledger).work.Exceeds limits ceiling) →
      p.run limits ledger = p.run limits' ledger) ∧
    (∀ ceiling limit s, p.run limits ledger = .error (.runaway ceiling limit) s →
      limit = limits.ceiling ceiling ∧ s.work.Exceeds limits ceiling ∧
        (p.finalState limits' ledger).work.Exceeds limits ceiling) ∧
    (∀ blocks ledger', p.expand limits ledger = .ok blocks ledger' →
      p.expand limits' ledger = .ok blocks ledger') := by
  rcases run_eq_or_exceeds p ledger h with he | ⟨ceiling, limit, s, hr, hx⟩
  · refine ⟨fun _ => he.symm, fun _ => he, ?_, ?_⟩
    · intro ceiling limit s hr
      obtain ⟨hl, hx⟩ := exceeds_of_run hr
      refine ⟨hl, hx, ?_⟩
      rw [he] at hr
      unfold finalState
      rw [hr]
      exact hx
    · intro blocks ledger' hb
      rw [expand_eq] at hb ⊢
      rw [← he]
      exact hb
  · refine ⟨fun hn => absurd hr (hn ceiling limit s), fun hn => absurd hx (hn ceiling), ?_, ?_⟩
    · intro ceiling' limit' s' hr'
      obtain ⟨hl, hx'⟩ := exceeds_of_run hr'
      rw [hr] at hr'
      cases hr'
      exact ⟨hl, hx', hx⟩
    · intro blocks ledger' hb
      rw [expand_eq, hr] at hb
      cases hb

/-- A definition that places a block, called twice. -/
def posts : Program :=
  { steps := [.call "post" [("at", .int 0)], .call "post" [("at", .int 4)]]
    definitions :=
      [{ name := "post", steps := [.place (.str "at") (.int 0) (.int 0) (.str "a")] }] }

/-- What the posts come to, and no more. -/
def justEnough : Limits := { maxSteps := 4, maxCalls := 2, maxCallDepth := 1 }

theorem run_under_higher_ceilings_posts :
    (∃ s, posts.run justEnough quarry = .ok () s ∧ posts.run {} quarry = .ok () s) ∧
      posts.run justEnough quarry = posts.run {} quarry ∧
      (posts.finalState {} quarry).work.Exceeds { maxCalls := 1 } .callCount ∧
      ∃ ledger, posts.expand {} quarry =
        .ok [⟨0, 0, 0, "minecraft:a"⟩, ⟨4, 0, 0, "minecraft:a"⟩] ledger := by
  have more : ({} : Limits).AllowsMore justEnough := ⟨rfl, rfl, fun c => by cases c <;> decide⟩
  have more' : ({} : Limits).AllowsMore { maxCalls := 1 } :=
    ⟨rfl, rfl, fun c => by cases c <;> decide⟩
  have ends : posts.run justEnough quarry = .ok ()
      { ledger := quarry.record (.programRun 2 4 2)
        output := #[⟨0, 0, 0, "minecraft:a"⟩, ⟨4, 0, 0, "minecraft:a"⟩]
        work := { steps := 4, calls := 2, levels := 2 } } := by decide +kernel
  have overrun : posts.run { maxCalls := 1 } quarry = .error (.runaway .callCount 1)
      { ledger := quarry
        output := #[⟨0, 0, 0, "minecraft:a"⟩]
        work := { steps := 3, calls := 2, levels := 2 } } := by decide +kernel
  have h := run_under_higher_ceilings posts quarry more
  have ends' := (h.1 fun ceiling limit s hr => by rw [ends] at hr; cases hr).trans ends
  have built : posts.expand justEnough quarry =
      .ok [⟨0, 0, 0, "minecraft:a"⟩, ⟨4, 0, 0, "minecraft:a"⟩]
        (quarry.record (.programRun 2 4 2)) := by rw [expand_eq, ends]
  refine ⟨⟨_, ends, ends'⟩, h.2.1 fun ceiling => ?_,
    ((run_under_higher_ceilings posts quarry more').2.2.1 _ _ _ overrun).2.2, _,
    h.2.2.2 _ _ built⟩
  unfold finalState
  rw [ends']
  cases ceiling <;> decide

end Program
end VoxelBlueprint
