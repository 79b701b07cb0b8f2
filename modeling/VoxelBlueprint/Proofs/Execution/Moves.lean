/-
# The rules of transitions

Every transition of an execution is an instance of one of a few rules, each with the
condition under which it applies (`moves_transition`). What a transition keeps or
changes is shown rule by rule from here on, and the transition function is not opened
again.

Key definitions: `RunContext.Begins`, `RunContext.Moves`.
Key theorems: `RunContext.begins_beginStep`, `RunContext.moves_transition`.
-/
import VoxelBlueprint.Proofs.Execution.Adequacy

namespace VoxelBlueprint

namespace RunContext

variable (c : RunContext)

/-- The rules by which a step is begun before everything else on an agenda. -/
inductive Begins (scope : Scope) (rest : Agenda) (s : RunState) : Step → Stage RunState → Prop
  | place {x y z blockType : Json} {p : Int × Int × Int} :
    coordinatesAt c.limits scope [.field "place"] x y z = .ok p →
    Begins scope rest s (.place x y z blockType)
      (.ok rest (s.place c scope p.1 p.2.1 p.2.2 blockType))
  | placeFailed {x y z blockType : Json} {r : Rejection} :
    coordinatesAt c.limits scope [.field "place"] x y z = .error r →
    Begins scope rest s (.place x y z blockType) (.error r s)
  | skip {counter : String} {start stop step : Json} {range : Int × Int × Int} :
    loopRange c.limits scope start stop step = .ok range →
    Begins scope rest s (.loop counter start stop step []) (.ok rest s)
  | loop {counter : String} {start stop step : Json} {body : List Step}
    {first last stride : Int} : body ≠ [] →
    loopRange c.limits scope start stop step = .ok (first, last, stride) →
    Begins scope rest s (.loop counter start stop step body)
      (.ok (.loop scope counter last stride body first :: rest) s)
  | loopFailed {counter : String} {start stop step : Json} {body : List Step} {r : Rejection} :
    loopRange c.limits scope start stop step = .error r →
    Begins scope rest s (.loop counter start stop step body) (.error r s)
  | tooManyCalls {callee : String} {arguments : List (String × Json)} :
    c.limits.maxCalls < s.work.calls + 1 →
    Begins scope rest s (.call callee arguments)
      (.error (.runaway .callCount c.limits.maxCalls) s.countCall)
  | callFailed {callee : String} {arguments : List (String × Json)} {r : Rejection} :
    s.work.calls + 1 ≤ c.limits.maxCalls →
    enterCall c scope callee arguments = .error r →
    Begins scope rest s (.call callee arguments) (.error r s.countCall)
  | callTooDeep {callee : String} {arguments : List (String × Json)} {entered : List Step × Scope} :
    s.work.calls + 1 ≤ c.limits.maxCalls →
    enterCall c scope callee arguments = .ok entered → c.maxLevels ≤ rest.levels →
    Begins scope rest s (.call callee arguments)
      (.error (.runaway .callDepth c.limits.maxCallDepth)
        (s.countCall.countLevels (rest.levels + 1)))
  | call {callee : String} {arguments : List (String × Json)} {entered : List Step × Scope} :
    s.work.calls + 1 ≤ c.limits.maxCalls →
    enterCall c scope callee arguments = .ok entered → rest.levels < c.maxLevels →
    Begins scope rest s (.call callee arguments)
      (.ok (.steps entered.2 entered.1 :: rest) (s.countCall.countLevels (rest.levels + 1)))
  | invalid {m : Malformation} : Begins scope rest s (.invalid m) (.error (.malformed m) s)

/-- The rules of transitions. -/
inductive Moves : Agenda → RunState → Stage RunState → Prop
  | idle {s : RunState} : Moves [] s (.ok [] s)
  | done {scope : Scope} {rest : Agenda} {s : RunState} :
    Moves (.steps scope [] :: rest) s (.ok rest s)
  | full {task : Task} {rest : Agenda} {s : RunState} : s.isFull c.limits = true →
    Moves (task :: rest) s (.ok rest s)
  | passed {scope : Scope} {counter : String} {last stride value : Int} {body : List Step}
    {rest : Agenda} {s : RunState} : s.isFull c.limits = false → ¬ Remains last stride value →
    Moves (.loop scope counter last stride body value :: rest) s (.ok rest s)
  | bodyTooDeep {scope : Scope} {counter : String} {last stride value : Int} {body : List Step}
    {rest : Agenda} {s : RunState} : s.isFull c.limits = false → Remains last stride value →
    c.maxLevels ≤ rest.levels →
    Moves (.loop scope counter last stride body value :: rest) s
      (.error (.runaway .callDepth c.limits.maxCallDepth)
        (s.countIteration.countLevels (rest.levels + 1)))
  | body {scope : Scope} {counter : String} {last stride value : Int} {body : List Step}
    {rest : Agenda} {s : RunState} : s.isFull c.limits = false → Remains last stride value →
    rest.levels < c.maxLevels →
    Moves (.loop scope counter last stride body value :: rest) s
      (.ok (.steps (scope.bind counter (.int value)) body ::
          .loop scope counter last stride body (value + stride) :: rest)
        (s.countIteration.countLevels (rest.levels + 1)))
  | tooManySteps {scope : Scope} {step : Step} {steps : List Step} {rest : Agenda} {s : RunState} :
    s.isFull c.limits = false → c.limits.maxSteps < s.work.steps + 1 →
    Moves (.steps scope (step :: steps) :: rest) s
      (.error (.runaway .executedSteps c.limits.maxSteps) s.countStep)
  | step {scope : Scope} {step : Step} {steps : List Step} {rest : Agenda} {s : RunState}
    {stage : Stage RunState} : s.isFull c.limits = false →
    s.work.steps + 1 ≤ c.limits.maxSteps →
    c.Begins scope (.steps scope steps :: rest) s.countStep step stage →
    Moves (.steps scope (step :: steps) :: rest) s stage

theorem begins_beginStep (scope : Scope) (rest : Agenda) (s : RunState) (step : Step) :
    c.Begins scope rest s step (c.beginStep scope rest step s) := by
  cases step with
  | place x y z blockType =>
    rw [beginStep_place]
    cases h : coordinatesAt c.limits scope [.field "place"] x y z with
    | error r => exact .placeFailed h
    | ok p => exact .place h
  | loop counter start stop stride body =>
    rw [beginStep_loop]
    cases h : loopRange c.limits scope start stop stride with
    | error r => exact .loopFailed h
    | ok range =>
      cases body with
      | nil => exact .skip h
      | cons step body => exact .loop (List.cons_ne_nil _ _) h
  | call callee arguments =>
    rw [beginStep_call]
    split
    · rename_i hc
      exact .tooManyCalls hc
    · rename_i hc
      have hc : s.work.calls + 1 ≤ c.limits.maxCalls := Int.not_lt.mp hc
      cases h : enterCall c scope callee arguments with
      | error r => exact .callFailed hc h
      | ok entered =>
        simp only [openSteps_apply]
        split
        · exact .callTooDeep hc h ‹_›
        · exact .call hc h (by omega)
  | invalid m =>
    rw [beginStep_invalid]
    exact .invalid

/-- Every transition is an instance of a rule. -/
theorem moves_transition : ∀ (agenda : Agenda) (s : RunState),
    c.Moves agenda s (c.transition agenda s)
  | [], s => by
    rw [transition_nil]
    exact .idle
  | .steps scope [] :: rest, s => by
    rw [transition_done]
    exact .done
  | .steps scope (step :: steps) :: rest, s => by
    rw [transition_step]
    split
    · exact .full ‹_›
    · rename_i hf
      have hf : s.isFull c.limits = false := by simpa using hf
      split
      · exact .tooManySteps hf ‹_›
      · rename_i hl
        exact .step hf (Int.not_lt.mp hl) (c.begins_beginStep _ _ _ _)
  | .loop scope counter last stride body value :: rest, s => by
    rw [transition_loop]
    by_cases hf : s.isFull c.limits
    · rw [if_pos (.inl hf)]
      exact .full hf
    · have hf' : s.isFull c.limits = false := by simpa using hf
      by_cases hr : Remains last stride value
      · rw [if_neg (by simp [hf', hr]), openSteps_apply]
        split
        · exact .bodyTooDeep hf' hr ‹_›
        · rename_i hl
          exact .body hf' hr (Nat.not_le.mp hl)
      · rw [if_pos (.inr hr)]
        exact .passed hf' hr

end RunContext
end VoxelBlueprint
