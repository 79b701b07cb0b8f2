/-
# Integers in range, along an execution

No integer that an execution binds, computes or places is out of range. The scope in which a list
of steps is open binds integers in range alone: the first list is opened in the empty scope, a call
adds arguments of the caller's scope, and a loop adds its counter. The counter is not checked when
it goes on by the stride; but it is bound only as long as it has not passed the last value of the
loop, and so it lies between two values that were checked.

Key definitions: `Block.InRange`, `Task.InRange`, `Stage.InRange`.
Key theorems: `inRange_enterCall`, `runLoop_congr`, `RunContext.Moves.inRange`,
`Program.inRange_stage`.
-/
import Mathlib.Order.Interval.Set.UnorderedInterval
import VoxelBlueprint.Proofs.Execution.Runs
import VoxelBlueprint.Proofs.Expression.Ranges

namespace VoxelBlueprint

open Effects Stage

/-- What lies between two integers in range is in range. -/
theorem Expression.inRange_of_mem_uIcc {a b v : Int} (ha : InRange a) (hb : InRange b)
    (hv : v ∈ Set.uIcc a b) : InRange v := by
  unfold InRange at *
  rcases Set.mem_uIcc.mp hv with ⟨h, h'⟩ | ⟨h, h'⟩ <;> omega

/-- Whether the coordinates of a block are in range. -/
structure Block.InRange (block : Block) : Prop where
  x : Expression.InRange block.x
  y : Expression.InRange block.y
  z : Expression.InRange block.z

/-! ### The values of a step -/

section Values

variable {limits : Limits} {scope : Scope}

theorem inRange_integerAt {path : Path} {value : Json} {n : Int}
    (h : integerAt limits scope path value = .ok n) : Expression.InRange n := by
  unfold integerAt at h
  cases hc : Expression.coerce scope limits.maxExpressionDepth value with
  | error fault => rw [hc] at h; cases h
  | ok v =>
    rw [hc] at h
    cases h
    exact Expression.inRange_of_coerce hc

/-- The coordinates of a block are in range. -/
theorem inRange_coordinatesAt {path : Path} {x y z : Json} {p : Int × Int × Int}
    (h : coordinatesAt limits scope path x y z = .ok p) (blockType : String) :
    Block.InRange ⟨p.1, p.2.1, p.2.2, blockType⟩ := by
  obtain ⟨_, hx, h⟩ := bind_eq_ok h
  obtain ⟨_, hy, h⟩ := bind_eq_ok h
  obtain ⟨_, hz, h⟩ := bind_eq_ok h
  cases h
  exact ⟨inRange_integerAt hx, inRange_integerAt hy, inRange_integerAt hz⟩

/-- The ends of a loop are in range. -/
theorem inRange_loopRange {start stop step : Json} {first last stride : Int}
    (h : loopRange limits scope start stop step = .ok (first, last, stride)) :
    Expression.InRange first ∧ Expression.InRange last := by
  obtain ⟨_, hf, h⟩ := bind_eq_ok h
  obtain ⟨_, hl, h⟩ := bind_eq_ok h
  obtain ⟨_, -, h⟩ := bind_eq_ok h
  split at h
  · cases h
  · cases h
    exact ⟨inRange_integerAt hf, inRange_integerAt hl⟩

theorem inRange_argumentAt (hs : scope.InRange) {path : Path} {value : Json} {n : Int}
    (h : argumentAt limits scope path value = .ok (.int n)) : Expression.InRange n := by
  unfold argumentAt at h
  cases hc : Expression.coerceArgument scope limits.maxExpressionDepth value with
  | error fault => rw [hc] at h; cases h
  | ok v =>
    rw [hc] at h
    cases h
    exact Expression.inRange_of_coerceArgument hs hc

/-- The arguments of a call are in range if the scope of the caller is. -/
theorem inRange_bindArguments (hs : scope.InRange) {callee : String} :
    ∀ {asked : List (String × Option Json)} {bindings : Scope},
      bindArguments limits scope callee asked = .ok bindings → bindings.InRange
  | [], _, h => by
    cases h
    exact .nil
  | (name, some value) :: asked, _, h => by
    obtain ⟨argument, ha, h⟩ := bind_eq_ok h
    obtain ⟨bindings, hb, h⟩ := bind_eq_ok h
    cases h
    exact (inRange_bindArguments hs hb).bind name fun n hn => inRange_argumentAt hs (hn ▸ ha)

/-- The scope of a call is in range if the scope of the caller is. -/
theorem inRange_enterCall {c : RunContext} (hs : scope.InRange) {callee : String}
    {arguments : List (String × Json)} {entered : List Step × Scope}
    (h : enterCall c scope callee arguments = .ok entered) : entered.2.InRange := by
  unfold enterCall at h
  cases hd : c.program.find? callee with
  | none => rw [hd] at h; cases h
  | some d =>
    rw [hd] at h
    obtain ⟨bindings, hb, h⟩ := bind_eq_ok h
    cases h
    exact (inRange_bindArguments hs hb).append hs

end Values

/-! ### Counters -/

/-- A counter that goes on and has not passed the last value is between the last value and the one
that it had before. -/
theorem mem_uIcc_of_remains {last stride value : Int}
    (h : Remains last stride (value + stride)) : value + stride ∈ Set.uIcc value last := by
  unfold Remains at h
  rw [Set.mem_uIcc]
  split at h
  · exact .inl ⟨by omega, h⟩
  · exact .inr ⟨h, by omega⟩

section Counters

variable {c : RunContext} {inner inner' : Executor} {scope : Scope} {counter : String}
  {body : List Step}

/-- Executors that agree on the values that a counter may still take do the same in the rest of
the loop. -/
theorem iterate_congr {last stride : Int} (hs : stride ≠ 0) :
    ∀ (count : Nat) (value : Int), loopCount value last stride = count →
      (∀ v ∈ Set.uIcc value last,
        inner body (scope.bind counter (.int v)) = inner' body (scope.bind counter (.int v))) →
      iterate c inner scope counter stride body count value =
        iterate c inner' scope counter stride body count value := by
  intro count
  induction count with
  | zero => exact fun _ _ _ => rfl
  | succ count ih =>
    intro value hc h
    obtain ⟨hr, hc'⟩ := remains_of_loopCount hs hc
    have hbody := h value Set.left_mem_uIcc
    have hrest : iterate c inner scope counter stride body count (value + stride) =
        iterate c inner' scope counter stride body count (value + stride) := by
      by_cases hr' : Remains last stride (value + stride)
      · refine ih (value + stride) hc' fun v hv => h v ?_
        exact Set.uIcc_subset_uIcc_right (mem_uIcc_of_remains hr') hv
      · -- the counter has passed the last value, so nothing of the loop is left
        rw [loopCount_eq_zero hs hr'] at hc'
        subst hc'
        rfl
    unfold iterate
    rw [hbody, hrest]

/-- **A loop binds its counter to integers in range between its first and its last value**: whatever
executes its body, it matters only what is done for these. -/
theorem runLoop_congr {start stop step : Json} {first last stride : Int}
    (hr : loopRange c.limits scope start stop step = .ok (first, last, stride))
    (h : ∀ v ∈ Set.uIcc first last, Expression.InRange v →
      inner body (scope.bind counter (.int v)) = inner' body (scope.bind counter (.int v))) :
    runLoop c inner scope counter start stop step body =
      runLoop c inner' scope counter start stop step body := by
  obtain ⟨hf, hl⟩ := inRange_loopRange hr
  funext s
  rw [runLoop_apply, runLoop_apply, hr]
  simp only
  rw [iterate_congr (stride_ne_zero hr) _ first rfl fun v hv =>
    h v hv (Expression.inRange_of_mem_uIcc hf hl hv)]

end Counters

/-! ### Stages -/

/-- The scope of a part of an agenda. -/
def Task.scope : Task → Scope
  | .steps scope _ => scope
  | .loop scope _ _ _ _ _ => scope

/-- Whether a part of an agenda has to do with integers in range alone: those in its scope and,
for a loop, its last value and the next one, unless this is past it. -/
def Task.InRange (task : Task) : Prop :=
  task.scope.InRange ∧
    match task with
    | .steps _ _ => True
    | .loop _ _ last stride _ value =>
      Expression.InRange last ∧ (Remains last stride value → Expression.InRange value)

/-- What is left to do at a stage, which is nothing if the execution was rejected. -/
def Stage.agenda : Stage RunState → Agenda
  | .ok agenda _ => agenda
  | .error _ _ => []

/-- Whether everything that is left to do, and everything that was placed, is in range. -/
structure Stage.InRange (a : Stage RunState) : Prop where
  agenda : ∀ task ∈ a.agenda, task.InRange
  output : ∀ block ∈ a.state.output.toList, block.InRange

namespace RunContext

variable {c : RunContext} {rest : Agenda} {s : RunState} {stage : Stage RunState}

/-- What a step in a scope in range puts on the agenda and places is in range. -/
theorem Begins.inRange {scope : Scope} {step : Step} (h : c.Begins scope rest s step stage)
    (hs : scope.InRange) (hrest : ∀ task ∈ rest, task.InRange)
    (ho : ∀ block ∈ s.output.toList, block.InRange) : stage.InRange := by
  have rejected (r : Rejection) (s' : RunState) (hs' : s'.output = s.output) :
      Stage.InRange (.error r s') :=
    ⟨List.forall_mem_nil _, by rw [state, hs']; exact ho⟩
  cases h with
  | @place x y z blockType p h =>
    refine ⟨hrest, ?_⟩
    rw [state, RunState.output_place, Array.toList_push]
    exact List.forall_mem_append.mpr ⟨ho, List.forall_mem_singleton.mpr (inRange_coordinatesAt h _)⟩
  | skip => exact ⟨hrest, ho⟩
  | loop _ h =>
    obtain ⟨hf, hl⟩ := inRange_loopRange h
    exact ⟨List.forall_mem_cons.mpr ⟨⟨hs, hl, fun _ => hf⟩, hrest⟩, ho⟩
  | call _ h =>
    exact ⟨List.forall_mem_cons.mpr ⟨⟨inRange_enterCall hs h, trivial⟩, hrest⟩, ho⟩
  | placeFailed | loopFailed | tooManyCalls | callFailed | callTooDeep | invalid =>
    exact rejected _ _ rfl

/-- A transition keeps everything in range. -/
theorem Moves.inRange {agenda : Agenda} (h : c.Moves agenda s stage)
    (ha : ∀ task ∈ agenda, task.InRange) (ho : ∀ block ∈ s.output.toList, block.InRange) :
    stage.InRange := by
  cases h with
  | idle => exact ⟨ha, ho⟩
  | done | full | passed => exact ⟨(List.forall_mem_cons.mp ha).2, ho⟩
  | bodyTooDeep | tooManySteps => exact ⟨List.forall_mem_nil _, ho⟩
  | @body scope counter last stride value body rest _ _ hr =>
    obtain ⟨⟨hs, hl, hv⟩, hrest⟩ := List.forall_mem_cons.mp ha
    have hbody : (scope.bind counter (.int value)).InRange :=
      Scope.InRange.bind hs counter fun n hn => by
        cases hn
        exact hv hr
    have hnext : Remains last stride (value + stride) → Expression.InRange (value + stride) :=
      fun hr' => Expression.inRange_of_mem_uIcc (hv hr) hl (mem_uIcc_of_remains hr')
    exact ⟨List.forall_mem_cons.mpr ⟨⟨hbody, trivial⟩,
      List.forall_mem_cons.mpr ⟨⟨hs, hl, hnext⟩, hrest⟩⟩, ho⟩
  | step _ _ hb =>
    obtain ⟨⟨hs, -⟩, hrest⟩ := List.forall_mem_cons.mp ha
    exact hb.inRange hs (List.forall_mem_cons.mpr ⟨⟨hs, trivial⟩, hrest⟩) ho

end RunContext

/-! ### Runs from the start -/

/-- **Everything is in range at every stage of a run.** -/
theorem Program.inRange_stage (limits : Limits) (p : Program) (ledger : Ledger) (n : ℕ) :
    (p.stage limits ledger n).InRange := by
  induction n with
  | zero =>
    rw [stage_zero]
    split
    · exact ⟨List.forall_mem_singleton.mpr ⟨.nil, trivial⟩, List.forall_mem_nil _⟩
    · exact ⟨List.forall_mem_nil _, List.forall_mem_nil _⟩
  | succ n ih =>
    cases ha : p.stage limits ledger n with
    | ok agenda s =>
      rw [ha] at ih
      exact (moves_stage ha).inRange ih.agenda ih.output
    | error r s =>
      rw [stage_succ, ha]
      rw [ha] at ih
      exact ih

end VoxelBlueprint
