/-
# Programs cut off at a level

Lists of steps stand one inside the other as the bodies of loops. A run that may open only so many
lists at once comes to none that stands deeper, so it does the same when the program is cut off
there, in its own steps and in those of its definitions.

What is delicate is the cut itself. A loop with an empty body does not open it, so of a body that
lies below the cut it still counts whether it is empty, and only a body with steps in it may be
replaced by another one with steps in it.

Key definitions: `stump`, `cutSteps`, `Program.cut`.
Key theorems: `runStep_cut`, `execute_cut`, `runProgram_cut`.
-/
import VoxelBlueprint.Proofs.Execution.Repairs

namespace VoxelBlueprint

/-! ### Cuts -/

/-- What is left of a list of steps below the cut: whether it is empty. -/
def stump (steps : List Step) : List Step :=
  if steps.isEmpty then [] else [.invalid ⟨.stepsNestedTooDeeply, []⟩]

/-- The step with what a function makes of its body, if it is a loop. -/
def Step.mapBody (f : List Step → List Step) : Step → Step
  | .loop counter start stop stride body => .loop counter start stop stride (f body)
  | step => step

/-- The steps with so many levels of lists left, this one included. -/
def cutSteps : Nat → List Step → List Step
  | 0 => stump
  | levels + 1 => List.map (Step.mapBody (cutSteps levels))

/-- The definition with so many levels of lists left. -/
def Definition.cut (levels : Nat) (d : Definition) : Definition :=
  { d with steps := cutSteps levels d.steps }

/-- The program with so many levels of lists left in its steps and in its definitions. -/
def Program.cut (levels : Nat) (p : Program) : Program :=
  { p with
    steps := cutSteps levels p.steps
    definitions := p.definitions.map (Definition.cut levels) }

theorem isEmpty_stump (steps : List Step) : (stump steps).isEmpty = steps.isEmpty := by
  cases steps <;> rfl

/-- A list that is cut off is empty if it was empty. -/
theorem isEmpty_cutSteps (levels : Nat) (steps : List Step) :
    (cutSteps levels steps).isEmpty = steps.isEmpty := by
  cases levels with
  | zero => exact isEmpty_stump steps
  | succ levels => exact List.isEmpty_map

/-- A name has the definition that it had, cut off. -/
theorem Program.find?_cut (levels : Nat) (p : Program) (name : String) :
    (p.cut levels).find? name = (p.find? name).map (Definition.cut levels) := by
  unfold find? cut
  rw [List.find?_map]
  rfl

/-! ### The execution of what is left -/

section Execution

variable {c : RunContext} {levels : Nat}

/-- The context with its program cut off. -/
def RunContext.cut (levels : Nat) (c : RunContext) : RunContext :=
  c.withProgram (c.program.cut levels)

/-- A call enters the steps that it entered, cut off, in the same scope. -/
theorem enterCall_cut (scope : Scope) (callee : String) (arguments : List (String × Json)) :
    enterCall (c.cut levels) scope callee arguments =
      (enterCall c scope callee arguments).map fun entered =>
        (cutSteps levels entered.1, entered.2) := by
  have hf : (c.cut levels).program.find? callee =
      (c.program.find? callee).map (Definition.cut levels) := c.program.find?_cut levels callee
  unfold enterCall
  rw [hf]
  cases c.program.find? callee with
  | none => rfl
  | some d =>
    have ha : askedArguments (d.cut levels) arguments = askedArguments d arguments := rfl
    have hl : (c.cut levels).limits = c.limits := rfl
    simp only [Option.map_some, ha, hl]
    cases bindArguments c.limits scope callee (askedArguments d arguments) <;> rfl

/-- Whether an executor does with steps of which at least so many levels are left what another one
does with all of them. -/
def Executor.CutBy (room : Nat) (inner inner' : Executor) : Prop :=
  ∀ levels, room ≤ levels → ∀ steps, inner' (cutSteps levels steps) = inner steps

variable {inner inner' : Executor} {room : Nat}

theorem iterate_cut (hi : Executor.CutBy room inner inner') {below : Nat} (hb : room ≤ below)
    (scope : Scope) (counter : String) (stride : Int) (body : List Step) :
    ∀ (count : Nat) (value : Int),
      iterate (c.cut levels) inner' scope counter stride (cutSteps below body) count value =
        iterate c inner scope counter stride body count value
  | 0, _ => rfl
  | count + 1, value => by
    have hbody := hi below hb body
    have ih := iterate_cut hi hb scope counter stride body count (value + stride)
    have hl : (c.cut levels).limits = c.limits := rfl
    unfold iterate
    rw [hbody, ih, hl]

/-- **A step does the same when what it opens is cut off** no higher than it may be opened. -/
theorem runStep_cut (hi : Executor.CutBy room inner inner') {below : Nat} (hb : room ≤ below)
    (hl : room ≤ levels) (scope : Scope) (step : Step) :
    runStep (c.cut levels) inner' scope (step.mapBody (cutSteps below)) =
      runStep c inner scope step := by
  cases step with
  | place x y z blockType => rfl
  | loop counter start stop stride body =>
    funext s
    show runLoop _ _ _ _ _ _ _ _ s = runLoop _ _ _ _ _ _ _ _ s
    rw [runLoop_apply, runLoop_apply]
    have hlimits : (c.cut levels).limits = c.limits := rfl
    simp only [hlimits, isEmpty_cutSteps, iterate_cut hi hb]
  | call callee arguments =>
    funext s
    show runCall _ _ _ _ _ s = runCall _ _ _ _ _ s
    rw [runCall_apply, runCall_apply, enterCall_cut]
    have hlimits : (c.cut levels).limits = c.limits := rfl
    rw [hlimits]
    cases enterCall c scope callee arguments with
    | error r => rfl
    | ok entered =>
      obtain ⟨steps, scope⟩ := entered
      simp only [Except.map, hi levels hl steps]
  | invalid m => rfl

theorem runSteps_cut (hi : Executor.CutBy room inner inner') {below : Nat} (hb : room ≤ below)
    (hl : room ≤ levels) (scope : Scope) : ∀ steps : List Step,
      runSteps (c.cut levels) inner' scope (steps.map (Step.mapBody (cutSteps below))) =
        runSteps c inner scope steps
  | [] => rfl
  | step :: steps => by
    have hstep := runStep_cut (c := c) hi hb hl scope step
    have ih := runSteps_cut hi hb hl scope steps
    have hlimits : (c.cut levels).limits = c.limits := rfl
    rw [List.map_cons]
    unfold runSteps
    rw [hstep, ih, hlimits]

/-- **What is cut off below all that may be opened is not missed.** -/
theorem execute_cut : ∀ room, room ≤ levels →
    Executor.CutBy room (execute c room) (execute (c.cut levels) room)
  | 0, _ => fun _ _ _ => rfl
  | room + 1, hl => by
    intro k hk steps
    obtain ⟨below, rfl⟩ : ∃ below, k = below + 1 := ⟨k - 1, by omega⟩
    have ih := execute_cut room (Nat.le_of_succ_le hl)
    have hbelow : room ≤ below := by omega
    have hlevels : room ≤ levels := by omega
    have hsteps := fun scope => runSteps_cut (c := c) ih hbelow hlevels scope steps
    funext scope s
    exact congrFun (hsteps scope) (s.countLevels (c.maxLevels - room))

/-- A program does the same in any state when it is cut off below all that may be opened. -/
theorem runProgram_cut (hl : c.maxLevels ≤ levels) : runProgram (c.cut levels) = runProgram c := by
  have h := execute_cut (c := c) c.maxLevels hl levels hl c.program.steps
  have hm : (c.cut levels).maxLevels = c.maxLevels := rfl
  have hs : (c.cut levels).program.steps = cutSteps levels c.program.steps := rfl
  unfold runProgram
  rw [hm, hs, h]

end Execution
end VoxelBlueprint
