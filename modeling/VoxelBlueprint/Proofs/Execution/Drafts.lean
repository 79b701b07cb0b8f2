/-
# Executions do not see the catalog

Whatever the catalog is, a program does the same: it opens the same lists of steps, counts
the same work, demands the same blocks and is rejected for the same reason, if it is. The
catalog only decides with which blocks the demands are met, and nothing that a program can
do depends on that. So there is one draft of an execution, which every catalog completes.

Key definitions: `Draft`, `RunState.Completes`, `Run.Oblivious`.
Key theorems: `runStep_oblivious`, `execute_oblivious`, `Program.run_oblivious`.
-/
import VoxelBlueprint.Proofs.Catalog.Demands
import VoxelBlueprint.Proofs.Execution.Runs
import VoxelBlueprint.Proofs.Oblivious

namespace VoxelBlueprint

open Effects

/-! ### Drafts -/

/-- What can be told of the state of a run without the catalog. -/
structure Draft where
  demands : List Demand := []
  work : Work := {}

namespace Draft

/-- The draft after more work. -/
def spend (f : Work → Work) (d : Draft) : Draft :=
  { d with work := f d.work }

/-- The draft with one more demand. -/
def demand (demand : Demand) (d : Draft) : Draft :=
  { d with demands := d.demands ++ [demand] }

end Draft

/-- Whether a state is a draft, the demands of which were met from the snapshot that was current
at the start. -/
structure RunState.Completes (start : Ledger) (d : Draft) (s : RunState) : Prop where
  work : s.work = d.work
  output : s.output.toList = d.demands.map (·.blockIn start.store.current)
  ledger : s.ledger.Resembles start

/-- Whether a part of a run is the same whatever the catalog is at the start. -/
abbrev Run.Oblivious {α : Type} (x : Ledger → Run α) : Prop :=
  Effects.Oblivious RunState.Completes (fun _ => id) x

namespace RunState.Completes

variable {start : Ledger} {d : Draft} {s : RunState}

theorem size (h : s.Completes start d) : s.output.size = d.demands.length := by
  rw [← Array.length_toList, h.output, List.length_map]

/-- Whether the output is full can be told from the draft. -/
theorem isFull (limits : Limits) (h : s.Completes start d) :
    s.isFull limits = true ↔ limits.maxBlocks ≤ d.demands.length := by
  rw [isFull_iff, h.size]

/-- A placement demands a block, which the snapshot meets. -/
theorem place {c : RunContext} (hc : c.captured = some start.store.current)
    (h : s.Completes start d) (scope : Scope) (x y z : Int) (blockType : Json) :
    (s.place c scope x y z blockType).Completes start
      (d.demand (.of scope (x, y, z) blockType)) := by
  have hs : s.snapshot c = start.store.current := by rw [RunState.snapshot, hc, Option.getD_some]
  refine ⟨h.work, ?_, ?_⟩
  · have hb := Demand.blockIn_of start.store.current scope (x, y, z) blockType
    rw [output_place, Array.toList_push, h.output, hs, Draft.demand, List.map_append,
      List.map_singleton, hb]
  · have hl := h.ledger.blockFor scope blockType
    rw [← hs] at hl
    exact hl

end RunState.Completes

/-! ### Steps -/

section Steps

variable {limits : Limits} {p : Program} {inner : Ledger → Executor}

/-- A change that concerns the work alone can be followed in the draft. -/
theorem spend_oblivious {f : RunState → RunState} (g : Work → Work)
    (hf : ∀ s, f s = { s with work := g s.work }) :
    Run.Oblivious fun _ => (modify f : Run PUnit) := by
  refine .update (Draft.spend g) fun start d s hs => ?_
  rw [hf]
  exact ⟨congrArg g hs.work, hs.output, hs.ledger⟩

theorem done_oblivious : Run.Oblivious fun _ => (pure () : Run Unit) :=
  .pure (fun _ => id) ()

theorem runPlace_oblivious (scope : Scope) (x y z blockType : Json) :
    Run.Oblivious fun start =>
      runPlace (p.context limits start.store.current) scope x y z blockType := by
  unfold runPlace
  refine Oblivious.bind (.ofExcept (coordinatesAt limits scope [.field "place"] x y z)) ?_
  rintro ⟨x, y, z⟩
  exact .update (Draft.demand (.of scope (x, y, z) blockType)) fun start d s hs =>
    hs.place rfl scope x y z blockType

/-- The body of a loop may be run for any number of values. -/
theorem iterate_oblivious (h : ∀ steps scope, Run.Oblivious fun start => inner start steps scope)
    (scope : Scope) (counter : String) (stride : Int) (body : List Step) :
    ∀ (count : Nat) (value : Int), Run.Oblivious fun start =>
      iterate (p.context limits start.store.current) (inner start) scope counter stride body count
        value := by
  intro count
  induction count with
  | zero => exact fun _ => done_oblivious
  | succ count ih =>
    intro value
    unfold iterate
    refine Oblivious.bind (spend_oblivious (fun w => { w with iterations := w.iterations + 1 })
      fun _ => rfl) fun _ => ?_
    refine Oblivious.bind (h body (scope.bind counter (.int value))) fun _ => ?_
    exact .get_ite (fun start d s hs => hs.isFull limits) done_oblivious (ih (value + stride))

theorem runLoop_oblivious (h : ∀ steps scope, Run.Oblivious fun start => inner start steps scope)
    (scope : Scope) (counter : String) (start stop stride : Json) (body : List Step) :
    Run.Oblivious fun ledger =>
      runLoop (p.context limits ledger.store.current) (inner ledger) scope counter start stop stride
        body := by
  unfold runLoop
  refine Oblivious.bind (.ofExcept (loopRange limits scope start stop stride)) ?_
  rintro ⟨first, last, stride⟩
  by_cases hb : body.isEmpty
  · simp only [id, hb, if_true]
    exact done_oblivious
  · simp only [id, hb]
    exact iterate_oblivious h scope counter stride body (loopCount first last stride) first

theorem runCall_oblivious (h : ∀ steps scope, Run.Oblivious fun start => inner start steps scope)
    (scope : Scope) (callee : String) (arguments : List (String × Json)) :
    Run.Oblivious fun start =>
      runCall (p.context limits start.store.current) (inner start) scope callee arguments := by
  have hc : ∀ start : Ledger, enterCall (p.context limits start.store.current) scope callee
      arguments = enterCall { program := p, limits } scope callee arguments := fun _ => rfl
  unfold runCall
  refine Oblivious.bind (spend_oblivious (fun w => { w with calls := w.calls + 1 })
    fun _ => rfl) fun _ => ?_
  dsimp only
  refine .get_unless (q := fun d => limits.maxCalls < d.work.calls)
    (Rejection.runaway .callCount limits.maxCalls) (fun start d s hs => by rw [← hs.work]; rfl) ?_
  simp only [hc]
  exact Oblivious.bind (.ofExcept _) fun entered => h entered.1 entered.2

theorem runStep_oblivious (h : ∀ steps scope, Run.Oblivious fun start => inner start steps scope)
    (scope : Scope) (step : Step) : Run.Oblivious fun start =>
      runStep (p.context limits start.store.current) (inner start) scope step := by
  cases step with
  | place x y z blockType => exact runPlace_oblivious scope x y z blockType
  | loop counter start stop stride body =>
    exact runLoop_oblivious h scope counter start stop stride body
  | call callee arguments => exact runCall_oblivious h scope callee arguments
  | invalid malformation => exact .throw _

/-! ### Lists of steps -/

theorem runSteps_oblivious (h : ∀ steps scope, Run.Oblivious fun start => inner start steps scope)
    (scope : Scope) : ∀ steps : List Step, Run.Oblivious fun start =>
      runSteps (p.context limits start.store.current) (inner start) scope steps := by
  intro steps
  induction steps with
  | nil => exact done_oblivious
  | cons step steps ih =>
    unfold runSteps
    refine .get_ite (fun start d s hs => hs.isFull limits) done_oblivious ?_
    refine Oblivious.bind (spend_oblivious (fun w => { w with steps := w.steps + 1 })
      fun _ => rfl) fun _ => ?_
    dsimp only
    refine .get_unless (q := fun d => limits.maxSteps < d.work.steps)
      (Rejection.runaway .executedSteps limits.maxSteps)
      (fun start d s hs => by rw [← hs.work]; rfl) ?_
    exact Oblivious.bind (runStep_oblivious h scope step) fun _ => ih

/-- **An execution does the same whatever the catalog is.** -/
theorem execute_oblivious : ∀ (room : Nat) (steps : List Step) (scope : Scope),
    Run.Oblivious fun start => execute (p.context limits start.store.current) room steps scope := by
  have levels (n : Nat) : Run.Oblivious fun _ => (modify (·.countLevels n) : Run PUnit) :=
    spend_oblivious (fun w => { w with levels := max w.levels n }) fun _ => rfl
  intro room
  induction room with
  | zero =>
    intro steps scope
    unfold execute
    exact Oblivious.bind (levels ((limits.maxCallDepth + 1).toNat + 1)) fun _ =>
      .throw (Rejection.runaway .callDepth limits.maxCallDepth)
  | succ room ih =>
    intro steps scope
    unfold execute
    exact Oblivious.bind (levels ((limits.maxCallDepth + 1).toNat - room)) fun _ =>
      runSteps_oblivious ih scope steps

end Steps

/-! ### Runs from the start -/

namespace Program

variable (limits : Limits) (p : Program)

/-- The record of the end of a run says nothing that the draft does not. -/
theorem runProgram_oblivious :
    Run.Oblivious fun start => runProgram (p.context limits start.store.current) := by
  unfold runProgram
  refine Oblivious.bind (execute_oblivious (limits.maxCallDepth + 1).toNat p.steps []) fun _ => ?_
  refine .update id fun start d s hs => ?_
  exact ⟨hs.work, hs.output, hs.ledger.record _⟩

/-- **A run does the same whatever the catalog is**: there is one end of it, up to the blocks with
which the demands are met. -/
theorem run_oblivious : ∃ view : EStateM.Result Rejection Draft Unit,
    ∀ start ledger : Ledger, ledger.Resembles start →
      Shows (RunState.Completes start) id view (p.run limits ledger) := by
  obtain ⟨view, h⟩ := runProgram_oblivious limits p {}
  refine ⟨view, fun start ledger hl => ?_⟩
  have hs : Shows (RunState.Completes start) id view
    (runProgram (p.context limits start.store.current) { ledger }) := h start _ ⟨rfl, rfl, hl⟩
  rw [← hl.current] at hs
  exact hs

end Program
end VoxelBlueprint
