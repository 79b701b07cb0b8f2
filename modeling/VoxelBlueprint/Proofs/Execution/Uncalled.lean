/-
# Definitions that are never called

A run asks a program for nothing but its steps and the definitions of the names that are called
somewhere in it: by one of its steps, in the body of a loop, or in a definition, be that called
itself or not. Whatever list of steps comes to be opened is one of these, so two programs that agree
in their steps and on those names do the same from any state on. A definition of which it is warned
that it is never called is not among them, and can be left out.

Key definitions: `Program.AgreesOnCalls`, `Executor.SameFor`, `Program.withoutUncalled`.
Key theorems: `execute_agreed`, `runProgram_agreed`, `Program.neverCalled_mem_warnings`,
`Program.uncalled_definitions_dead`.
-/
import Mathlib.Data.List.Find
import VoxelBlueprint.Program.Validation
import VoxelBlueprint.Proofs.Execution.Repairs

namespace VoxelBlueprint

/-! ### What a run asks for -/

/-- Whether another program has the same steps, and the same definition or none for every name
that is called in the program. -/
structure Program.AgreesOnCalls (p p' : Program) : Prop where
  steps : p'.steps = p.steps
  find? : ∀ name ∈ p.callees, p'.find? name = p.find? name

theorem Program.calleesOf_steps (p : Program) : calleesOf p.steps ⊆ p.callees := fun _ hname =>
  List.mem_flatMap.mpr ⟨_, List.mem_cons_self, hname⟩

/-- What a definition calls is called in the program. -/
theorem Program.calleesOf_definition {p : Program} {name : String} {d : Definition}
    (hd : p.find? name = some d) : calleesOf d.steps ⊆ p.callees := fun callee hcallee => by
  have hmem : (Site.definition d.name, d.steps) ∈ p.sites :=
    List.mem_cons_of_mem _ (List.mem_map_of_mem (List.mem_of_find?_eq_some hd))
  exact List.mem_flatMap.mpr ⟨_, hmem, hcallee⟩

section Execution

variable {c : RunContext} {p : Program}

/-- A call depends on nothing in the program but the definition of its name. -/
theorem enterCall_withProgram {callee : String} (h : p.find? callee = c.program.find? callee)
    (scope : Scope) (arguments : List (String × Json)) :
    enterCall (c.withProgram p) scope callee arguments = enterCall c scope callee arguments := by
  have hf : (c.withProgram p).program.find? callee = c.program.find? callee := h
  unfold enterCall
  rw [hf, RunContext.limits_withProgram]

/-- The steps that a call enters call what is called in the program. -/
theorem calleesOf_enterCall {scope : Scope} {callee : String} {arguments : List (String × Json)}
    {entered : List Step × Scope} (h : enterCall c scope callee arguments = .ok entered) :
    calleesOf entered.1 ⊆ c.program.callees := by
  unfold enterCall at h
  cases hd : c.program.find? callee with
  | none => rw [hd] at h; cases h
  | some d =>
    rw [hd] at h
    obtain ⟨bindings, -, h⟩ := Effects.bind_eq_ok h
    cases h
    exact Program.calleesOf_definition hd

/-- Whether an executor does the same as another one with steps that call only the given names. -/
def Executor.SameFor (names : List String) (inner inner' : Executor) : Prop :=
  ∀ steps, calleesOf steps ⊆ names → inner' steps = inner steps

variable {inner inner' : Executor}

theorem iterate_agreed (hi : Executor.SameFor c.program.callees inner inner') {body : List Step}
    (hb : calleesOf body ⊆ c.program.callees) (scope : Scope) (counter : String) (stride : Int) :
    ∀ (count : Nat) (value : Int),
      iterate (c.withProgram p) inner' scope counter stride body count value =
        iterate c inner scope counter stride body count value
  | 0, _ => rfl
  | count + 1, value => by
    have ih := iterate_agreed hi hb scope counter stride count (value + stride)
    unfold iterate
    rw [hi body hb, ih, RunContext.limits_withProgram]

/-- A step does the same in a program that agrees with its own on what is called. -/
theorem runStep_agreed (hp : c.program.AgreesOnCalls p)
    (hi : Executor.SameFor c.program.callees inner inner') (scope : Scope) {step : Step}
    (hs : calleesOfStep step ⊆ c.program.callees) :
    runStep (c.withProgram p) inner' scope step = runStep c inner scope step := by
  cases step with
  | place x y z blockType => rfl
  | loop counter start stop stride body =>
    have hbody : calleesOf body ⊆ c.program.callees := hs
    simp only [runStep, runLoop, RunContext.limits_withProgram, iterate_agreed hi hbody]
  | call callee arguments =>
    have hf : p.find? callee = c.program.find? callee := hp.find? callee (hs List.mem_cons_self)
    funext s
    show runCall _ _ _ _ _ s = runCall _ _ _ _ _ s
    rw [runCall_apply, runCall_apply, enterCall_withProgram hf, RunContext.limits_withProgram]
    cases he : enterCall c scope callee arguments with
    | error r => rfl
    | ok entered =>
      have hentered := calleesOf_enterCall he
      simp only [hi entered.1 hentered]
  | invalid m => rfl

theorem runSteps_agreed (hp : c.program.AgreesOnCalls p)
    (hi : Executor.SameFor c.program.callees inner inner') (scope : Scope) : ∀ steps : List Step,
      calleesOf steps ⊆ c.program.callees →
      runSteps (c.withProgram p) inner' scope steps = runSteps c inner scope steps
  | [], _ => rfl
  | step :: steps, h => by
    obtain ⟨hstep, hsteps⟩ := List.append_subset.mp h
    have ih := runSteps_agreed hp hi scope steps hsteps
    unfold runSteps
    rw [runStep_agreed hp hi scope hstep, ih, RunContext.limits_withProgram]

/-- **Lists of steps do the same in programs that agree on what is called.** -/
theorem execute_agreed (hp : c.program.AgreesOnCalls p) : ∀ room,
    Executor.SameFor c.program.callees (execute c room) (execute (c.withProgram p) room)
  | 0 => fun _ _ => rfl
  | room + 1 => by
    intro steps hsteps
    have ih := execute_agreed hp room
    funext scope s
    have hs := runSteps_agreed hp ih scope steps hsteps
    exact congrFun hs (s.countLevels (c.maxLevels - room))

/-- A program does the same from any state on as another one with which it agrees on what is
called. -/
theorem runProgram_agreed (hp : c.program.AgreesOnCalls p) :
    runProgram (c.withProgram p) = runProgram c := by
  have hm : (c.withProgram p).maxLevels = c.maxLevels := rfl
  have hs : (c.withProgram p).program.steps = c.program.steps := hp.steps
  unfold runProgram
  rw [hm, hs, execute_agreed hp c.maxLevels _ c.program.calleesOf_steps]

end Execution

/-! ### Definitions that are left out -/

namespace Program

/-- The program without the definitions of which it is warned that they are never called; what it
says of names that were defined again may be anything. -/
def withoutUncalled (p : Program) (redefined : List String) : Program :=
  { p with
    definitions := p.definitions.filter fun d => .neverCalled d.name ∉ p.warnings
    redefined }

variable {p : Program} {name : String}

/-- It is warned of the names that are defined and not called anywhere. -/
theorem neverCalled_mem_warnings : .neverCalled name ∈ p.warnings ↔
    (∃ d ∈ p.definitions, d.name = name) ∧ name ∉ p.callees := by
  simp [warnings]

/-- A name that is called keeps its definition. -/
theorem find?_withoutUncalled (redefined : List String) (h : name ∈ p.callees) :
    (p.withoutUncalled redefined).find? name = p.find? name := by
  have hkept : .neverCalled name ∉ p.warnings := fun hw => (neverCalled_mem_warnings.mp hw).2 h
  unfold find? withoutUncalled
  rw [List.find?_filter]
  refine List.find?_congr fun d _ => ?_
  by_cases hn : d.name = name
  · simp [hn, hkept]
  · simp [hn]

theorem agreesOnCalls_withoutUncalled (p : Program) (redefined : List String) :
    p.AgreesOnCalls (p.withoutUncalled redefined) where
  steps := rfl
  find? _ h := find?_withoutUncalled redefined h

/-- **A definition that is never called is dead.** Without the definitions of which it is warned
that they are never called, a program runs to the same end with every catalog and all limits: it
is rejected for the same cause at the same place, or ends well, with the same blocks, the same
work and the same events; and the expansion comes to the same. -/
theorem uncalled_definitions_dead (p : Program) (redefined : List String) (limits : Limits)
    (ledger : Ledger) :
    (p.withoutUncalled redefined).run limits ledger = p.run limits ledger ∧
      (p.withoutUncalled redefined).expand limits ledger = p.expand limits ledger := by
  have hrun : (p.withoutUncalled redefined).run limits ledger = p.run limits ledger := by
    have h := runProgram_agreed (c := p.context limits ledger.store.current)
      (p.agreesOnCalls_withoutUncalled redefined)
    exact congrFun h { ledger }
  exact ⟨hrun, by rw [expand_eq, expand_eq, hrun]⟩

end Program
end VoxelBlueprint
