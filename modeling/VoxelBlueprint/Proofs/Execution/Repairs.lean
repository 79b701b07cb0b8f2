/-
# Steps that could not be read

A step that could not be read counts only when it is begun. So a run that ends well never comes to
one, and does not tell a program from one in which other steps stand in the places of those that
could not be read, be it among its own steps, in the body of a loop or in a definition.

The difficult case is a loop of whose body nothing is left. Its iterations are not counted any
more; but there were none, since the first one would have begun a step that could not be read.

Key definitions: `Repairs`, `Program.Repairs`, `Executor.RepairedBy`.
Key theorems: `runLoop_repaired`, `runSteps_repaired`, `execute_repaired`,
`Program.run_never_begins_invalid`, `Program.run_of_repaired`.
-/
import Mathlib.Data.List.Forall2
import VoxelBlueprint.Proofs.Execution.Bounds

namespace VoxelBlueprint

open Effects Stage

/-! ### Repairs -/

/-- Whether steps come from others by putting any steps in the places of some that could not be
read. -/
inductive Repairs : List Step → List Step → Prop
  | nil : Repairs [] []
  | keep (step : Step) {steps steps' : List Step} : Repairs steps steps' →
    Repairs (step :: steps) (step :: steps')
  | loop (counter : String) (start stop stride : Json) {body body' steps steps' : List Step} :
    Repairs body body' → Repairs steps steps' →
    Repairs (.loop counter start stop stride body :: steps)
      (.loop counter start stop stride body' :: steps')
  | replace (m : Malformation) (new : List Step) {steps steps' : List Step} :
    Repairs steps steps' → Repairs (.invalid m :: steps) (new ++ steps')

namespace Repairs

theorem refl : ∀ steps : List Step, Repairs steps steps
  | [] => .nil
  | step :: steps => .keep step (refl steps)

/-- Where there is no step, there is none to replace. -/
theorem eq_nil {steps' : List Step} (h : Repairs [] steps') : steps' = [] := by
  cases h with
  | nil => rfl

/-- If nothing is left of a list of steps, the first of them could not be read. -/
theorem exists_invalid {step : Step} {steps : List Step} (h : Repairs (step :: steps) []) :
    ∃ m, step = .invalid m := by
  generalize hs : ([] : List Step) = steps' at h
  cases h with
  | keep => cases hs
  | loop => cases hs
  | replace m => exact ⟨m, rfl⟩

end Repairs

/-- Whether the steps of a definition are repaired, which keeps its name and parameters. -/
structure Definition.Repairs (d d' : Definition) : Prop where
  name : d'.name = d.name
  parameters : d'.parameters = d.parameters
  steps : VoxelBlueprint.Repairs d.steps d'.steps

/-- Whether a program is repaired in its steps and its definitions. -/
structure Program.Repairs (p p' : Program) : Prop where
  steps : VoxelBlueprint.Repairs p.steps p'.steps
  definitions : List.Forall₂ Definition.Repairs p.definitions p'.definitions

/-- Definitions that stand for others of the same names are found in their places. -/
theorem find?_forall₂ {R : Definition → Definition → Prop}
    (hR : ∀ {d d'}, R d d' → d'.name = d.name) {ds ds' : List Definition}
    (h : List.Forall₂ R ds ds') (name : String) :
    Option.Rel R (ds.find? (·.name = name)) (ds'.find? (·.name = name)) := by
  induction h with
  | nil => exact .none
  | @cons d d' ds ds' hd _ ih =>
    by_cases hn : d.name = name
    · rw [List.find?_cons_of_pos (by simpa using hn),
        List.find?_cons_of_pos (by simpa using (hR hd).trans hn)]
      exact .some hd
    · have hn' : d'.name ≠ name := hR hd ▸ hn
      rw [List.find?_cons_of_neg (by simpa using hn), List.find?_cons_of_neg (by simpa using hn')]
      exact ih

/-- A name has a definition in a repaired program if it had one before. -/
theorem Program.Repairs.find? {p p' : Program} (h : p.Repairs p') {name : String} {d : Definition}
    (hd : p.find? name = some d) : ∃ d', p'.find? name = some d' ∧ d.Repairs d' := by
  have hrel := find?_forall₂ Definition.Repairs.name h.definitions name
  unfold Program.find? at hd ⊢
  rw [hd] at hrel
  generalize p'.definitions.find? (·.name = name) = found at hrel ⊢
  cases hrel with
  | some hr => exact ⟨_, rfl, hr⟩

/-! ### The execution of repaired steps -/

/-- The context with another program. -/
def RunContext.withProgram (c : RunContext) (p : Program) : RunContext :=
  { c with program := p }

@[simp] theorem RunContext.limits_withProgram (c : RunContext) (p : Program) :
    (c.withProgram p).limits = c.limits := rfl

section Execution

variable {c : RunContext} {p : Program}

/-- What a call of a definition enters. -/
theorem enterCall_of_find? {scope : Scope} {callee : String} {arguments : List (String × Json)}
    {d : Definition} (hd : c.program.find? callee = some d) :
    enterCall c scope callee arguments = (do
      let bindings ← bindArguments c.limits scope callee (askedArguments d arguments)
      return (d.steps, bindings ++ scope)) := by
  unfold enterCall
  rw [hd]

/-- A call enters repaired steps in the same scope. -/
theorem enterCall_repaired (hp : c.program.Repairs p) {scope scope' : Scope} {callee : String}
    {arguments : List (String × Json)} {steps : List Step}
    (h : enterCall c scope callee arguments = .ok (steps, scope')) :
    ∃ steps', enterCall (c.withProgram p) scope callee arguments = .ok (steps', scope') ∧
      Repairs steps steps' := by
  cases hd : c.program.find? callee with
  | none =>
    unfold enterCall at h
    rw [hd] at h
    cases h
  | some d =>
    rw [enterCall_of_find? hd] at h
    obtain ⟨bindings, hb, h⟩ := bind_eq_ok h
    cases h
    obtain ⟨d', hd', hr⟩ := hp.find? hd
    have ha : askedArguments d' arguments = askedArguments d arguments := by
      unfold askedArguments
      rw [hr.parameters]
    have hd' : (c.withProgram p).program.find? callee = some d' := hd'
    refine ⟨d'.steps, ?_, hr.steps⟩
    rw [enterCall_of_find? hd', ha, RunContext.limits_withProgram, hb]
    rfl

/-- Whether an executor ends as another one does if this ends well, when it is given repaired
steps; and the other one does not end well with a step that could not be read, if there is room. -/
structure Executor.RepairedBy (limits : Limits) (inner inner' : Executor) : Prop where
  repaired {steps steps' : List Step} {scope : Scope} {s t : RunState} :
    Repairs steps steps' → inner steps scope s = .ok () t → inner' steps' scope s = .ok () t
  rejects (m : Malformation) (steps : List Step) (scope : Scope) {s : RunState} (t : RunState) :
    s.isFull limits = false → inner (.invalid m :: steps) scope s ≠ .ok () t

variable {inner inner' : Executor} {scope : Scope}

theorem iterate_repaired (hi : Executor.RepairedBy c.limits inner inner') {counter : String}
    {stride : Int} {body body' : List Step} (hb : Repairs body body') :
    ∀ (count : Nat) (value : Int) (s t : RunState),
      iterate c inner scope counter stride body count value s = .ok () t →
      iterate (c.withProgram p) inner' scope counter stride body' count value s = .ok () t
  | 0, _, _, _, h => h
  | count + 1, value, s, t, h => by
    rw [iterate_succ] at h ⊢
    cases hr : inner body (scope.bind counter (.int value)) s.countIteration with
    | error r u => rw [hr] at h; cases h
    | ok _ u =>
      rw [hr] at h
      rw [hi.repaired hb hr]
      simp only at h ⊢
      have hl : u.isFull (c.withProgram p).limits = u.isFull c.limits := rfl
      simp only [hl]
      cases hf : u.isFull c.limits with
      | true =>
        rw [hf] at h
        exact h
      | false =>
        rw [hf] at h
        exact iterate_repaired hi hb count (value + stride) u t h

/-- A loop that ends well does the same with a repaired body, also if this is empty. -/
theorem runLoop_repaired (hi : Executor.RepairedBy c.limits inner inner') {counter : String}
    {start stop stride : Json} {body body' : List Step} (hb : Repairs body body')
    {s t : RunState} (hf : s.isFull c.limits = false)
    (h : runLoop c inner scope counter start stop stride body s = .ok () t) :
    runLoop (c.withProgram p) inner' scope counter start stop stride body' s = .ok () t := by
  rw [runLoop_apply] at h ⊢
  rw [RunContext.limits_withProgram]
  cases hr : loopRange c.limits scope start stop stride with
  | error r => rw [hr] at h; cases h
  | ok range =>
    obtain ⟨first, last, stride⟩ := range
    rw [hr] at h
    simp only at h ⊢
    cases body with
    | nil =>
      rw [hb.eq_nil]
      exact h
    | cons step body =>
      have h := (if_neg Bool.false_ne_true).symm.trans h
      cases body' with
      | cons step' body' => exact iterate_repaired hi hb _ _ s t h
      | nil =>
        obtain ⟨m, rfl⟩ := hb.exists_invalid
        cases hn : loopCount first last stride with
        | zero =>
          rw [hn] at h
          exact h
        | succ count =>
          rw [hn, iterate_succ] at h
          have hf : s.countIteration.isFull c.limits = false := hf
          cases hu : inner (.invalid m :: body) (scope.bind counter (.int first))
            s.countIteration with
          | error r u => rw [hu] at h; cases h
          | ok _ u => exact absurd hu (hi.rejects m body _ u hf)

/-- A step that ends well does the same in the repaired program. -/
theorem runStep_repaired (hp : c.program.Repairs p) (hi : Executor.RepairedBy c.limits inner inner')
    {step : Step} {s t : RunState} (hf : s.isFull c.limits = false)
    (h : runStep c inner scope step s = .ok () t) :
    runStep (c.withProgram p) inner' scope step s = .ok () t := by
  cases step with
  | place => exact h
  | loop counter start stop stride body => exact runLoop_repaired hi (.refl body) hf h
  | call callee arguments =>
    rw [runStep, runCall_apply] at h ⊢
    rw [RunContext.limits_withProgram]
    by_cases hm : c.limits.maxCalls < s.countCall.work.calls
    · rw [if_pos hm] at h
      cases h
    · rw [if_neg hm] at h ⊢
      cases he : enterCall c scope callee arguments with
      | error r => rw [he] at h; cases h
      | ok entered =>
        rw [he] at h
        obtain ⟨steps', he', hr⟩ := enterCall_repaired hp he
        rw [he']
        exact hi.repaired hr h
  | invalid m => cases h

theorem runSteps_of_full {steps : List Step} {s : RunState} (hf : s.isFull c.limits = true) :
    runSteps c inner scope steps s = .ok () s := by
  cases steps with
  | nil => rfl
  | cons step steps => rw [runSteps_cons, if_pos hf]

/-- Where there is room, a list that starts with a step that could not be read is rejected. -/
theorem runSteps_invalid {m : Malformation} {steps : List Step} {s t : RunState}
    (hf : s.isFull c.limits = false) :
    runSteps c inner scope (.invalid m :: steps) s ≠ .ok () t := by
  intro h
  rw [runSteps_cons, if_neg (by simp [hf])] at h
  split at h <;> cases h

/-- What a step does well and the steps after it do well. -/
theorem runSteps_cons_eq_ok {step : Step} {steps : List Step} {s t : RunState}
    (hf : s.isFull c.limits = false) :
    runSteps c inner scope (step :: steps) s = .ok () t ↔
      s.countStep.work.steps ≤ c.limits.maxSteps ∧
      ∃ u, runStep c inner scope step s.countStep = .ok () u ∧
        runSteps c inner scope steps u = .ok () t := by
  rw [runSteps_cons, if_neg (by simp [hf])]
  by_cases hm : c.limits.maxSteps < s.countStep.work.steps
  · rw [if_pos hm]
    exact ⟨nofun, fun h => absurd hm (Int.not_lt.mpr h.1)⟩
  · rw [if_neg hm]
    have hm : s.countStep.work.steps ≤ c.limits.maxSteps := Int.not_lt.mp hm
    cases runStep c inner scope step s.countStep with
    | error r u => exact ⟨nofun, fun ⟨_, _, h, _⟩ => nomatch h⟩
    | ok _ u =>
      refine ⟨fun h => ⟨hm, u, rfl, h⟩, fun ⟨_, u', hu, h⟩ => ?_⟩
      cases hu
      exact h

/-- What is true of a step and of the steps after it is true of all of them. -/
theorem runSteps_cons_repaired {step step' : Step} {steps steps' : List Step}
    (hstep : ∀ {s u : RunState}, s.isFull c.limits = false →
      runStep c inner scope step s = .ok () u →
      runStep (c.withProgram p) inner' scope step' s = .ok () u)
    (hsteps : ∀ {s t : RunState}, runSteps c inner scope steps s = .ok () t →
      runSteps (c.withProgram p) inner' scope steps' s = .ok () t)
    {s t : RunState} (h : runSteps c inner scope (step :: steps) s = .ok () t) :
    runSteps (c.withProgram p) inner' scope (step' :: steps') s = .ok () t := by
  cases hf : s.isFull c.limits with
  | true =>
    rw [runSteps_of_full hf] at h
    cases h
    exact runSteps_of_full hf
  | false =>
    obtain ⟨hm, u, hu, h⟩ := (runSteps_cons_eq_ok hf).mp h
    exact (runSteps_cons_eq_ok (c := c.withProgram p) hf).mpr ⟨hm, u, hstep hf hu, hsteps h⟩

/-- **Repaired steps do the same**, if those that are repaired end well. -/
theorem runSteps_repaired (hp : c.program.Repairs p)
    (hi : Executor.RepairedBy c.limits inner inner') {steps steps' : List Step}
    (hs : Repairs steps steps') :
    ∀ {s t : RunState}, runSteps c inner scope steps s = .ok () t →
      runSteps (c.withProgram p) inner' scope steps' s = .ok () t := by
  induction hs with
  | nil => exact fun h => h
  | keep step _ ih => exact runSteps_cons_repaired (runStep_repaired hp hi) ih
  | loop counter start stop stride hb _ _ ih =>
    refine runSteps_cons_repaired (fun hf h => ?_) ih
    rw [runStep] at h ⊢
    exact runLoop_repaired hi hb hf h
  | replace m new _ _ =>
    intro s t h
    cases hf : s.isFull c.limits with
    | true =>
      rw [runSteps_of_full hf] at h
      cases h
      exact runSteps_of_full hf
    | false => exact absurd h (runSteps_invalid hf)

/-- Executors that go the same number of levels down do the same. -/
theorem execute_repaired (hp : c.program.Repairs p) :
    ∀ room, Executor.RepairedBy c.limits (execute c room) (execute (c.withProgram p) room)
  | 0 =>
    { repaired := fun _ h => nomatch h
      rejects := fun _ _ _ _ _ _ h => nomatch h }
  | room + 1 =>
    { repaired := fun hs h => runSteps_repaired hp (execute_repaired hp room) hs h
      rejects := fun _ _ _ s _ hf => runSteps_invalid (s := s.countLevels _) hf }

/-- A program that ends well in any state, ends in the same way when it is repaired. -/
theorem runProgram_repaired (hp : c.program.Repairs p) {s t : RunState}
    (h : runProgram c s = .ok () t) : runProgram (c.withProgram p) s = .ok () t := by
  rw [runProgram_apply] at h ⊢
  cases he : execute c c.maxLevels c.program.steps [] s with
  | error r u => rw [he] at h; cases h
  | ok _ u =>
    rw [he] at h
    have he' := (execute_repaired hp c.maxLevels).repaired hp.steps he
    have hl : execute (c.withProgram p) (c.withProgram p).maxLevels (c.withProgram p).program.steps
      [] s = .ok () u := he'
    rw [hl]
    exact h

end Execution

/-! ### Runs that end well -/

/-- Whether a step that could not be read is next. -/
def Stage.invalidNext : Stage RunState → Bool
  | .ok (.steps _ (.invalid _ :: _) :: _) _ => true
  | _ => false

theorem Stage.exists_of_invalidNext {a : Stage RunState} (h : a.invalidNext = true) :
    ∃ scope m steps rest s, a = .ok (.steps scope (.invalid m :: steps) :: rest) s := by
  unfold invalidNext at h
  split at h
  · exact ⟨_, _, _, _, _, rfl⟩
  · cases h

namespace Program

variable {limits : Limits} {p p' : Program} {ledger : Ledger}

/-- When a step that could not be read is next and there is room, a rejection follows. -/
theorem stage_succ_of_invalidNext {n : ℕ} (h : (p.stage limits ledger n).invalidNext = true)
    (hf : (p.stage limits ledger n).state.isFull limits = false) :
    ∃ r u, p.stage limits ledger (n + 1) = .error r u := by
  obtain ⟨scope, m, steps, rest, s, hs⟩ := exists_of_invalidNext h
  have hmoves := moves_stage hs
  rw [hs, state] at hf
  generalize p.stage limits ledger (n + 1) = next at hmoves
  cases hmoves with
  | full hfull => exact absurd (hf.symm.trans hfull) Bool.false_ne_true
  | tooManySteps => exact ⟨_, _, rfl⟩
  | step _ _ hb =>
    cases hb with
    | invalid => exact ⟨_, _, rfl⟩

/-- A run that ends well never begins a step that could not be read. -/
theorem run_never_begins_invalid {s : RunState} (hr : p.run limits ledger = .ok () s) {n : ℕ}
    (h : (p.stage limits ledger n).invalidNext = true) :
    (p.stage limits ledger n).state.isFull limits = true := by
  by_contra hf
  obtain ⟨r, u, hu⟩ := stage_succ_of_invalidNext h (by simpa using hf)
  have hended := eq_outcome_of_ended limits p ledger (n := n + 1) (by rw [hu]; trivial)
  obtain ⟨s', ho, -⟩ := outcome_of_run_ok hr
  rw [hu, ho] at hended
  cases hended

/-- A run that ends well ends in the same way for a repaired program. -/
theorem run_of_repaired (hp : p.Repairs p') {s : RunState} (h : p.run limits ledger = .ok () s) :
    p'.run limits ledger = .ok () s :=
  runProgram_repaired (c := p.context limits ledger.store.current) hp h

/-- **What could not be read counts only when it is executed.** When the run of a program ends
well:

* no step that could not be read was ever begun: whenever one was next, the output was full, and
  nothing was begun any more;
* whatever steps stand in the places of those that could not be read, among the steps of the
  program, in the bodies of its loops and in its definitions, the run ends in the same state, with
  the same blocks, work and events, and the expansion comes to the same. -/
theorem repairs_change_nothing {s : RunState} (h : p.run limits ledger = .ok () s) :
    (∀ n, (p.stage limits ledger n).invalidNext = true →
      (p.stage limits ledger n).state.isFull limits = true) ∧
    ∀ p' : Program, p.Repairs p' → p'.run limits ledger = .ok () s ∧
      p'.expand limits ledger = p.expand limits ledger := by
  refine ⟨fun n => run_never_begins_invalid h, fun p' hp => ?_⟩
  have h' := run_of_repaired hp h
  exact ⟨h', by rw [expand_eq, expand_eq, h, h']⟩

/-- Three steps that could not be read: in a loop without values, behind the last block for which
there is room, and in a definition that is not called. -/
def torn : Program :=
  { steps :=
      [.loop "i" (.int 1) (.int 0) (.int 1) [.invalid ⟨.stepNotObject, []⟩],
       .place (.int 0) (.int 0) (.int 0) (.str "a"),
       .invalid ⟨.stepNotObject, []⟩]
    definitions := [{ name := "shed", steps := [.invalid ⟨.stepNotObject, []⟩] }] }

/-- A repair of it: the loop has no body any more, and neither the steps behind the last block nor
those of the definition would end well. -/
def mended : Program :=
  { steps :=
      [.loop "i" (.int 1) (.int 0) (.int 1) [],
       .place (.int 0) (.int 0) (.int 0) (.str "a"),
       .call "shed" [], .call "nobody" []]
    definitions :=
      [{ name := "shed", steps := [.loop "i" (.int 0) (.int 9) (.int 0) [], .call "shed" []] }] }

theorem torn_repairs_mended : torn.Repairs mended where
  steps := .loop _ _ _ _ (.replace _ [] .nil) (.keep _ (.replace _ mended.steps.tail.tail .nil))
  definitions := .cons ⟨rfl, rfl, .replace _ [_, _] .nil⟩ .nil

theorem repairs_change_nothing_mended :
    (∃ s, torn.run { maxBlocks := 1 } quarry = .ok () s ∧
      s.output = #[⟨0, 0, 0, "minecraft:a"⟩] ∧ mended.run { maxBlocks := 1 } quarry = .ok () s) ∧
    (torn.stage { maxBlocks := 1 } quarry 3).invalidNext = true ∧
    (torn.stage { maxBlocks := 1 } quarry 3).state.isFull { maxBlocks := 1 } = true := by
  have hr : torn.run { maxBlocks := 1 } quarry = .ok ()
      { ledger := quarry.record (.programRun 1 2 0)
        output := #[⟨0, 0, 0, "minecraft:a"⟩]
        work := { steps := 2, levels := 1 } } := by decide +kernel
  have hi : (torn.stage { maxBlocks := 1 } quarry 3).invalidNext = true := by decide +kernel
  obtain ⟨never, repaired⟩ := repairs_change_nothing hr
  exact ⟨⟨_, hr, rfl, (repaired mended torn_repairs_mended).1⟩, hi, never 3 hi⟩

end Program
end VoxelBlueprint
