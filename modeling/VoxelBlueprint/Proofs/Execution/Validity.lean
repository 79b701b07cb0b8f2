/-
# Runs of valid programs

A program in which no defect is found has none in any list of steps that comes to be open: the
body of a loop and the steps of a definition were looked at with the rest. So its runs are never
rejected for the shape of a step or a call. They end well, or exceed a ceiling, or come to a
value that cannot be had in the scope of that moment; and a step that as it is written lacks a
coordinate, or has a stride with which no loop runs, is never come to.

Key definitions: `Json.IsVoidStride`, `Step.IsVoid`, `Stage.Sound`.
Key theorems: `strideDefects_eq_nil_iff`, `Program.defectsOf_find?`, `RunContext.Moves.sound`,
`Program.sound_stage`, `Program.run_of_valid`.
-/
import VoxelBlueprint.Proofs.Execution.Runs
import VoxelBlueprint.Proofs.Program.Findings

namespace VoxelBlueprint

open Stage

/-! ### Steps that say too little -/

/-- Whether no loop runs with a stride, as it is written: it is a number that truncates to zero
or is not finite, or one of three texts with blanks around it. -/
def Json.IsVoidStride : Json → Prop
  | .int n => n = 0
  | .float x => x.isFinite = false ∨ x.truncate? = some 0
  | .str text => Text.stripped text ∈ ["0", "+0", "-0"]
  | _ => False

/-- Whether a step lacks a coordinate, or has a stride with which no loop runs. -/
def Step.IsVoid : Step → Prop
  | .place x y z _ => x = .null ∨ y = .null ∨ z = .null
  | .loop _ _ _ stride _ => stride.IsVoidStride
  | _ => False

theorem Json.isVoidStride_iff {stride : Json} : stride.IsVoidStride ↔
    stride.IsZeroLiteral ∨ ∃ x, stride = .float x ∧ x.isFinite = false := by
  cases stride <;> simp [IsVoidStride, IsZeroLiteral, or_comm]

/-- The strides that are found defective are those with which no loop runs. -/
theorem strideDefects_eq_nil_iff {counter : String} {stride : Json} :
    strideDefects counter stride = [] ↔ ¬ stride.IsVoidStride := by
  rw [Json.isVoidStride_iff, List.eq_nil_iff_forall_not_mem]
  simp only [mem_strideDefects]
  constructor
  · rintro h (hz | ⟨x, hx, hfinite⟩)
    · exact h _ (.inl ⟨hz, rfl⟩)
    · exact h _ (.inr ⟨x, hx, hfinite, rfl⟩)
  · rintro h _ (⟨hz, -⟩ | ⟨x, hx, hfinite, -⟩)
    · exact h (.inl hz)
    · exact h (.inr ⟨x, hx, hfinite⟩)

theorem coordinateDefects_eq_nil_iff {axis : Axis} {value : Json} :
    coordinateDefects axis value = [] ↔ value ≠ .null := by
  simp [List.eq_nil_iff_forall_not_mem, mem_coordinateDefects]

variable {p : Program}

/-- A step without a defect is not void. -/
theorem not_isVoid {step : Step} (h : defectsOfStep p step = []) : ¬ step.IsVoid := by
  cases step with
  | place x y z blockType =>
    obtain ⟨hxy, hz⟩ := List.append_eq_nil_iff.mp h
    obtain ⟨hx, hy⟩ := List.append_eq_nil_iff.mp hxy
    rintro (hn | hn | hn)
    · exact coordinateDefects_eq_nil_iff.mp hx hn
    · exact coordinateDefects_eq_nil_iff.mp hy hn
    · exact coordinateDefects_eq_nil_iff.mp hz hn
  | loop counter start stop stride body =>
    exact strideDefects_eq_nil_iff.mp (List.append_eq_nil_iff.mp h).1
  | call | invalid => exact not_false

/-- A call without a defect has all that it asks for. -/
theorem find?_of_callDefects {callee : String} {arguments : List (String × Json)}
    (h : callDefects p callee arguments = []) :
    ∃ d, p.find? callee = some d ∧ ∀ name, (name, none) ∉ askedArguments d arguments := by
  unfold callDefects at h
  cases hd : p.find? callee with
  | none => rw [hd] at h; cases h
  | some d =>
    rw [hd] at h
    refine ⟨d, rfl, fun name hm => ?_⟩
    unfold askedArguments at hm
    split at hm
    · obtain ⟨_, -, he⟩ := List.mem_map.mp hm
      cases he
    · obtain ⟨q, hq, he⟩ := List.mem_map.mp hm
      have hq' : q ∈ d.parameters.filter fun q => (arguments.lookup q).isNone :=
        List.mem_filter.mpr ⟨hq, by rw [(Prod.mk.inj he).2]; rfl⟩
      rw [List.map_eq_nil_iff.mp h] at hq'
      cases hq'

namespace Program

/-! ### Lists of steps that come to be open -/

/-- No list of steps of a valid program has a defect. -/
theorem defectsOf_site (h : p.isValid = true) {site : Site × List Step} (hs : site ∈ p.sites) :
    defectsOf p site.2 = [] := by
  have hn := List.flatMap_eq_nil_iff.mp (List.isEmpty_iff.mp h) site hs
  exact List.map_eq_nil_iff.mp hn

theorem defectsOf_steps (h : p.isValid = true) : defectsOf p p.steps = [] :=
  defectsOf_site h List.mem_cons_self

/-- What a call of a valid program enters has no defect. -/
theorem defectsOf_find? (h : p.isValid = true) {name : String} {d : Definition}
    (hd : p.find? name = some d) : defectsOf p d.steps = [] :=
  defectsOf_site h (List.mem_cons_of_mem _ (List.mem_map_of_mem (List.mem_of_find?_eq_some hd)))

end Program

/-- The steps that a part of an agenda still executes. -/
def Task.body : Task → List Step
  | .steps _ rest => rest
  | .loop _ _ _ _ body _ => body

/-- Whether all that is still to be done is without a defect, or a rejection is for a value or
a ceiling. -/
def Stage.Sound (p : Program) : Stage RunState → Prop
  | .ok agenda _ => ∀ task ∈ agenda, defectsOf p task.body = []
  | .error r _ => r.isUnevaluable = true ∨ r.isRunaway = true

namespace RunContext

variable {c : RunContext} {s : RunState} {rest : Agenda} {stage : Stage RunState}

/-- A step without a defect is followed by steps without a defect, and rejected only for a value
or a ceiling. -/
theorem Begins.sound (hp : c.program.isValid = true) {scope : Scope} {step : Step}
    (h : c.Begins scope rest s step stage) (hd : defectsOfStep c.program step = [])
    (hrest : ∀ task ∈ rest, defectsOf c.program task.body = []) :
    Stage.Sound c.program stage := by
  cases h with
  | place | skip => exact hrest
  | placeFailed h => exact .inl (isUnevaluable_coordinatesAt h)
  | loop => exact List.forall_mem_cons.mpr ⟨(List.append_eq_nil_iff.mp hd).2, hrest⟩
  | loopFailed h => exact .inl (isUnevaluable_loopRange h)
  | tooManyCalls | callTooDeep => exact .inr rfl
  | callFailed _ h =>
    obtain ⟨d, hf, hall⟩ := find?_of_callDefects hd
    rcases enterCall_eq_error h with hu | ⟨hn, -⟩ | ⟨d', name, hf', hm, -⟩
    · exact .inl hu
    · rw [hf] at hn
      cases hn
    · rw [hf] at hf'
      cases hf'
      exact absurd hm (hall name)
  | @call callee arguments entered _ h =>
    refine List.forall_mem_cons.mpr ⟨?_, hrest⟩
    obtain ⟨d, hf, -⟩ := find?_of_callDefects hd
    unfold enterCall at h
    rw [hf] at h
    obtain ⟨_, -, he⟩ := Effects.bind_eq_ok h
    cases he
    exact Program.defectsOf_find? hp hf
  | invalid => cases hd

/-- A transition of a valid program is followed by steps without a defect, and rejected only for
a value or a ceiling. -/
theorem Moves.sound (hp : c.program.isValid = true) {agenda : Agenda}
    (h : c.Moves agenda s stage) (ha : ∀ task ∈ agenda, defectsOf c.program task.body = []) :
    Stage.Sound c.program stage := by
  cases h with
  | idle => exact ha
  | done | full | passed => exact fun task ht => ha task (List.mem_cons_of_mem _ ht)
  | bodyTooDeep | tooManySteps => exact .inr rfl
  | body =>
    obtain ⟨hbody, hrest⟩ := List.forall_mem_cons.mp ha
    exact List.forall_mem_cons.mpr ⟨hbody, List.forall_mem_cons.mpr ⟨hbody, hrest⟩⟩
  | step _ _ hb =>
    obtain ⟨hsteps, hrest⟩ := List.forall_mem_cons.mp ha
    obtain ⟨hstep, hsteps⟩ := List.append_eq_nil_iff.mp hsteps
    exact hb.sound hp hstep (List.forall_mem_cons.mpr ⟨hsteps, hrest⟩)

/-- Only a step that is begun is rejected for a value. -/
theorem Moves.of_isUnevaluable {agenda : Agenda} {s' : RunState} {r : Rejection}
    (h : c.Moves agenda s (.error r s')) (hr : r.isUnevaluable = true) :
    ∃ scope step steps rest, agenda = .steps scope (step :: steps) :: rest := by
  cases h with
  | bodyTooDeep | tooManySteps => cases hr
  | step => exact ⟨_, _, _, _, rfl⟩

end RunContext

namespace Program

variable {limits : Limits} {ledger : Ledger}

/-! ### Runs -/

/-- A run of a valid program is sound from its start on. -/
theorem sound_stage (h : p.isValid = true) (n : ℕ) : (p.stage limits ledger n).Sound p := by
  induction n with
  | zero =>
    rw [stage_zero]
    split
    · exact List.forall_mem_singleton.mpr (defectsOf_steps h)
    · exact .inr rfl
  | succ n ih =>
    cases ha : p.stage limits ledger n with
    | ok agenda s =>
      rw [ha] at ih
      exact (moves_stage ha).sound h ih
    | error r s =>
      rw [stage_succ, ha]
      rw [ha] at ih
      exact ih

/-- A run of a valid program that is rejected for a value comes to it in a step that is not
void. -/
theorem exists_unevaluable (h : p.isValid = true) {r : Rejection} {s : RunState}
    (hr : r.isUnevaluable = true) (hrun : p.run limits ledger = .error r s) :
    ∃ n scope step steps rest t,
      p.stage limits ledger n = .ok (.steps scope (step :: steps) :: rest) t ∧
      p.stage limits ledger (n + 1) = .error r s ∧ ¬ step.IsVoid := by
  obtain ⟨n, hn⟩ := exists_stage_of_run_error hrun
  rcases exists_rejecting hn with h0 | ⟨m, agenda, t, ht, hm⟩
  · rw [stage_zero] at h0
    split at h0 <;> cases h0
    cases hr
  · obtain ⟨scope, step, steps, rest, rfl⟩ := (hm ▸ moves_stage ht).of_isUnevaluable hr
    have hs : Stage.Sound p (p.stage limits ledger m) := sound_stage h m
    rw [ht] at hs
    have hstep := (List.append_eq_nil_iff.mp (List.forall_mem_cons.mp hs).1).1
    exact ⟨m, scope, step, steps, rest, t, ht, hm, not_isVoid hstep⟩

/-- A run of a valid program is rejected for a value or for exceeding a ceiling. -/
theorem run_of_valid (h : p.isValid = true) {r : Rejection} {s : RunState}
    (hrun : p.run limits ledger = .error r s) : r.isUnevaluable = true ∨ r.isRunaway = true := by
  obtain ⟨n, hn⟩ := exists_stage_of_run_error hrun
  have hs : Stage.Sound p (p.stage limits ledger n) := sound_stage h n
  rw [hn] at hs
  exact hs

end Program
end VoxelBlueprint
