/-
# Steps with a defect are rejected

A defect is told from a step as it is written, and yet no execution gets past it. Whatever the
scope, the depth, the limits and the work so far, the step is rejected: for its defect, for
another of its values that comes before, or since a ceiling is exceeded. Only when the output is
full is it not looked at.

Key theorems: `Json.IsZeroLiteral.eq_zero`, `not_loopRange_of_zero`, `not_enterCall`,
`runStep_of_defect`, `Session.execute_of_defect`, `Program.defects_found_once_and_fatal`.
-/
import VoxelBlueprint.Expansion.Session
import VoxelBlueprint.Proofs.Execution.Adequacy
import VoxelBlueprint.Proofs.Expression.Zeros
import VoxelBlueprint.Proofs.Program.Findings

namespace VoxelBlueprint

open Effects Expression

variable {limits : Limits} {scope : Scope}

/-! ### Values -/

/-- What is no success of a computation that may only fail is a failure. -/
theorem exists_failure {ε α : Type} {x : Except ε α} (h : ∀ a, x ≠ .ok a) :
    ∃ e, x = .error e := by
  cases x with
  | error e => exact ⟨e, rfl⟩
  | ok a => exact absurd rfl (h a)

theorem coerce_of_integerAt {path : Path} {value : Json} {n : Int}
    (h : integerAt limits scope path value = .ok n) :
    coerce scope limits.maxExpressionDepth value = .ok n := by
  unfold integerAt at h
  cases hc : coerce scope limits.maxExpressionDepth value with
  | error fault => rw [hc] at h; cases h
  | ok m =>
    rw [hc] at h
    cases h
    rfl

/-- A stride that is zero as it is written is zero, if it has a value. -/
theorem Json.IsZeroLiteral.eq_zero {stride : Json} (hz : stride.IsZeroLiteral) {limit n : Int}
    (h : coerce scope limit stride = .ok n) : n = 0 := by
  cases stride with
  | int m =>
    exact (checked_eq_ok.mp h).2.symm.trans hz
  | float x =>
    have hx : x.truncate? = some 0 := hz
    rw [coerce, hx] at h
    cases h
    rfl
  | str text => exact eq_zero_of_evaluate hz h
  | _ => exact hz.elim

/-- A coordinate that is missing has no value. -/
theorem not_integerAt_null {path : Path} {n : Int} :
    integerAt limits scope path .null ≠ .ok n := nofun

/-- A stride that is not finite has no value. -/
theorem not_coerce_of_not_finite {x : Binary64} (hx : x.isFinite = false) {limit n : Int} :
    coerce scope limit (.float x) ≠ .ok n := by
  cases x with
  | finite value => cases hx
  | _ => exact nofun

/-! ### Steps -/

/-- A loop has no range if its stride is zero as it is written. -/
theorem not_loopRange_of_zero {start stop stride : Json} (hz : stride.IsZeroLiteral)
    {range : Int × Int × Int} : loopRange limits scope start stop stride ≠ .ok range := by
  intro h
  obtain ⟨first, -, h⟩ := bind_eq_ok h
  obtain ⟨last, -, h⟩ := bind_eq_ok h
  obtain ⟨n, hn, h⟩ := bind_eq_ok h
  have hzero : n = 0 := hz.eq_zero (coerce_of_integerAt hn)
  rw [if_pos hzero] at h
  cases h

theorem not_loopRange_of_not_finite {start stop : Json} {x : Binary64} (hx : x.isFinite = false)
    {range : Int × Int × Int} : loopRange limits scope start stop (.float x) ≠ .ok range := by
  intro h
  obtain ⟨first, -, h⟩ := bind_eq_ok h
  obtain ⟨last, -, h⟩ := bind_eq_ok h
  obtain ⟨n, hn, -⟩ := bind_eq_ok h
  exact not_coerce_of_not_finite hx (coerce_of_integerAt hn)

theorem not_coordinatesAt {path : Path} {x y z : Json} {axis : Axis}
    (hnull : axis.select x y z = .null) {place : Int × Int × Int} :
    coordinatesAt limits scope path x y z ≠ .ok place := by
  intro h
  obtain ⟨i, hi, h⟩ := bind_eq_ok h
  obtain ⟨j, hj, h⟩ := bind_eq_ok h
  obtain ⟨k, hk, -⟩ := bind_eq_ok h
  cases axis with
  | x => cases hnull; exact not_integerAt_null hi
  | y => cases hnull; exact not_integerAt_null hj
  | z => cases hnull; exact not_integerAt_null hk

/-- Arguments are not bound if one that is asked for is missing. -/
theorem not_bindArguments {callee name : String} : ∀ {asked : List (String × Option Json)},
    (name, none) ∈ asked →
      ∀ {bindings : Scope}, bindArguments limits scope callee asked ≠ .ok bindings
  | [], hm, _, _ => absurd hm List.not_mem_nil
  | (_, none) :: _, _, _, h => nomatch h
  | (_, some value) :: asked, hm, _, h => by
    obtain ⟨value, -, h⟩ := bind_eq_ok h
    obtain ⟨bindings, hb, -⟩ := bind_eq_ok h
    rcases List.mem_cons.mp hm with he | hm
    · cases he
    · exact not_bindArguments hm hb

/-- A parameter without an argument is asked for. -/
theorem mem_askedArguments {d : Definition} {q : String} {arguments : List (String × Json)}
    (hq : q ∈ d.parameters) (hmissing : ∀ value, (q, value) ∉ arguments) :
    (q, none) ∈ askedArguments d arguments := by
  have hsome : ¬ d.parameters.isEmpty = true := by
    rw [List.isEmpty_iff]
    exact List.ne_nil_of_mem hq
  unfold askedArguments
  rw [if_neg hsome]
  refine List.mem_map.mpr ⟨q, hq, ?_⟩
  rw [Option.isNone_iff_eq_none.mp (isNone_lookup.mpr hmissing)]

theorem not_enterCall {c : RunContext} {callee : String} {arguments : List (String × Json)}
    {part : Nat} {defect : Defect}
    (hd : c.program.HasDefect (.call callee arguments) part defect) {entered : List Step × Scope} :
    enterCall c scope callee arguments ≠ .ok entered := by
  intro h
  unfold enterCall at h
  cases hd with
  | unknownCallee hnone =>
    rw [Program.find?_eq_none.mpr hnone] at h
    cases h
  | missingParameter hfind hq hmissing =>
    rw [hfind] at h
    obtain ⟨bindings, hb, -⟩ := bind_eq_ok h
    exact not_bindArguments (mem_askedArguments (List.mem_of_getElem? hq) hmissing) hb

section Execution

variable {c : RunContext} {step : Step} {part : Nat} {defect : Defect}

/-- **A step with a defect is rejected**, whatever is executed inside it. -/
theorem runStep_of_defect (hd : c.program.HasDefect step part defect) (inner : Executor)
    (scope : Scope) (s : RunState) : ∃ r t, runStep c inner scope step s = .error r t := by
  cases step with
  | place x y z blockType =>
    cases hd with
    | missingCoordinate axis hnull =>
      have hplace : ∀ place, coordinatesAt c.limits scope [.field "place"] x y z ≠ .ok place :=
        fun _ => not_coordinatesAt hnull
      obtain ⟨r, hr⟩ := exists_failure hplace
      exact ⟨r, s, by rw [runStep, runPlace, ofExcept_bind_apply, hr]⟩
  | loop counter start stop stride body =>
    have hrange : ∀ range, loopRange c.limits scope start stop stride ≠ .ok range := fun _ => by
      cases hd with
      | zeroStride hz => exact not_loopRange_of_zero hz
      | nonFiniteStride hx => exact not_loopRange_of_not_finite hx
    obtain ⟨r, hr⟩ := exists_failure hrange
    exact ⟨r, s, by rw [runStep, runLoop_apply, hr]⟩
  | call callee arguments =>
    have hentered : ∀ entered, enterCall c scope callee arguments ≠ .ok entered :=
      fun _ => not_enterCall hd
    obtain ⟨r, hr⟩ := exists_failure hentered
    rw [runStep, runCall_apply, hr]
    split
    · exact ⟨_, _, rfl⟩
    · exact ⟨_, _, rfl⟩
  | invalid malformation => exact ⟨_, _, rfl⟩

/-- A list that starts with a step with a defect is rejected while there is room. -/
theorem execute_of_defect (hd : c.program.HasDefect step part defect) {s : RunState}
    (hroom : s.isFull c.limits = false) (room : Nat) (rest : List Step) (scope : Scope) :
    ∃ r t, execute c room (step :: rest) scope s = .error r t := by
  cases room with
  | zero => exact ⟨_, _, rfl⟩
  | succ room =>
    have hroom' : (s.countLevels (c.maxLevels - room)).isFull c.limits = false :=
      (RunState.isFull_congr c.limits rfl).trans hroom
    rw [execute, modify_bind_apply, runSteps_cons, if_neg (by simp [hroom'])]
    split
    · exact ⟨_, _, rfl⟩
    · obtain ⟨r, t, hr⟩ := runStep_of_defect hd (execute c room) scope
        (s.countLevels (c.maxLevels - room)).countStep
      exact ⟨r, t, by rw [hr]⟩

end Execution

/-- In a session a step with a defect is rejected, whatever was done before. -/
theorem Session.execute_of_defect {session : Session} {step : Step} {part : Nat} {defect : Defect}
    (hd : session.context.program.HasDefect step part defect)
    (hroom : session.state.isFull session.context.limits = false) (depth : Int) (scope : Scope) :
    ∃ session' r, session.execute depth [step] scope = (session', some r) := by
  obtain ⟨r, t, hr⟩ := VoxelBlueprint.execute_of_defect hd hroom
    (session.context.limits.maxCallDepth + 1 - depth).toNat [] scope
  refine ⟨{ session with state := t }, r, ?_⟩
  unfold Session.execute Session.perform
  simp only [hr]

/-! ### Programs -/

/-- **Every defect of a program is found once, and none is a false alarm.** The texts that tell what
is wrong with a program are those of findings, which come in the order of the document and of which
none comes twice: one for each call of a name that is not defined, each declared parameter that a
call leaves out, each loop with a stride that is zero as it is written or not finite, each
coordinate that a block lacks and each step that could not be read. And wherever a session stands,
as long as its output is not full, a step of which something is found is rejected when it is
executed, in whatever scope and at whatever depth. -/
theorem Program.defects_found_once_and_fatal (p : Program) :
    (∃ findings : List Finding, findings.Pairwise Finding.Before ∧
      (∀ f, f ∈ findings ↔ ∃ step, p.FindsIn f step) ∧
      p.errorTexts = findings.map Finding.text) ∧
    ∀ (f : Finding) (step : Step), p.FindsIn f step →
      ∀ session : Session, session.context.program = p →
        session.state.isFull session.context.limits = false →
        ∀ (depth : Int) (scope : Scope),
          ∃ session' r, session.execute depth [step] scope = (session', some r) := by
  constructor
  · exact ⟨p.findings, p.pairwise_findings, fun f => mem_findings, p.errorTexts_eq_findings⟩
  · rintro f step ⟨steps, -, -, hd⟩ session rfl hroom depth scope
    exact Session.execute_of_defect hd hroom depth scope

/-- A loop that never moves on, with a call and a block in it that say too little. -/
def flawed : Program :=
  { steps :=
      [.loop "i" (.int 0) (.int 1) (.str " -0 ")
        [.call "f" [("a", .int 1)], .place .null (.int 0) .null (.str "a")]]
    definitions :=
      [{ name := "f", parameters := ["a", "b", "b"], steps := [.call "g" []] }] }

theorem Program.defects_found_once_and_fatal_flawed :
    (∃ findings : List Finding, findings.Pairwise Finding.Before ∧ findings.map Finding.text =
      ["steps: loop over 'i' has step 0", "steps: call to 'f' is missing parameter 'b'",
        "steps: call to 'f' is missing parameter 'b'", "steps: place step is missing 'x'",
        "steps: place step is missing 'z'", "def 'f': call to unknown function 'g'"]) ∧
    ∃ session' r, ({ context := { program := flawed } } : Session).execute 3
      [.call "f" [("a", .int 1)]] [("b", .int 2)] = (session', some r) := by
  obtain ⟨⟨findings, hordered, -, htexts⟩, hfatal⟩ := Program.defects_found_once_and_fatal flawed
  have hfound : flawed.FindsIn ⟨0, .program, [0, 0], 2, .missingParameter "f" "b"⟩
      (.call "f" [("a", .int 1)]) :=
    ⟨flawed.steps, rfl, .inside rfl (.here rfl), .missingParameter rfl rfl (by simp)⟩
  exact ⟨⟨findings, hordered, htexts.symm.trans (by decide +kernel)⟩,
    hfatal _ _ hfound _ rfl rfl 3 _⟩

end VoxelBlueprint
