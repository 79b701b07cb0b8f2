/-
# The values of a step

The coordinates of a placement, the range of a loop and the arguments of a call. Of the
ceilings they depend on the one on open factors alone, and they are never rejected for
exceeding one of the others.

Key definitions: `Rejection.isRunaway`, `Rejection.isUnevaluable`.
Key theorems: `coordinatesAt_congr`, `loopRange_congr`, `enterCall_congr`, `stride_ne_zero`,
`isUnevaluable_coordinatesAt`, `isUnevaluable_loopRange`, `enterCall_eq_error`.
-/
import VoxelBlueprint.Expansion.Execution
import VoxelBlueprint.Proofs.Effects

namespace VoxelBlueprint

open Effects

/-! ### The ceiling that they depend on -/

section Depth

variable {limits limits' : Limits}

theorem integerAt_congr (h : limits'.maxExpressionDepth = limits.maxExpressionDepth) :
    integerAt limits' = integerAt limits := by
  funext scope path value
  unfold integerAt
  rw [h]

theorem argumentAt_congr (h : limits'.maxExpressionDepth = limits.maxExpressionDepth) :
    argumentAt limits' = argumentAt limits := by
  funext scope path value
  unfold argumentAt
  rw [h]

theorem coordinatesAt_congr (h : limits'.maxExpressionDepth = limits.maxExpressionDepth) :
    coordinatesAt limits' = coordinatesAt limits := by
  funext scope path x y z
  unfold coordinatesAt
  rw [integerAt_congr h]

theorem loopRange_congr (h : limits'.maxExpressionDepth = limits.maxExpressionDepth) :
    loopRange limits' = loopRange limits := by
  funext scope start stop stride
  unfold loopRange
  rw [integerAt_congr h]

theorem bindArguments_congr (h : limits'.maxExpressionDepth = limits.maxExpressionDepth)
    (scope : Scope) (callee : String) : ∀ asked : List (String × Option Json),
    bindArguments limits' scope callee asked = bindArguments limits scope callee asked
  | [] => rfl
  | (_, none) :: _ => rfl
  | (_, some _) :: asked => by
    rw [bindArguments, bindArguments, argumentAt_congr h, bindArguments_congr h scope callee asked]

theorem enterCall_congr {c c' : RunContext} (hp : c'.program = c.program)
    (h : c'.limits.maxExpressionDepth = c.limits.maxExpressionDepth) :
    enterCall c' = enterCall c := by
  funext scope callee arguments
  unfold enterCall
  rw [hp]
  cases c.program.find? callee with
  | none => rfl
  | some d => simp only [bindArguments_congr h]

end Depth

/-- The range of a loop has a stride that is not zero. -/
theorem stride_ne_zero {limits : Limits} {scope : Scope} {start stop step : Json}
    {first last stride : Int}
    (h : loopRange limits scope start stop step = .ok (first, last, stride)) : stride ≠ 0 := by
  obtain ⟨_, -, h⟩ := bind_eq_ok h
  obtain ⟨_, -, h⟩ := bind_eq_ok h
  obtain ⟨_, -, h⟩ := bind_eq_ok h
  split at h
  · cases h
  · cases h
    assumption

/-! ### Their rejections -/

/-- Whether a rejection is for exceeding a ceiling. -/
def Rejection.isRunaway : Rejection → Bool
  | .runaway _ _ => true
  | _ => false

/-- Whether a rejection is for a value. -/
def Rejection.isUnevaluable : Rejection → Bool
  | .unevaluable _ _ _ => true
  | _ => false

theorem Rejection.isRunaway_of_isUnevaluable {r : Rejection} (h : r.isUnevaluable = true) :
    r.isRunaway = false := by
  cases r with
  | unevaluable => rfl
  | _ => cases h

section Values

variable {limits : Limits} {scope : Scope} {r : Rejection}

theorem isUnevaluable_integerAt {path : Path} {value : Json}
    (h : integerAt limits scope path value = .error r) : r.isUnevaluable = true := by
  unfold integerAt at h
  cases hc : Expression.coerce scope limits.maxExpressionDepth value <;> rw [hc] at h <;> cases h
  rfl

theorem isUnevaluable_coordinatesAt {path : Path} {x y z : Json}
    (h : coordinatesAt limits scope path x y z = .error r) : r.isUnevaluable = true := by
  rcases bind_eq_error h with hx | ⟨_, -, h⟩
  · exact isUnevaluable_integerAt hx
  rcases bind_eq_error h with hy | ⟨_, -, h⟩
  · exact isUnevaluable_integerAt hy
  rcases bind_eq_error h with hz | ⟨_, -, h⟩
  · exact isUnevaluable_integerAt hz
  · cases h

theorem isUnevaluable_loopRange {start stop stride : Json}
    (h : loopRange limits scope start stop stride = .error r) : r.isUnevaluable = true := by
  rcases bind_eq_error h with hx | ⟨_, -, h⟩
  · exact isUnevaluable_integerAt hx
  rcases bind_eq_error h with hy | ⟨_, -, h⟩
  · exact isUnevaluable_integerAt hy
  rcases bind_eq_error h with hz | ⟨_, -, h⟩
  · exact isUnevaluable_integerAt hz
  split at h <;> cases h
  rfl

theorem isUnevaluable_argumentAt {path : Path} {value : Json}
    (h : argumentAt limits scope path value = .error r) : r.isUnevaluable = true := by
  unfold argumentAt at h
  cases hc : Expression.coerceArgument scope limits.maxExpressionDepth value <;>
    rw [hc] at h <;> cases h
  rfl

/-- Arguments are rejected for the value of one, or because one is missing. -/
theorem bindArguments_eq_error {callee : String} : ∀ {asked : List (String × Option Json)},
    bindArguments limits scope callee asked = .error r →
      r.isUnevaluable = true ∨ ∃ name, (name, none) ∈ asked ∧
        r = .malformed
          ⟨.missingParameter name callee, [.field "call", .field callee, .field "args"]⟩
  | (name, none) :: _, h => by
    cases h
    exact .inr ⟨name, List.mem_cons_self, rfl⟩
  | (_, some _) :: _, h => by
    rcases bind_eq_error h with ha | ⟨_, -, h⟩
    · exact .inl (isUnevaluable_argumentAt ha)
    rcases bind_eq_error h with hb | ⟨_, -, h⟩
    · refine (bindArguments_eq_error hb).imp_right fun ⟨name, hm, hr⟩ => ?_
      exact ⟨name, List.mem_cons_of_mem _ hm, hr⟩
    · cases h

/-- A call is rejected for the value of an argument, or because an argument or the definition
is missing. -/
theorem enterCall_eq_error {c : RunContext} {callee : String} {arguments : List (String × Json)}
    (h : enterCall c scope callee arguments = .error r) :
    r.isUnevaluable = true ∨
      c.program.find? callee = none ∧
        r = .malformed ⟨.unknownCallee callee, [.field "call", .field callee]⟩ ∨
      ∃ d name, c.program.find? callee = some d ∧ (name, none) ∈ askedArguments d arguments ∧
        r = .malformed
          ⟨.missingParameter name callee, [.field "call", .field callee, .field "args"]⟩ := by
  unfold enterCall at h
  cases hd : c.program.find? callee with
  | none =>
    rw [hd] at h
    cases h
    exact .inr (.inl ⟨rfl, rfl⟩)
  | some d =>
    rw [hd] at h
    rcases bind_eq_error h with hb | ⟨_, -, h⟩
    · exact (bindArguments_eq_error hb).imp_right fun ⟨name, hm, hr⟩ => .inr ⟨d, name, rfl, hm, hr⟩
    · cases h

theorem isRunaway_coordinatesAt {path : Path} {x y z : Json}
    (h : coordinatesAt limits scope path x y z = .error r) : r.isRunaway = false :=
  r.isRunaway_of_isUnevaluable (isUnevaluable_coordinatesAt h)

theorem isRunaway_loopRange {start stop stride : Json}
    (h : loopRange limits scope start stop stride = .error r) : r.isRunaway = false :=
  r.isRunaway_of_isUnevaluable (isUnevaluable_loopRange h)

theorem isRunaway_enterCall {c : RunContext} {callee : String} {arguments : List (String × Json)}
    (h : enterCall c scope callee arguments = .error r) : r.isRunaway = false := by
  rcases enterCall_eq_error h with hu | ⟨-, rfl⟩ | ⟨_, _, -, -, rfl⟩
  · exact r.isRunaway_of_isUnevaluable hu
  · rfl
  · rfl

end Values

end VoxelBlueprint
