/-
# Agendas

What an execution has still to do is an agenda: the rests of the lists of steps that
are open, and the loops whose counters have not come to their ends, the innermost
first. An execution goes on by single transitions, each of which takes something off
the agenda, may put something on it, and changes a state. It has come to its end when
nothing is left or a transition was rejected; from then on it stays as it is.

Here a loop is what it is in a document: it goes on as long as its counter has not
passed the last value. How many values that are is worked out nowhere.

Key definitions: `Task`, `Agenda.levels`, `Remains`, `Stage.next`, `Stage.Leads`.
Key theorems: `not_remains_of_loopCount`, `remains_of_loopCount`, `Stage.iterate_nil`.
-/
import VoxelBlueprint.Expansion.Execution
import Mathlib.Logic.Function.Iterate

namespace VoxelBlueprint

/-- A part of the work that is still to be done. -/
inductive Task where
  /-- The rest of a list of steps that is open, in its scope. -/
  | steps (scope : Scope) (rest : List Step)
  /-- A loop in its scope, the counter of which comes to `value` next. -/
  | loop (scope : Scope) (counter : String) (last stride : Int) (body : List Step) (value : Int)

/-- What is still to be done, the next part first. -/
abbrev Agenda := List Task

/-- How many lists of steps are open. -/
def Agenda.levels : Agenda → Nat
  | [] => 0
  | .steps _ _ :: rest => levels rest + 1
  | .loop _ _ _ _ _ _ :: rest => levels rest

/-! ### Counters -/

/-- Whether a counter that has come to `value` has not passed the last value. -/
def Remains (last stride value : Int) : Prop :=
  if 0 < stride then value ≤ last else last ≤ value

instance (last stride value : Int) : Decidable (Remains last stride value) :=
  inferInstanceAs (Decidable (if 0 < stride then value ≤ last else last ≤ value))

/-- A counter that has passed the last value takes no more values. -/
theorem loopCount_eq_zero {last stride value : Int} (hs : stride ≠ 0)
    (h : ¬ Remains last stride value) : loopCount value last stride = 0 := by
  unfold Remains at h
  unfold loopCount
  split <;> rename_i hp
  · rw [if_pos hp] at h
    have : (last - value) / stride < 0 := Int.ediv_neg_of_neg_of_pos (by omega) hp
    omega
  · rw [if_neg hp] at h
    have : (value - last) / -stride < 0 := Int.ediv_neg_of_neg_of_pos (by omega) (by omega)
    omega

/-- A counter that has not passed the last value takes one value more than it does after it. -/
theorem loopCount_eq_succ {last stride value : Int} (hs : stride ≠ 0)
    (h : Remains last stride value) :
    loopCount value last stride = loopCount (value + stride) last stride + 1 := by
  unfold Remains at h
  unfold loopCount
  split <;> rename_i hp
  · rw [if_pos hp] at h
    have h0 : 0 ≤ (last - value) / stride := Int.ediv_nonneg (by omega) (by omega)
    have h1 : last - (value + stride) = (last - value) + -1 * stride := by omega
    rw [h1, Int.add_mul_ediv_right _ _ hs]
    omega
  · rw [if_neg hp] at h
    have h0 : 0 ≤ (value - last) / -stride := Int.ediv_nonneg (by omega) (by omega)
    have h1 : value + stride - last = (value - last) + -1 * -stride := by omega
    rw [h1, Int.add_mul_ediv_right _ _ (by omega)]
    omega

/-- A counter that takes no more values has passed the last one. -/
theorem not_remains_of_loopCount {last stride value : Int} (hs : stride ≠ 0)
    (h : loopCount value last stride = 0) : ¬ Remains last stride value := fun hr => by
  rw [loopCount_eq_succ hs hr] at h
  omega

/-- A counter that takes more values has not passed the last one. -/
theorem remains_of_loopCount {last stride value : Int} (hs : stride ≠ 0) {count : ℕ}
    (h : loopCount value last stride = count + 1) :
    Remains last stride value ∧ loopCount (value + stride) last stride = count := by
  by_cases hr : Remains last stride value
  · rw [loopCount_eq_succ hs hr] at h
    exact ⟨hr, by omega⟩
  · rw [loopCount_eq_zero hs hr] at h
    omega

/-! ### Transitions -/

/-- How far an execution has come: what is left to do, or why it was rejected. -/
abbrev Stage (σ : Type) := EStateM.Result Rejection σ Agenda

/-- What an execution does next, given what is left to do. -/
abbrev Transition (σ : Type) := Agenda → EStateM Rejection σ Agenda

namespace Stage

variable {σ : Type} (t : Transition σ)

/-- The state in which an execution is. -/
def state : Stage σ → σ
  | .ok _ s => s
  | .error _ s => s

/-- The stage after one more transition. -/
def next : Stage σ → Stage σ
  | .ok agenda s => t agenda s
  | .error r s => .error r s

/-- Whether an execution comes from one stage to another. -/
def Leads (a b : Stage σ) : Prop := ∃ n, (next t)^[n] a = b

/-- The stage in which a part of an execution leaves what is to be done after it. -/
def ofResult (rest : Agenda) : EStateM.Result Rejection σ Unit → Stage σ
  | .ok _ s => .ok rest s
  | .error r s => .error r s

variable {t}

theorem Leads.refl (a : Stage σ) : Leads t a a := ⟨0, rfl⟩

theorem Leads.trans {a b d : Stage σ} : Leads t a b → Leads t b d → Leads t a d := by
  rintro ⟨n, rfl⟩ ⟨m, rfl⟩
  exact ⟨m + n, Function.iterate_add_apply _ m n a⟩

/-- One transition. -/
theorem Leads.one {agenda : Agenda} {s : σ} {a : Stage σ} (h : t agenda s = a) :
    Leads t (.ok agenda s) a := ⟨1, h⟩

/-- One transition, and what follows it. -/
theorem Leads.cons {agenda : Agenda} {s : σ} {a b : Stage σ} (h : t agenda s = a)
    (hab : Leads t a b) : Leads t (.ok agenda s) b :=
  (Leads.one h).trans hab

/-- What every transition keeps holds where an execution comes to. -/
theorem Leads.preserves {P : Stage σ → Prop} (hP : ∀ a, P a → P (next t a)) {a b : Stage σ} :
    Leads t a b → P a → P b := by
  rintro ⟨n, rfl⟩ ha
  induction n with
  | zero => exact ha
  | succ n ih =>
    rw [Function.iterate_succ_apply']
    exact hP _ ih

/-- A rejected execution stays as it is. -/
theorem iterate_error (n : ℕ) (r : Rejection) (s : σ) :
    (next t)^[n] (.error r s) = .error r s :=
  Function.iterate_fixed rfl n

/-- An execution with nothing left to do stays as it is. -/
theorem iterate_nil (ht : ∀ s, t [] s = .ok [] s) (n : ℕ) (s : σ) :
    (next t)^[n] (.ok [] s) = .ok [] s :=
  Function.iterate_fixed (ht s) n

end Stage
end VoxelBlueprint
