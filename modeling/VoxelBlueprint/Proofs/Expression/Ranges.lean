/-
# Values in range

An integer may circulate when it has no more than 1024 bits. Literals, bindings, sums,
differences and products are checked for this where they arise. A change of the sign, a quotient
and a float without its part behind the point are not, and need not be: the first two are no wider
than what they are made of, and no finite float is as large as `2 ^ 1024`. A binding that is
passed on as an argument is in range if the scope that it comes from is.

Key definition: `Scope.InRange`.
Key theorems: `Binary64.Finite.inRange_truncate`, `Expression.Tree.Evaluates.inRange`,
`Expression.inRange_of_evaluate`, `Expression.inRange_of_coerce`,
`Expression.inRange_of_coerceArgument`.
-/
import VoxelBlueprint.Expression.Coercion
import VoxelBlueprint.Proofs.Expression.Reading

namespace VoxelBlueprint

/-- Whether the integers that are bound in a scope are in range. -/
def Scope.InRange (scope : Scope) : Prop :=
  ∀ name n, (name, Json.int n) ∈ scope → Expression.InRange n

namespace Scope.InRange

theorem nil : InRange [] := fun _ _ h => absurd h List.not_mem_nil

theorem append {scope scope' : Scope} (h : scope.InRange) (h' : scope'.InRange) :
    InRange (scope ++ scope') := fun name n hm =>
  (List.mem_append.mp hm).elim (h name n) (h' name n)

/-- One more binding must be in range itself, if it is to an integer. -/
theorem bind {scope : Scope} (h : scope.InRange) (name : String) {value : Json}
    (hv : ∀ n, value = .int n → Expression.InRange n) : (scope.bind name value).InRange := by
  intro other n hm
  rcases List.mem_cons.mp hm with he | hm
  · obtain ⟨-, he⟩ := Prod.mk.inj he
    exact hv n he.symm
  · exact h other n hm

/-- A name stands for a binding of the scope. -/
theorem find? {scope : Scope} (h : scope.InRange) {name : String} {n : Int}
    (hf : scope.find? name = some (.int n)) : Expression.InRange n := by
  obtain ⟨before, after, hs, -⟩ := List.lookup_eq_some_iff.mp hf
  exact h name n (hs ▸ List.mem_append_right before List.mem_cons_self)

/-- A text stands for a binding of the scope if it refers to one. -/
theorem reference? {scope : Scope} (h : scope.InRange) {text : String} {n : Int}
    (hr : scope.reference? text = some (.int n)) : Expression.InRange n := by
  unfold Scope.reference? at hr
  by_cases hi : Expression.isIdentifier (Text.strip text.toList) = true
  · exact h.find? ((if_pos hi).symm.trans hr)
  · exact absurd ((if_neg hi).symm.trans hr) (by simp)

end Scope.InRange

/-- A mantissa of so many bits and an exponent up to a bound give so many bits together. -/
theorem mul_two_pow_lt {m e digits bound bits : ℕ} (hm : m < Nat.pow 2 digits) (he : e ≤ bound)
    (hb : digits + bound = bits) : m * Nat.pow 2 e < Nat.pow 2 bits := by
  subst hb
  simp only [Nat.pow_eq, Nat.pow_add] at hm ⊢
  calc m * 2 ^ e
      ≤ m * 2 ^ bound := Nat.mul_le_mul_left _ (Nat.pow_le_pow_right Nat.two_pos he)
    _ < 2 ^ digits * 2 ^ bound := Nat.mul_lt_mul_of_pos_right hm (Nat.two_pow_pos bound)

/-- No finite number is as large as `2 ^ 1024`: its mantissa has 53 bits, and its exponent is at
most 971. -/
theorem Binary64.Finite.inRange_truncate (x : Binary64.Finite) :
    Expression.InRange x.truncate := by
  have he : x.exponent.toNat ≤ 971 := by
    have := x.exponent_le
    omega
  have hb : 53 + 971 = Expression.maxBits := rfl
  have hnum : x.ratio.1 < Nat.pow 2 Expression.maxBits := mul_two_pow_lt x.mantissa_lt he hb
  have hwhole : x.ratio.1 / x.ratio.2 < Nat.pow 2 Expression.maxBits :=
    (Nat.div_le_self _ _).trans_lt hnum
  exact (Expression.inRange_signed x.negative ((x.ratio.1 / x.ratio.2 : ℕ) : Int)).mpr hwhole

namespace Expression

/-! ### Expressions -/

/-- A quotient is no wider than the dividend. -/
theorem inRange_tdiv {u : Int} (h : InRange u) (w : Int) : InRange (u.tdiv w) :=
  (Int.natAbs_tdiv_le_natAbs u w).trans_lt h

theorem Operator.Gives.inRange {l : Level} {o : Operator l} {u w v : Int} (h : o.Gives u w v)
    (hu : InRange u) : InRange v := by
  cases h with
  | plus hr | minus hr | times hr => exact hr
  | slash => exact inRange_tdiv hu w

theorem Writes.inRange {text : List Char} {v : Int} (h : Writes text v) : InRange v := by
  cases h with
  | spell negative _ _ _ _ hr => exact (inRange_signed negative _).mpr hr

theorem Binds.inRange {value : Json} {v : Int} (h : Binds value v) : InRange v := by
  cases h with
  | int hr => exact hr
  | str hw => exact hw.inRange

/-- The integer for which a derivation stands is in range, whatever the scope holds. -/
theorem Tree.Evaluates.inRange {scope : Scope} {phrase : Phrase} {tree : Tree phrase} {v : Int}
    (h : tree.Evaluates scope v) : InRange v := by
  induction h with
  | single _ ih => exact ih
  | link _ _ hg ih => exact hg.inRange ih
  | @signed negative _ v _ ih => exact (inRange_signed negative v).mpr ih
  | number hw => exact hw.inRange
  | name _ hb => exact hb.inRange
  | paren _ ih => exact ih

section Values

variable {scope : Scope} {limit : Int}

/-- The value of an expression is in range. -/
theorem inRange_of_evaluate {text : String} {v : Int} (h : evaluate scope limit text = .ok v) :
    InRange v := by
  obtain ⟨_, _, tree, _, _, he⟩ := evaluate_eq_ok.mp h
  exact he.inRange

/-- The integer for which a value stands is in range. -/
theorem inRange_of_coerce {value : Json} {v : Int} (h : coerce scope limit value = .ok v) :
    InRange v := by
  cases value with
  | int n =>
    obtain ⟨hr, rfl⟩ := checked_eq_ok.mp h
    exact hr
  | float x =>
    cases x with
    | finite x =>
      cases h
      exact x.inRange_truncate
    | nan | infinite => cases h
  | str text => exact inRange_of_evaluate h
  | bool b => cases b <;> cases h
  | null | arr | obj => cases h

/-- An integer that is passed as an argument is in range if the caller's scope is. -/
theorem inRange_of_coerceArgument (hs : scope.InRange) {value : Json} {n : Int}
    (h : coerceArgument scope limit value = .ok (.int n)) : InRange n := by
  have number {value : Json} (h : Json.int <$> coerce scope limit value = .ok (.int n)) :
      InRange n := by
    obtain ⟨v, hv, h⟩ := Effects.bind_eq_ok h
    cases h
    exact inRange_of_coerce hv
  cases value with
  | int m => exact number h
  | float x => exact number h
  | str text =>
    cases href : scope.reference? text with
    | some value =>
      simp only [coerceArgument, href] at h
      cases h
      exact hs.reference? href
    | none =>
      simp only [coerceArgument, href] at h
      cases he : evaluate scope limit text with
      | ok v =>
        rw [he] at h
        cases h
        exact inRange_of_evaluate he
      | error fault =>
        rw [he] at h
        cases h
  | null | bool | arr | obj => cases h

end Values

end Expression
end VoxelBlueprint
