/-
# Scopes that bind alike

Nothing but the values of names is asked of a scope. So an expression has the same value, or the
same fault, in two scopes in which every name has the same value, however their bindings are
arranged; and an argument passes the same, and a block type asks for the same block.

Key definition: `Scope.Same`.
Key theorems: `Scope.same_of_perm`, `Expression.evaluate_same`, `Expression.coerceArgument_same`,
`Catalog.requestedId_same`.
-/
import Mathlib.Data.List.Basic
import VoxelBlueprint.Catalog.Store
import VoxelBlueprint.Expression.Coercion

namespace VoxelBlueprint

/-! ### The values of names -/

/-- With names that are all different, the value of a name is the one that stands behind it. -/
theorem lookup_eq_some_iff_of_nodup {α : Type} {name : String} {value : α} :
    ∀ {entries : List (String × α)}, (entries.map (·.1)).Nodup →
      (entries.lookup name = some value ↔ (name, value) ∈ entries)
  | [], _ => by simp
  | (n, v) :: entries, h => by
    obtain ⟨hn, hnodup⟩ := List.nodup_cons.mp h
    rw [List.lookup_cons, List.mem_cons]
    by_cases he : name = n
    · subst he
      have hout : (name, value) ∉ entries := fun hm => hn (List.mem_map.mpr ⟨_, hm, rfl⟩)
      simp [hout, eq_comm]
    · have hb : (name == n) = false := beq_eq_false_iff_ne.mpr he
      simp [hb, he, lookup_eq_some_iff_of_nodup hnodup]

/-- The order of entries with different names does not count. -/
theorem lookup_perm {α : Type} {entries entries' : List (String × α)}
    (h : entries.Perm entries') (hn : (entries.map (·.1)).Nodup) (name : String) :
    entries'.lookup name = entries.lookup name := by
  have hn' : (entries'.map (·.1)).Nodup := (h.map (·.1)).nodup_iff.mp hn
  refine Option.ext fun value => ?_
  rw [lookup_eq_some_iff_of_nodup hn, lookup_eq_some_iff_of_nodup hn', h.mem_iff]

namespace Scope

/-- Whether every name has the same value in two scopes. -/
def Same (scope scope' : Scope) : Prop :=
  ∀ name, scope'.find? name = scope.find? name

variable {scope scope' : Scope}

theorem Same.refl (scope : Scope) : scope.Same scope := fun _ => rfl

theorem Same.bind (h : scope.Same scope') (counter : String) (value : Json) :
    (scope.bind counter value).Same (scope'.bind counter value) := fun name => by
  unfold find? Scope.bind
  rw [List.lookup_cons, List.lookup_cons]
  split
  · rfl
  · exact h name

theorem Same.append {bindings bindings' : Scope} (hb : bindings.Same bindings')
    (h : scope.Same scope') : (bindings ++ scope).Same (bindings' ++ scope') := fun name => by
  have hb := hb name
  have h := h name
  unfold find? at hb h ⊢
  rw [List.lookup_append, List.lookup_append, hb, h]

/-- Bindings of different names may stand in any order. -/
theorem same_of_perm (h : scope.Perm scope') (hn : (scope.map (·.1)).Nodup) : scope.Same scope' :=
  lookup_perm h hn

theorem Same.reference? (h : scope.Same scope') (text : String) :
    scope'.reference? text = scope.reference? text := by
  unfold Scope.reference?
  simp only [h _]

end Scope

/-! ### What stands for values -/

namespace Expression

variable {scope scope' : Scope}

theorem factor_same (h : scope.Same scope') (limit : Int) :
    ∀ room, factor scope' limit room = factor scope limit room
  | 0 => rfl
  | room + 1 => by
    have ih := factor_same h limit room
    funext tokens
    cases tokens with
    | nil => rfl
    | cons token tokens =>
      unfold factor
      simp only [ih, h _]

/-- **An expression is evaluated alike.** -/
theorem evaluate_same (h : scope.Same scope') : evaluate scope' = evaluate scope := by
  funext limit text
  unfold evaluate evaluateTokens
  simp only [factor_same h]

theorem coerce_same (h : scope.Same scope') : coerce scope' = coerce scope := by
  funext limit value
  cases value with
  | str text =>
    unfold coerce
    rw [evaluate_same h]
  | bool b => cases b <;> rfl
  | _ => rfl

/-- **An argument passes the same value.** -/
theorem coerceArgument_same (h : scope.Same scope') :
    coerceArgument scope' = coerceArgument scope := by
  funext limit value
  cases value with
  | str text =>
    unfold coerceArgument
    simp only [h.reference?, evaluate_same h]
  | _ => rfl

end Expression

/-- **A block type asks for the same block.** -/
theorem Catalog.requestedId_same {scope scope' : Scope} (h : scope.Same scope') :
    requestedId scope' = requestedId scope := by
  funext value
  cases value with
  | str text =>
    unfold requestedId
    simp only [h.reference?]
  | _ => rfl

end VoxelBlueprint
