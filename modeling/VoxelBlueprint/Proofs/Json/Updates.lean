/-
# Values with a part replaced

The part of a value to which a path leads can be replaced by another one. What is replaced in a
field of an object leaves the other fields as they are, and what is replaced in an item of an array
leaves the other items as they are.

Key definitions: `Json.put`, `Json.SameBut`.
Key theorems: `lookup_setField`, `Json.at?_append`, `Json.put_field`, `Json.at?_put`.
-/
import Mathlib.Data.List.Basic
import VoxelBlueprint.Path

namespace VoxelBlueprint

theorem lookup_setField (name : String) (value : Json) (name' : String) :
    ∀ fields : List (String × Json),
      (Json.setField name value fields).lookup name' =
        if name' = name then some value else fields.lookup name'
  | [] => by
    by_cases h : name' = name
    · simp [Json.setField, h]
    · have hb : (name' == name) = false := beq_eq_false_iff_ne.mpr h
      simp [Json.setField, h, List.lookup_cons, hb]
  | (n, v) :: fields => by
    have ih := lookup_setField name value name' fields
    unfold Json.setField
    by_cases hn : n = name
    · by_cases h : name' = name
      · simp [hn, h]
      · have hb : (name' == name) = false := beq_eq_false_iff_ne.mpr h
        simp [hn, h, List.lookup_cons, hb]
    · by_cases h : name' = n
      · simp [h, hn]
      · rw [if_neg hn, List.lookup_cons, List.lookup_cons, beq_eq_false_iff_ne.mpr h]
        exact ih

namespace Json

variable {value inner part : Json} {name : String} {path : Path}

/-! ### Parts of parts -/

theorem at?_field : at? (.field name :: path) value = some part ↔
    ∃ inner, value.field? name = some inner ∧ at? path inner = some part := by
  simp [at?, Option.bind_eq_some_iff]

theorem at?_index {n : Nat} : at? (.index n :: path) value = some part ↔
    ∃ items inner, value = .arr items ∧ items[n]? = some inner ∧ at? path inner = some part := by
  cases value <;> simp [at?, array?, Option.bind_eq_some_iff]

/-- A path leads on from where its front leads. -/
theorem at?_append (path path' : Path) (value : Json) :
    at? (path ++ path') value = (at? path value).bind (at? path') := by
  induction path generalizing value with
  | nil => rfl
  | cons segment path ih =>
    cases segment with
    | field name =>
      have htail : at? (path ++ path') = fun inner => (at? path inner).bind (at? path') :=
        funext ih
      simp only [List.cons_append, at?, Option.bind_eq_bind, Option.bind_assoc, htail]
    | index n =>
      have htail : at? (path ++ path') = fun inner => (at? path inner).bind (at? path') :=
        funext ih
      simp only [List.cons_append, at?, Option.bind_eq_bind, Option.bind_assoc, htail]

/-- A field that has a value other than null is there. -/
theorem field?_of_field (h : value.field name = part) (hpart : part ≠ .null) :
    value.field? name = some part := by
  unfold field at h
  cases hf : value.field? name with
  | none =>
    rw [hf] at h
    exact absurd h.symm hpart
  | some inner =>
    rw [hf] at h
    exact congrArg some h

theorem field_of_field? (h : value.field? name = some part) : value.field name = part := by
  rw [field, h]
  rfl

/-! ### Replacing parts -/

/-- The value with another one in the place of the part to which a path leads. -/
def put (new : Json) : Path → Json → Json
  | [], _ => new
  | .field name :: path, .obj fields =>
    .obj (setField name (put new path ((fields.lookup name).getD .null)) fields)
  | .index n :: path, .arr items => .arr (items.modify n (put new path))
  | _ :: _, value => value

/-- Whether two objects have the same fields but for one. -/
structure SameBut (name : String) (value value' : Json) : Prop where
  isObject : value.isObject = true
  isObject' : value'.isObject = true
  field : ∀ other, other ≠ name → value'.field other = value.field other

/-- What is replaced in a field leaves the others as they are. -/
theorem put_field (new : Json) (path : Path) (h : value.field? name = some inner) :
    value.SameBut name (put new (.field name :: path) value) ∧
      (put new (.field name :: path) value).field? name = some (put new path inner) := by
  cases value with
  | obj fields =>
    have hlookup : fields.lookup name = some inner := h
    have hput : put new (.field name :: path) (.obj fields) =
        .obj (setField name (put new path inner) fields) := by
      rw [put, hlookup, Option.getD_some]
    have hset (other : String) : (put new (.field name :: path) (.obj fields)).field? other =
        if other = name then some (put new path inner) else fields.lookup other := by
      rw [hput]
      exact lookup_setField name (put new path inner) other fields
    refine ⟨⟨rfl, by rw [hput]; rfl, fun other hne => ?_⟩, (hset name).trans (if_pos rfl)⟩
    rw [Json.field, hset, if_neg hne]
    rfl
  | _ => cases h

/-- What is put in the place of a part is found there. -/
theorem at?_put (new : Json) : ∀ {path : Path} {value part : Json}, at? path value = some part →
    at? path (put new path value) = some new
  | [], _, _, _ => rfl
  | .field name :: path, _, _, h => by
    obtain ⟨inner, hfield, h⟩ := at?_field.mp h
    exact at?_field.mpr ⟨_, (put_field new path hfield).2, at?_put new h⟩
  | .index n :: path, _, _, h => by
    obtain ⟨items, inner, rfl, hitem, h⟩ := at?_index.mp h
    refine at?_index.mpr ⟨_, put new path inner, rfl, ?_, at?_put new h⟩
    rw [List.getElem?_modify, hitem]
    simp

end Json
end VoxelBlueprint
