/-
# Names

A name that is written without anything around it is one token, and as an expression it stands for
the integer that it is bound to. As an argument or a block type it refers to its binding, whatever
this is.

Key definition: `Expression.IsName`.
Key theorems: `Expression.IsName.reference?`, `Expression.IsName.evaluate`.
-/
import VoxelBlueprint.Expression.Coercion
import VoxelBlueprint.Proofs.Expression.Lexemes
import VoxelBlueprint.Proofs.Text.Strip

namespace VoxelBlueprint
namespace Expression

/-- Whether a text is a name and nothing else. -/
def IsName (name : String) : Prop :=
  ∃ c rest, name.toList = c :: rest ∧ isNameStart c = true ∧ ∀ d ∈ rest, isNamePart d = true

/-- Tokens that are one factor have its value. -/
theorem evaluateTokens_of_factor {scope : Scope} {limit : Int} {t : Token} {tokens : List Token}
    {value : Except Fault Int}
    (h : factor scope limit limit.toNat (t :: tokens) = value.map fun v => (v, [])) :
    evaluateTokens scope limit (t :: tokens) = value := by
  simp only [evaluateTokens, sum, product, chain, h]
  cases value <;> rfl

namespace IsName

variable {name : String} {scope : Scope}

/-- There is no blank in a name. -/
theorem not_blank (h : IsName name) : ∀ c ∈ name.toList, Text.isBlank c = false := by
  obtain ⟨c, rest, hname, hc, hrest⟩ := h
  rw [hname]
  exact List.forall_mem_cons.mpr
    ⟨isBlank_of_isNameStart hc, fun d hd => isBlank_of_isNamePart (hrest d hd)⟩

theorem strip (h : IsName name) : Text.strip name.toList = name.toList :=
  Text.strip_of_trimmed (.of_forall h.not_blank)

theorem isIdentifier (h : IsName name) : Expression.isIdentifier name.toList = true := by
  have hlast : name.toList.getLast? ≠ some '\n' := fun hl => by
    have hblank := h.not_blank '\n' (List.mem_of_getLast? hl)
    exact absurd hblank (by decide)
  obtain ⟨c, rest, hname, hc, hrest⟩ := h
  unfold Expression.isIdentifier Text.dropFinalNewline
  rw [if_neg hlast, hname]
  simp only [hc, Bool.true_and]
  exact List.all_eq_true.mpr hrest

/-- **A name refers to its binding.** -/
theorem reference? (h : IsName name) (scope : Scope) :
    scope.reference? name = scope.find? name := by
  unfold Scope.reference?
  simp only [h.strip, h.isIdentifier, if_true, String.ofList_toList]

/-- A name is one token. -/
theorem tokenize (h : IsName name) :
    Expression.tokenize name.toList = .ok [⟨.name name.toList, 0⟩] := by
  have hlexeme : (Atom.name name.toList).IsLexeme := h
  have hlaid : Laid 0 (name.toList ++ []) [⟨.name name.toList, 0⟩] :=
    hlexeme.laid (List.forall_mem_nil _) 0
  rw [List.append_nil] at hlaid
  exact tokenizeFrom_of_laid hlaid

/-- **A name stands for the integer that it is bound to**, if one factor may be open. -/
theorem evaluate (h : IsName name) {limit : Int} (hl : 0 < limit) {value : Json}
    (hv : scope.find? name = some value) :
    Expression.evaluate scope limit name = integerOf name value := by
  obtain ⟨room, hroom⟩ : ∃ room, limit.toNat = room + 1 := ⟨limit.toNat - 1, by omega⟩
  have hfactor : factor scope limit limit.toNat [⟨.name name.toList, 0⟩] =
      (integerOf name value).map fun v => (v, []) := by
    rw [hroom]
    unfold factor
    simp only [String.ofList_toList, hv]
    cases integerOf name value <;> rfl
  unfold Expression.evaluate
  rw [h.tokenize]
  exact evaluateTokens_of_factor hfactor

end IsName
end Expression
end VoxelBlueprint
