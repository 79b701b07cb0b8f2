/-
# Texts that stand for zero

A zero between blanks, with a sign before it or none, is an expression that stands for zero in every
scope. It has no value at all where the limit does not allow that its factors are open, but it
never has another one.

Key theorems: `Expression.tokenize_zero`, `Expression.eq_zero_of_evaluate`.
-/
import VoxelBlueprint.Proofs.Expression.Lexemes
import VoxelBlueprint.Proofs.Expression.Reading
import VoxelBlueprint.Proofs.Text.Strip

namespace VoxelBlueprint
namespace Expression

open Effects

/-! ### Tokens -/

/-- A zero with blanks behind it is a number. -/
theorem laid_zero {behind : List Char} (hb : ∀ c ∈ behind, Text.isBlank c = true)
    (position : ℕ) : Laid position ('0' :: behind) [⟨.number ['0'], position⟩] := by
  have hlexeme : (Atom.number ['0']).IsLexeme :=
    ⟨List.cons_ne_nil _ _, List.forall_mem_singleton.mpr (by decide)⟩
  exact hlexeme.laid hb position

/-! ### Values -/

theorem readInteger_zero : readInteger ['0'] = .ok 0 :=
  toOption_eq_some.mp (by decide +kernel)

section Values

variable {scope : Scope} {limit v : Int} {tokens : List Token}

/-- What is a factor that stands for zero wherever it is one, stands for zero if it has a value. -/
theorem eq_zero_of_factor
    (hfactor : ∀ room u rest, factor scope limit room tokens = .ok (u, rest) → u = 0 ∧ rest = [])
    (h : evaluateTokens scope limit tokens = .ok v) : v = 0 := by
  obtain ⟨⟨u, rest⟩, hproduct, hsum⟩ := bind_eq_ok (evaluateTokens_iff.mp h)
  obtain ⟨⟨w, rest'⟩, hread, hchain⟩ := bind_eq_ok hproduct
  obtain ⟨rfl, rfl⟩ := hfactor _ _ _ hread
  cases hchain
  cases hsum
  rfl

theorem factor_zero {room position : Nat} {u : Int} {rest : List Token}
    (h : factor scope limit room [⟨.number ['0'], position⟩] = .ok (u, rest)) :
    u = 0 ∧ rest = [] := by
  cases room with
  | zero => cases h
  | succ room =>
    obtain ⟨w, hw, h⟩ := bind_eq_ok h
    rw [readInteger_zero] at hw
    cases hw
    cases h
    exact ⟨rfl, rfl⟩

theorem factor_signed_zero {m : Mark} (hm : m = .plus ∨ m = .minus) {room position : Nat} {u : Int}
    {rest : List Token} (h : factor scope limit room
      [⟨.mark m, position⟩, ⟨.number ['0'], position + 1⟩] = .ok (u, rest)) :
    u = 0 ∧ rest = [] := by
  cases room with
  | zero => cases h
  | succ room =>
    rcases hm with rfl | rfl
    · exact factor_zero h
    · obtain ⟨⟨w, rest'⟩, hw, h⟩ := bind_eq_ok h
      obtain ⟨rfl, rfl⟩ := factor_zero hw
      cases h
      exact ⟨rfl, rfl⟩

end Values

/-- The tokens of a text that writes zero: the number, or a sign and the number. -/
theorem tokenize_zero {text : String} (h : Text.stripped text ∈ ["0", "+0", "-0"]) :
    ∃ position, tokenize text.toList = .ok [⟨.number ['0'], position⟩] ∨
      ∃ m, (m = .plus ∨ m = .minus) ∧ tokenize text.toList =
        .ok [⟨.mark m, position⟩, ⟨.number ['0'], position + 1⟩] := by
  obtain ⟨before, behind, htext, hbefore, hbehind, -⟩ := Text.strip_spec text.toList
  refine ⟨0 + before.length, ?_⟩
  have hcore : Text.strip text.toList ∈ [['0'], ['+', '0'], ['-', '0']] := by
    have h' : (Text.stripped text).toList ∈ ["0", "+0", "-0"].map String.toList :=
      List.mem_map_of_mem h
    rwa [Text.stripped, String.toList_ofList] at h'
  rw [tokenize, htext, List.append_assoc]
  simp only [List.mem_cons, List.not_mem_nil, or_false] at hcore
  have hzero (position : ℕ) := laid_zero hbehind position
  rcases hcore with hc | hc | hc
  · rw [hc]
    exact .inl (tokenizeFrom_of_laid ((hzero _).behind_blanks hbefore))
  · rw [hc]
    exact .inr ⟨.plus, .inl rfl,
      tokenizeFrom_of_laid ((Laid.mark .plus (hzero _)).behind_blanks hbefore)⟩
  · rw [hc]
    exact .inr ⟨.minus, .inr rfl,
      tokenizeFrom_of_laid ((Laid.mark .minus (hzero _)).behind_blanks hbefore)⟩

/-- **A text that writes zero stands for zero in every scope**, if it stands for anything. -/
theorem eq_zero_of_evaluate {scope : Scope} {limit v : Int} {text : String}
    (h : Text.stripped text ∈ ["0", "+0", "-0"]) (hv : evaluate scope limit text = .ok v) :
    v = 0 := by
  obtain ⟨tokens, htokens, hv⟩ := bind_eq_ok hv
  obtain ⟨position, hzero | ⟨m, hm, hsigned⟩⟩ := tokenize_zero h
  · cases htokens.symm.trans hzero
    exact eq_zero_of_factor (fun _ _ _ => factor_zero) hv
  · cases htokens.symm.trans hsigned
    exact eq_zero_of_factor (fun _ _ _ => factor_signed_zero hm) hv

end Expression
end VoxelBlueprint
