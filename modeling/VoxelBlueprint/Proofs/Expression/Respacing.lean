/-
# Expressions with other blanks

Of a text nothing but its tokens is evaluated, and of a scope nothing but what it binds the names
among them to. So an expression has the same value when its tokens are written with single blanks
between them, and in every scope that binds these names alike.

Key theorems: `Expression.Tree.Evaluates.congr`, `Expression.evaluate_of_atoms`,
`Expression.tokens_lossless`.
-/
import VoxelBlueprint.Proofs.Expression.Layouts
import VoxelBlueprint.Proofs.Expression.Reading

namespace VoxelBlueprint
namespace Expression

open Effects Text

/-- Whether the names among tokens are bound alike in two scopes. -/
def BindsAlike (atoms : List Atom) (scope scope' : Scope) : Prop :=
  ∀ letters, Atom.name letters ∈ atoms →
    scope'.find? (String.ofList letters) = scope.find? (String.ofList letters)

variable {scope scope' : Scope} {limit v : Int} {text text' : String}

/-- A derivation asks for no other names than those that it derives. -/
theorem Tree.Evaluates.congr {phrase : Phrase} {tree : Tree phrase}
    (h : tree.Evaluates scope v) (hs : BindsAlike tree.atoms scope scope') :
    tree.Evaluates scope' v := by
  induction h with
  | single _ ih => exact .single (ih hs)
  | link _ _ hg ihc iho =>
    exact .link (ihc fun letters h => hs letters (List.mem_append_left _ h))
      (iho fun letters h => hs letters (List.mem_append_right _ (List.mem_cons_of_mem _ h))) hg
  | signed _ ih => exact .signed (ih fun letters h => hs letters (List.mem_cons_of_mem _ h))
  | number hw => exact .number hw
  | name hf hb => exact .name ((hs _ List.mem_cons_self).trans hf) hb
  | paren _ ih =>
    exact .paren (ih fun letters h =>
      hs letters (List.mem_append_left _ (List.mem_cons_of_mem _ h)))

/-- What a text stands for, another text with the same tokens stands for, in every scope in which
the names among them are bound alike. -/
theorem Denotes.congr {tokens tokens' : List Token} (ht : tokenize text.toList = .ok tokens)
    (ht' : tokenize text'.toList = .ok tokens')
    (ha : tokens'.map (·.atom) = tokens.map (·.atom))
    (hs : BindsAlike (tokens.map (·.atom)) scope scope') (h : Denotes scope limit text v) :
    Denotes scope' limit text' v := by
  obtain ⟨read, hread, tree, hatoms, hopen, he⟩ := h
  cases ht.symm.trans hread
  exact ⟨tokens', ht', tree, hatoms.trans ha.symm, hopen, he.congr (hatoms ▸ hs)⟩

/-- **Only its tokens and what their names are bound to decide on the value of a text.** -/
theorem evaluate_of_atoms {tokens tokens' : List Token} (ht : tokenize text.toList = .ok tokens)
    (ht' : tokenize text'.toList = .ok tokens')
    (ha : tokens'.map (·.atom) = tokens.map (·.atom))
    (hs : BindsAlike (tokens.map (·.atom)) scope scope') :
    (evaluate scope' limit text').toOption = (evaluate scope limit text).toOption := by
  refine Option.ext fun v => ?_
  rw [toOption_eq_some, toOption_eq_some, evaluate_eq_ok, evaluate_eq_ok]
  exact ⟨Denotes.congr ht' ht ha.symm fun letters h => (hs letters (ha ▸ h)).symm,
    Denotes.congr ht ht' ha hs⟩

/-- **Splitting a text into tokens loses nothing but its blanks, and evaluating it sees nothing
else.** A text has tokens if all its characters belong to expressions, and otherwise the first one
that does not is the fault. The tokens ascend in the text, they are as long as they can be, and
there are only blanks between them. Written with single blanks between them they are the tokens
again, with the same value in every scope; and this is the same in all scopes in which the names
among them are bound alike. -/
theorem tokens_lossless (text : String) :
    ((∃ tokens, tokenize text.toList = .ok tokens) ↔ ∀ c ∈ text.toList, IsLexical c) ∧
    (∀ fault, tokenize text.toList = .error fault ↔
      ∃ before c behind, text.toList = before ++ c :: behind ∧ (∀ d ∈ before, IsLexical d) ∧
        ¬ IsLexical c ∧ fault = .invalidCharacter c before.length) ∧
    ∀ tokens, tokenize text.toList = .ok tokens →
      Layout text.toList tokens ∧
      (∃ again, tokenize (spaced (tokens.map (·.atom))).toList = .ok again ∧
        again.map (·.atom) = tokens.map (·.atom)) ∧
      ∀ (scope : Scope) (limit : Int),
        (evaluate scope limit (spaced (tokens.map (·.atom)))).toOption =
          (evaluate scope limit text).toOption ∧
        ∀ scope', BindsAlike (tokens.map (·.atom)) scope scope' →
          (evaluate scope' limit text).toOption = (evaluate scope limit text).toOption := by
  refine ⟨exists_tokenizeFrom_iff, fun fault => ?_, fun tokens ht => ?_⟩
  · rw [tokenize, tokenizeFrom_error_iff]
    simp only [Nat.zero_add]
  · have hspaced := tokenize_spaced (isLexeme_of_tokenize ht)
    obtain ⟨again, hagain, hatoms⟩ := hspaced
    refine ⟨(tokenizeFrom_iff.mp ht).layout, ⟨again, hagain, hatoms⟩, fun scope limit => ?_⟩
    exact ⟨evaluate_of_atoms ht hagain hatoms fun _ _ => rfl,
      fun scope' hs => evaluate_of_atoms ht ht rfl hs⟩

/-- The tokens of `2*(w1 -٣)`, the last number of which is no ASCII digit. -/
def slabTokens : List Token :=
  [⟨.number ['2'], 0⟩, ⟨.mark .times, 1⟩, ⟨.mark .opening, 2⟩, ⟨.name ['w', '1'], 3⟩,
   ⟨.mark .minus, 6⟩, ⟨.number ['٣'], 7⟩, ⟨.mark .closing, 8⟩]

theorem tokens_lossless_slab :
    tokenize "2*(w1 -٣)".toList = .ok slabTokens ∧ Layout "2*(w1 -٣)".toList slabTokens ∧
      evaluate [("w1", .int 10)] 64 "2 * ( w1 - ٣ )" = .ok 14 ∧
      evaluate [("w", .null), ("w1", .int 10)] 64 "2*(w1 -٣)" = .ok 14 ∧
      tokenize "2*[w1".toList = .error (.invalidCharacter '[' 2) := by
  have htokens : tokenize "2*(w1 -٣)".toList = .ok slabTokens :=
    toOption_eq_some.mp (by decide +kernel)
  have hvalue : evaluate [("w1", .int 10)] 64 "2*(w1 -٣)" = .ok 14 :=
    toOption_eq_some.mp (by decide +kernel)
  have hspaced : spaced (slabTokens.map (·.atom)) = "2 * ( w1 - ٣ )" := by decide +kernel
  obtain ⟨hlayout, -, hsame⟩ := (tokens_lossless "2*(w1 -٣)").2.2 slabTokens htokens
  obtain ⟨hagain, halike⟩ := hsame [("w1", .int 10)] 64
  refine ⟨htokens, hlayout, ?_, ?_, ?_⟩
  · rw [← toOption_eq_some, ← hspaced, hagain, hvalue]
    rfl
  · rw [← toOption_eq_some, halike _ fun letters hl => ?_, hvalue]
    · rfl
    · simp only [slabTokens, List.map_cons, List.map_nil, List.mem_cons, Atom.name.injEq,
        reduceCtorEq, false_or, List.not_mem_nil, or_false] at hl
      rw [hl]
      rfl
  · have hbefore : ∀ d ∈ ['2', '*'], IsLexical d :=
      List.forall_mem_cons.mpr ⟨by decide, List.forall_mem_singleton.mpr (by decide)⟩
    exact ((tokens_lossless "2*[w1").2.1 _).mpr
      ⟨['2', '*'], '[', ['w', '1'], rfl, hbefore, by decide, rfl⟩

end Expression
end VoxelBlueprint
