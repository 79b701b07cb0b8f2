/-
# What a rule takes off the front

A rule takes a phrase off the front of the tokens, whatever the tokens are and whatever its value
is, and it takes all of it: no operator with which the phrase would go on comes next. In
particular a chain never stops because the links that are counted for it are used up, since each
link takes tokens and there were as many links as tokens.

Key definitions: `Expression.Phrase.rule`, `Expression.Delimits`.
Key theorems: `Expression.chain_delimits`, `Expression.factor_delimits`, `Expression.rule_delimits`.
-/
import VoxelBlueprint.Proofs.Expression.Reading

namespace VoxelBlueprint
namespace Expression

open Effects

/-- The rule that reads a phrase, inside of which at most `room` factors may be open at once. -/
def Phrase.rule (scope : Scope) (limit : Int) (room : ℕ) : Phrase → Rule
  | .chain .sum => sum (Expression.factor scope limit room)
  | .chain .product => product (Expression.factor scope limit room)
  | .factor => Expression.factor scope limit room

/-- The marks with which a phrase would go on. -/
def Phrase.marks : Phrase → List Mark
  | .chain .sum => [.plus, .minus, .times, .slash]
  | .chain .product => [.times, .slash]
  | .factor => []

/-- Whether a rule takes a whole phrase wherever it takes anything. -/
def Delimits (phrase : Phrase) (rule : Rule) : Prop :=
  ∀ {tokens rest : List Token} {v : Int}, rule tokens = .ok (v, rest) →
    ∃ (front : List Token) (tree : Tree phrase), tokens = front ++ rest ∧
      front.map (·.atom) = tree.atoms ∧ phrase.Stops rest

/-! ### Phrases -/

theorem Tree.atoms_ne_nil : ∀ {phrase : Phrase} (tree : Tree phrase), tree.atoms ≠ []
  | _, single operand => operand.atoms_ne_nil
  | _, link _ _ _ => List.append_ne_nil_of_right_ne_nil _ (List.cons_ne_nil _ _)
  | _, signed _ _ => List.cons_ne_nil _ _
  | _, number _ => List.cons_ne_nil _ _
  | _, name _ => List.cons_ne_nil _ _
  | _, paren _ => List.cons_ne_nil _ _

theorem stops_chain_iff {l : Level} {rest : List Token} :
    (Phrase.chain l).Stops rest ↔ l.Stops rest ∧ l.operand.Stops rest := by
  cases l with
  | sum => exact Iff.rfl
  | product => exact (and_iff_left trivial).symm

/-- A phrase stops in front of a token that is none of its marks. -/
theorem Phrase.Stops.not_mark {phrase : Phrase} {rest : List Token} (h : phrase.Stops rest)
    {t : Token} (ht : rest.head? = some t) : ∀ m ∈ phrase.marks, t.atom ≠ .mark m := by
  have hlevel {l : Level} (hl : l.Stops rest) (o : Operator l) : t.atom ≠ .mark o.mark :=
    fun ho => by
      have hnone := hl t ht
      rw [ho, operation?_mark] at hnone
      cases hnone
  match phrase, h with
  | .chain .sum, ⟨hsum, hproduct⟩ =>
    simpa [Phrase.marks] using
      ⟨hlevel hsum .plus, hlevel hsum .minus, hlevel hproduct .times, hlevel hproduct .slash⟩
  | .chain .product, hproduct =>
    simpa [Phrase.marks] using ⟨hlevel hproduct .times, hlevel hproduct .slash⟩
  | .factor, _ => exact List.forall_mem_nil _

/-- What a rule takes is not nothing. -/
theorem Delimits.length_lt {phrase : Phrase} {rule : Rule} (h : Delimits phrase rule)
    {tokens rest : List Token} {v : Int} (hr : rule tokens = .ok (v, rest)) :
    rest.length < tokens.length := by
  obtain ⟨front, tree, rfl, ha, -⟩ := h hr
  have hne : front ≠ [] := fun hnil => tree.atoms_ne_nil (by rw [← ha, hnil]; rfl)
  have := List.length_pos_iff.mpr hne
  rw [List.length_append]
  omega

/-! ### Chains -/

section Chains

variable {l : Level} {operand : Rule}

/-- A chain goes on as long as its operators come, if it has as many links as there are tokens. -/
theorem chainFrom_delimits (h : Delimits l.operand operand) :
    ∀ (links : ℕ) {front tokens rest : List Token} {tree : Tree (.chain l)} {u v : Int},
      tokens.length ≤ links → front.map (·.atom) = tree.atoms → l.operand.Stops tokens →
      chainFrom l.operation? operand links u tokens = .ok (v, rest) →
      ∃ (front' : List Token) (tree' : Tree (.chain l)), front ++ tokens = front' ++ rest ∧
        front'.map (·.atom) = tree'.atoms ∧ (Phrase.chain l).Stops rest
  | links, front, [], rest, tree, u, v, _, ha, hs, hc => by
    have hstop : l.Stops [] := nofun
    rw [chainFrom_stops hstop] at hc
    cases hc
    exact ⟨front, tree, rfl, ha, stops_chain_iff.mpr ⟨hstop, hs⟩⟩
  | 0, _, _ :: _, _, _, _, _, hl, _, _, _ => absurd hl (Nat.not_succ_le_zero _)
  | links + 1, front, t :: tokens, rest, tree, u, v, hl, ha, hs, hc => by
    rw [chainFrom] at hc
    cases ho : l.operation? t.atom with
    | none =>
      rw [ho] at hc
      cases hc
      have hstop : l.Stops (t :: tokens) := fun x hx => by
        cases hx
        exact ho
      exact ⟨front, tree, rfl, ha, stops_chain_iff.mpr ⟨hstop, hs⟩⟩
    | some operation =>
      rw [ho] at hc
      obtain ⟨⟨w, middle⟩, hw, hc₁⟩ := bind_eq_ok hc
      obtain ⟨u', -, hc₂⟩ := bind_eq_ok hc₁
      obtain ⟨o, hm, -⟩ := operation?_eq_some ho
      have hlt := h.length_lt hw
      obtain ⟨front', tree', rfl, ha', hs'⟩ := h hw
      have hlink : (front ++ t :: front').map (·.atom) = (Tree.link tree o tree').atoms := by
        rw [List.map_append, List.map_cons, ha, ha', hm]
        rfl
      have hlinks : middle.length ≤ links := by
        rw [List.length_cons] at hl
        omega
      obtain ⟨front'', tree'', hfront, ha'', hs''⟩ :=
        chainFrom_delimits h links hlinks hlink hs' hc₂
      exact ⟨front'', tree'', by rw [← hfront]; simp, ha'', hs''⟩

theorem chain_delimits (h : Delimits l.operand operand) :
    Delimits (.chain l) (chain l.operation? operand) := by
  intro tokens rest v hc
  obtain ⟨⟨u, middle⟩, hu, hc₁⟩ := bind_eq_ok hc
  obtain ⟨front, tree, rfl, ha, hs⟩ := h hu
  have ha : front.map (·.atom) = (Tree.single (l := l) tree).atoms := ha
  exact chainFrom_delimits h middle.length le_rfl ha hs hc₁

end Chains

/-! ### Factors -/

section Factors

variable {scope : Scope} {limit : Int}

theorem sum_delimits {rule : Rule} (h : Delimits .factor rule) :
    Delimits (.chain .sum) (sum rule) :=
  chain_delimits (l := .sum) (chain_delimits (l := .product) h)

/-- Whatever is taken as a factor is one. -/
theorem factor_delimits : ∀ room : ℕ, Delimits .factor (factor scope limit room)
  | 0, _, _, _, h => by cases h
  | _ + 1, [], _, _, h => by cases h
  | _ + 1, ⟨.number digits, position⟩ :: _, _, _, h => by
    obtain ⟨_, -, h₁⟩ := bind_eq_ok h
    cases h₁
    exact ⟨[⟨.number digits, position⟩], .number digits, rfl, rfl, trivial⟩
  | _ + 1, ⟨.name letters, position⟩ :: _, _, _, h => by
    rw [factor] at h
    split at h
    · obtain ⟨_, -, h₁⟩ := bind_eq_ok h
      cases h₁
      exact ⟨[⟨.name letters, position⟩], .name letters, rfl, rfl, trivial⟩
    · cases h
  | room + 1, ⟨.mark .plus, position⟩ :: _, _, _, h => by
    obtain ⟨front, tree, rfl, ha, -⟩ := factor_delimits room h
    exact ⟨⟨.mark .plus, position⟩ :: front, .signed false tree, rfl, congrArg _ ha, trivial⟩
  | room + 1, ⟨.mark .minus, position⟩ :: _, _, _, h => by
    obtain ⟨_, hu, h₁⟩ := bind_eq_ok h
    cases h₁
    obtain ⟨front, tree, rfl, ha, -⟩ := factor_delimits room hu
    exact ⟨⟨.mark .minus, position⟩ :: front, .signed true tree, rfl, congrArg _ ha, trivial⟩
  | room + 1, ⟨.mark .opening, position⟩ :: _, _, _, h => by
    obtain ⟨⟨u, middle⟩, hu, h₁⟩ := bind_eq_ok h
    obtain ⟨front, tree, rfl, ha, -⟩ := sum_delimits (factor_delimits room) hu
    simp only at h₁
    split at h₁
    · rename_i closing rest
      cases h₁
      refine ⟨⟨.mark .opening, position⟩ :: front ++ [⟨.mark .closing, closing⟩], .paren tree,
        by simp, ?_, trivial⟩
      rw [List.map_append, List.map_cons, ha]
      rfl
    · cases h₁
  | _ + 1, ⟨.mark .times, _⟩ :: _, _, _, h => by cases h
  | _ + 1, ⟨.mark .slash, _⟩ :: _, _, _, h => by cases h
  | _ + 1, ⟨.mark .closing, _⟩ :: _, _, _, h => by cases h

/-- **Every rule takes a whole phrase.** -/
theorem rule_delimits (room : ℕ) : ∀ phrase : Phrase, Delimits phrase (phrase.rule scope limit room)
  | .chain .sum => sum_delimits (factor_delimits room)
  | .chain .product => chain_delimits (l := .product) (factor_delimits room)
  | .factor => factor_delimits room

end Factors

end Expression
end VoxelBlueprint
