/-
# The grammar of expressions

A sum is a chain of products joined by `+` and `-`, a product is a chain of factors joined
by `*` and `/`, and a factor is a number, a name, a sum between parentheses, or a factor
behind a sign. A derivation is a tree; it says which tokens it derives (`atoms`), how many
factors of it are open at once (`openFactors`), and which integer it stands for in a scope
if it stands for one (`Evaluates`). Nothing here reads tokens one after the other.

Key definitions: `Expression.Operator`, `Expression.Tree`, `Expression.Tree.atoms`,
`Expression.Tree.openFactors`, `Expression.Tree.Evaluates`, `Expression.Denotes`.
Key theorems: `Expression.Operator.operation_iff`, `Expression.operation?_eq_some`.
-/
import VoxelBlueprint.Expression.Evaluation
import VoxelBlueprint.Proofs.Expression.Numerals

namespace VoxelBlueprint
namespace Expression

/-! ### Operators -/

/-- The two kinds of chains. -/
inductive Level where
  | sum
  | product

/-- The operators that join the operands of a chain. -/
inductive Operator : Level → Type where
  | plus : Operator .sum
  | minus : Operator .sum
  | times : Operator .product
  | slash : Operator .product

namespace Operator

variable {l : Level}

/-- The mark of an operator. -/
def mark : Operator l → Mark
  | plus => .plus
  | minus => .minus
  | times => .times
  | slash => .slash

/-- The integers that an operator makes of two others. Sums, differences and products must not
be too wide, and divisors must not be zero; a quotient is truncated toward zero. -/
inductive Gives : {l : Level} → Operator l → Int → Int → Int → Prop
  | plus {u w : Int} : InRange (u + w) → Gives plus u w (u + w)
  | minus {u w : Int} : InRange (u - w) → Gives minus u w (u - w)
  | times {u w : Int} : InRange (u * w) → Gives times u w (u * w)
  | slash {u w : Int} : w ≠ 0 → Gives slash u w (u.tdiv w)

/-- What is computed for an operator. -/
def operation : Operator l → Operation
  | plus => fun u w => checked (u + w)
  | minus => fun u w => checked (u - w)
  | times => fun u w => checked (u * w)
  | slash => quotient

theorem operation_iff (o : Operator l) {u w v : Int} :
    o.operation u w = .ok v ↔ o.Gives u w v := by
  cases o with
  | plus =>
    exact checked_eq_ok.trans
      ⟨fun ⟨hr, he⟩ => he ▸ .plus hr, fun h => by cases h with | plus hr => exact ⟨hr, rfl⟩⟩
  | minus =>
    exact checked_eq_ok.trans
      ⟨fun ⟨hr, he⟩ => he ▸ .minus hr, fun h => by cases h with | minus hr => exact ⟨hr, rfl⟩⟩
  | times =>
    exact checked_eq_ok.trans
      ⟨fun ⟨hr, he⟩ => he ▸ .times hr, fun h => by cases h with | times hr => exact ⟨hr, rfl⟩⟩
  | slash =>
    rw [operation, quotient]
    split
    · rename_i hw
      exact ⟨fun h => (by cases h), fun h => by cases h with | slash h => exact absurd hw h⟩
    · rename_i hw
      exact ⟨fun h => by cases h; exact .slash hw, fun h => by cases h; rfl⟩

end Operator

/-- The operators of a chain, as they are looked up. -/
def Level.operation? : Level → Atom → Option Operation
  | .sum => additive?
  | .product => multiplicative?

theorem operation?_mark {l : Level} (o : Operator l) :
    l.operation? (.mark o.mark) = some o.operation := by
  cases o <;> rfl

/-- What is looked up is one of the operators. -/
theorem operation?_eq_some {l : Level} {atom : Atom} {operation : Operation}
    (h : l.operation? atom = some operation) :
    ∃ o : Operator l, atom = .mark o.mark ∧ operation = o.operation := by
  cases l with
  | sum =>
    simp only [Level.operation?] at h
    unfold additive? at h
    split at h
    · exact ⟨.plus, rfl, (Option.some.inj h).symm⟩
    · exact ⟨.minus, rfl, (Option.some.inj h).symm⟩
    · cases h
  | product =>
    simp only [Level.operation?] at h
    unfold multiplicative? at h
    split at h
    · exact ⟨.times, rfl, (Option.some.inj h).symm⟩
    · exact ⟨.slash, rfl, (Option.some.inj h).symm⟩
    · cases h

/-! ### Derivations -/

/-- What is derived: chains and factors. -/
inductive Phrase where
  | chain (level : Level)
  | factor

/-- The operands of a chain. -/
def Level.operand : Level → Phrase
  | .sum => .chain .product
  | .product => .factor

/-- The derivations of a phrase. Chains group to the left. -/
inductive Tree : Phrase → Type where
  | single {l : Level} (operand : Tree l.operand) : Tree (.chain l)
  | link {l : Level} (chain : Tree (.chain l)) (operator : Operator l) (operand : Tree l.operand) :
    Tree (.chain l)
  | signed (negative : Bool) (factor : Tree .factor) : Tree .factor
  | number (digits : List Char) : Tree .factor
  | name (letters : List Char) : Tree .factor
  | paren (sum : Tree (.chain .sum)) : Tree .factor

namespace Tree

variable {phrase : Phrase}

/-- The tokens that are derived. -/
def atoms : {phrase : Phrase} → Tree phrase → List Atom
  | _, single operand => operand.atoms
  | _, link chain operator operand => chain.atoms ++ .mark operator.mark :: operand.atoms
  | _, signed negative factor => .mark (if negative then .minus else .plus) :: factor.atoms
  | _, number digits => [.number digits]
  | _, name letters => [.name letters]
  | _, paren sum => .mark .opening :: sum.atoms ++ [.mark .closing]

/-- How many factors are open at once, one inside the other, at the most. -/
def openFactors : {phrase : Phrase} → Tree phrase → Nat
  | _, single operand => operand.openFactors
  | _, link chain _ operand => max chain.openFactors operand.openFactors
  | _, signed _ factor => factor.openFactors + 1
  | _, number _ => 1
  | _, name _ => 1
  | _, paren sum => sum.openFactors + 1

/-- The integer for which a derivation stands in a scope, if it stands for one. -/
inductive Evaluates (scope : Scope) : {phrase : Phrase} → Tree phrase → Int → Prop
  | single {l : Level} {operand : Tree l.operand} {v : Int} : Evaluates scope operand v →
    Evaluates scope (single operand) v
  | link {l : Level} {chain : Tree (.chain l)} {operator : Operator l} {operand : Tree l.operand}
    {u w v : Int} : Evaluates scope chain u → Evaluates scope operand w → operator.Gives u w v →
    Evaluates scope (link chain operator operand) v
  | signed {negative : Bool} {factor : Tree .factor} {v : Int} : Evaluates scope factor v →
    Evaluates scope (signed negative factor) (Expression.signed negative v)
  | number {digits : List Char} {v : Int} : Writes digits v → Evaluates scope (number digits) v
  | name {letters : List Char} {value : Json} {v : Int} :
    scope.find? (String.ofList letters) = some value → Binds value v →
    Evaluates scope (name letters) v
  | paren {sum : Tree (.chain .sum)} {v : Int} : Evaluates scope sum v →
    Evaluates scope (paren sum) v

/-- A factor is open itself, and every phrase has a factor. -/
theorem openFactors_pos : ∀ {phrase : Phrase} (tree : Tree phrase), 0 < tree.openFactors
  | _, single operand => operand.openFactors_pos
  | _, link chain _ _ => Nat.lt_of_lt_of_le chain.openFactors_pos (Nat.le_max_left _ _)
  | _, signed _ _ => Nat.succ_pos _
  | _, number _ => Nat.one_pos
  | _, name _ => Nat.one_pos
  | _, paren _ => Nat.succ_pos _

end Tree

/-- The integers for which a text stands in a scope, if at most `limit` factors may be open at
once: its tokens must have a derivation that stands for the integer. -/
def Denotes (scope : Scope) (limit : Int) (text : String) (v : Int) : Prop :=
  ∃ tokens, tokenize text.toList = .ok tokens ∧
    ∃ tree : Tree (.chain .sum), tree.atoms = tokens.map (·.atom) ∧
      (tree.openFactors : Int) ≤ limit ∧ tree.Evaluates scope v

end Expression
end VoxelBlueprint
