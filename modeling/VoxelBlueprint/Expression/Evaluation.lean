/-
# The value of an expression

Integer arithmetic by recursive descent: a sum is a chain of products, a product
is a chain of factors, and a factor is a number, a bound name, a sum between
parentheses or a factor behind a sign. Both chains group to the left. Division
truncates toward zero. The value is computed while the tokens are read, so of two
faults the first in reading order is reported.

A `Rule` reads what it stands for off the front of a list of tokens and gives its
value and the tokens behind it.

Key definitions: `Expression.chain`, `Expression.factor`, `Expression.sum`,
`Expression.evaluate`.
-/
import VoxelBlueprint.Expression.Scope

namespace VoxelBlueprint
namespace Expression

/-- Reads a part of an expression: its value and the tokens behind it. -/
abbrev Rule := List Token → Except Fault (Int × List Token)

/-- The effect of an operator on its two operands. -/
abbrev Operation := Int → Int → Except Fault Int

/-- Division, truncating toward zero. -/
def quotient (v w : Int) : Except Fault Int :=
  if w = 0 then .error .divisionByZero else .ok (v.tdiv w)

/-- The operators that join the terms of a sum. -/
def additive? : Atom → Option Operation
  | .mark .plus => some fun v w => checked (v + w)
  | .mark .minus => some fun v w => checked (v - w)
  | _ => none

/-- The operators that join the factors of a product. -/
def multiplicative? : Atom → Option Operation
  | .mark .times => some fun v w => checked (v * w)
  | .mark .slash => some quotient
  | _ => none

/-- Goes on with a chain of operands whose value so far is `v`. It has at most
`links` operators, which the number of tokens bounds. -/
def chainFrom (operation? : Atom → Option Operation) (operand : Rule) : Nat → Int → Rule
  | 0, v, tokens => .ok (v, tokens)
  | _ + 1, v, [] => .ok (v, [])
  | links + 1, v, t :: tokens =>
    match operation? t.atom with
    | none => .ok (v, t :: tokens)
    | some operation => do
      let (w, rest) ← operand tokens
      let v ← operation v w
      chainFrom operation? operand links v rest

/-- A chain of operands, grouped to the left. -/
def chain (operation? : Atom → Option Operation) (operand : Rule) : Rule := fun tokens => do
  let (v, rest) ← operand tokens
  chainFrom operation? operand rest.length v rest

/-- A product of factors. -/
def product (factor : Rule) : Rule :=
  chain multiplicative? factor

/-- A sum of products of factors. -/
def sum (factor : Rule) : Rule :=
  chain additive? (product factor)

/-- A factor, inside of which at most `room` factors may be open at once, itself included. -/
def factor (scope : Scope) (limit : Int) : Nat → Rule
  | 0, _ => .error (.nestedTooDeeply limit)
  | _ + 1, [] => .error .unexpectedEnd
  | room + 1, ⟨atom, position⟩ :: tokens =>
    match atom with
    | .mark .plus => factor scope limit room tokens
    | .mark .minus => do
      let (v, rest) ← factor scope limit room tokens
      return (-v, rest)
    | .number digits => do
      let v ← readInteger digits
      return (v, tokens)
    | .name letters => do
      let name := String.ofList letters
      match scope.find? name with
      | some value => do
        let v ← integerOf name value
        return (v, tokens)
      | none => .error (.unknownVariable name)
    | .mark .opening => do
      let (v, rest) ← sum (factor scope limit room) tokens
      match rest with
      | ⟨.mark .closing, _⟩ :: rest => return (v, rest)
      | _ => .error .unclosed
    | atom => .error (.unexpectedToken atom.text position)

/-- The value of a list of tokens, all of which belong to the expression. -/
def evaluateTokens (scope : Scope) (limit : Int) (tokens : List Token) : Except Fault Int := do
  if tokens.isEmpty then .error .empty
  let (v, rest) ← sum (factor scope limit limit.toNat) tokens
  match rest with
  | [] => return v
  | t :: _ => .error (.unexpectedToken t.text t.position)

/-- The value of an expression in a scope, with at most `limit` factors open at once. -/
def evaluate (scope : Scope) (limit : Int) (text : String) : Except Fault Int := do
  evaluateTokens scope limit (← tokenize text.toList)

end Expression
end VoxelBlueprint
