/-
# The tokens of an expression

An expression is made of numbers, which are runs of decimal digits of any script,
names, which are ASCII letters, digits and underscores behind a letter or an
underscore, and the marks `+ - * / ( )`. Blanks may stand anywhere between tokens,
and a token is as long as it can be.

Key definitions: `Expression.Token`, `Expression.tokenize`,
`Expression.isIdentifier`.
-/
import VoxelBlueprint.Expression.Fault
import VoxelBlueprint.Text.Blank
import VoxelBlueprint.Text.DecimalDigit

namespace VoxelBlueprint
namespace Expression

/-- The operators and parentheses. -/
inductive Mark where
  | plus
  | minus
  | times
  | slash
  | opening
  | closing
  deriving DecidableEq, Repr

/-- What a token is. -/
inductive Atom where
  | number (digits : List Char)
  | name (letters : List Char)
  | mark (mark : Mark)
  deriving DecidableEq, Repr

/-- A token and its distance from the start of the expression. -/
structure Token where
  atom : Atom
  position : Nat
  deriving DecidableEq, Repr

/-- The character of a mark. -/
def Mark.toChar : Mark → Char
  | plus => '+'
  | minus => '-'
  | times => '*'
  | slash => '/'
  | opening => '('
  | closing => ')'

/-- The mark that a character is, if it is one. -/
def Mark.ofChar? : Char → Option Mark
  | '+' => some plus
  | '-' => some minus
  | '*' => some times
  | '/' => some slash
  | '(' => some opening
  | ')' => some closing
  | _ => none

/-- The characters of a token. -/
def Atom.text : Atom → List Char
  | number digits => digits
  | name letters => letters
  | mark m => [m.toChar]

/-- The characters of a token. -/
def Token.text (t : Token) : List Char :=
  t.atom.text

/-- Whether the character is an ASCII letter or an underscore. -/
def isNameStart (c : Char) : Bool :=
  c.isAlpha || c = '_'

/-- Whether the character may stand in a name behind the first. -/
def isNamePart (c : Char) : Bool :=
  isNameStart c || c.isDigit

/-- The tokens of the text, the first character of which stands at `position`. -/
def tokenizeFrom (position : Nat) : List Char → Except Fault (List Token)
  | [] => .ok []
  | c :: rest =>
    if Text.isBlank c then tokenizeFrom (position + 1) rest
    else if Text.isDigit c then do
      let digits := c :: rest.takeWhile Text.isDigit
      let tokens ← tokenizeFrom (position + digits.length) (rest.dropWhile Text.isDigit)
      return ⟨.number digits, position⟩ :: tokens
    else if isNameStart c then do
      let letters := c :: rest.takeWhile isNamePart
      let tokens ← tokenizeFrom (position + letters.length) (rest.dropWhile isNamePart)
      return ⟨.name letters, position⟩ :: tokens
    else
      match Mark.ofChar? c with
      | some m => do
        let tokens ← tokenizeFrom (position + 1) rest
        return ⟨.mark m, position⟩ :: tokens
      | none => .error (.invalidCharacter c position)
termination_by s => s.length
decreasing_by
  all_goals
    have := (List.dropWhile_sublist Text.isDigit (l := rest)).length_le
    have := (List.dropWhile_sublist isNamePart (l := rest)).length_le
    simp only [List.length_cons]
    omega

/-- The tokens of an expression. -/
def tokenize (text : List Char) : Except Fault (List Token) :=
  tokenizeFrom 0 text

/-- Whether the text is a name. A line feed may follow it. -/
def isIdentifier (text : List Char) : Bool :=
  match Text.dropFinalNewline text with
  | [] => false
  | c :: rest => isNameStart c && rest.all isNamePart

end Expression
end VoxelBlueprint
