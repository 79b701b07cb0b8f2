/-
# Lower case

Full lower-casing of a text. Every character has a lower-case form of its own,
but for two: the capital I with a dot above becomes two characters, and the
capital sigma becomes the final form `ς` at the end of a word and `σ` elsewhere.
The end of a word is judged by the nearest characters on both sides that are not
passed over.

Key definitions: `Text.lower`, `Text.lowered`.
-/
import VoxelBlueprint.Text.CaseTable

namespace VoxelBlueprint
namespace Text

/-- Whether the run contains the code point. -/
def LowerRun.contains (run : LowerRun) (n : Nat) : Bool :=
  run.first ≤ n && n ≤ run.last && (n - run.first) % run.stride == 0

/-- The lower-case form of one character on its own. -/
def lowerChar (c : Char) : Char :=
  match lowerRuns.find? (·.contains c.toNat) with
  | some run => Char.ofNat ((c.toNat : Int) + run.shift).toNat
  | none => c

/-- Whether the character is passed over when the neighbour of a letter is looked for. -/
def isCaseIgnorable (c : Char) : Bool :=
  inRanges caseIgnorableRanges c

/-- Whether the character has case and is not passed over. -/
def isCased (c : Char) : Bool :=
  inRanges casedRanges c

/-- Whether the first character that is not passed over has case. -/
def startsCased (s : List Char) : Bool :=
  (s.dropWhile isCaseIgnorable).head?.any isCased

/-- The lower-case form of a character between `afterCased`, whether a letter
precedes it in its word, and the text `rest` behind it. -/
def lowerIn (afterCased : Bool) (c : Char) (rest : List Char) : List Char :=
  if c = 'İ' then ['i', '\u0307']
  else if c = 'Σ' then [if afterCased && !startsCased rest then 'ς' else 'σ']
  else [lowerChar c]

/-- Lower-cases the text that follows a letter of the same word, if `afterCased` holds. -/
def lowerAfter (afterCased : Bool) : List Char → List Char
  | [] => []
  | c :: rest =>
    lowerIn afterCased c rest ++
      lowerAfter (if isCaseIgnorable c then afterCased else isCased c) rest

/-- The text in lower case. -/
def lower (s : List Char) : List Char :=
  lowerAfter false s

/-- `lower` on strings. -/
def lowered (s : String) : String :=
  String.ofList (lower s.toList)

end Text
end VoxelBlueprint
