/-
# What the bodies of requests hold

How a request to the service is read from JSON. Fields that are null count as
missing, and fields of other names are ignored. A ceiling on the blocks may also be
written as a float without a fraction, a truth value or a string.

Key definitions: `ExpandRequest.ofJson`, `CatalogRequest.ofJson`,
`positiveInteger?`.
-/
import VoxelBlueprint.Numeral
import VoxelBlueprint.Service.Request

namespace VoxelBlueprint

/-! ### Fields -/

/-- A field that may be missing, and must be readable if it is not. -/
def optionalField {α : Type} (read? : Json → Option α) (name : String) (raw : Json) :
    Option (Option α) :=
  let value := raw.field name
  if value.isNull then some none else (read? value).map some

/-- The value, if it is an object. -/
def objectValue? (value : Json) : Option Json :=
  if value.isObject then some value else none

/-- The positive integer that a text writes: a plus sign may stand before it, zeros and
underscores may follow a zero in front, and a point with zeros, of which there is at least
one, may end it. -/
def positiveNumeral? (text : List Char) : Option Nat := do
  let unsigned :=
    match Numeral.trim text with
    | '+' :: rest => rest
    | rest => rest
  guard ((unsigned.head?.map Char.isDigit).getD false)
  let significant := unsigned.dropWhile fun c => c = '0' || c = '_'
  let whole := significant.takeWhile (· ≠ '.')
  let fraction := significant.dropWhile (· ≠ '.')
  guard (fraction ≠ ['.'] ∧ (fraction.drop 1).all (· = '0'))
  guard (whole.all fun c => c.isDigit || c = '_')
  Numeral.readDigits? whole

/-- Floats that are read as integers lie below this bound. -/
def maxWholeFloat : Int := Nat.pow 2 63

/-- The positive integer that a value stands for. -/
def positiveInteger? : Json → Option Nat
  | .bool true => some 1
  | .int n => if 1 ≤ n then some n.toNat else none
  | .float (.finite x) =>
    let n := x.truncate
    if x.isWhole ∧ 1 ≤ n ∧ n < maxWholeFloat then some n.toNat else none
  | .str text => positiveNumeral? text.toList
  | _ => none

/-! ### Requests -/

/-- Reads a request to expand or to validate a document. A document comes before a text. -/
def ExpandRequest.ofJson? (raw : Json) : Option ExpandRequest := do
  let raw ← objectValue? raw
  let document ← optionalField objectValue? "document" raw
  let text ← optionalField Json.text? "text" raw
  let maxBlocks ← optionalField positiveInteger? "max_blocks" raw
  match document, text with
  | some value, _ => return { submission := .document value, maxBlocks }
  | none, some content => return { submission := .text content, maxBlocks }
  | none, none => none

/-- The values of fields that are neither missing nor acceptable. -/
def faultyFields (raw : Json) (checks : List (String × (Json → Bool))) : List Json :=
  checks.filterMap fun (name, accepts) =>
    let value := raw.field name
    if value.isNull || accepts value then none else some value

/-- The values for which a request to expand or to validate a document is refused. -/
def ExpandRequest.faults (raw : Json) : List Json :=
  let found :=
    faultyFields raw
      [("document", Json.isObject), ("text", fun value => value.text?.isSome),
       ("max_blocks", fun value => (positiveInteger? value).isSome)]
  if found.isEmpty || !raw.isObject then [raw] else found

/-- Reads a request to expand or to validate a document, or gives the values at fault. -/
def ExpandRequest.ofJson (raw : Json) : Except (List Json) ExpandRequest :=
  (ofJson? raw).elim (.error (faults raw)) .ok

/-- Reads a request to replace the catalog. -/
def CatalogRequest.ofJson? (raw : Json) : Option CatalogRequest := do
  let raw ← objectValue? raw
  let ids ← (← (raw.field "block_ids").array?).mapM Json.text?
  guard (!ids.isEmpty)
  let version ← optionalField Json.text? "version" raw
  let source ← optionalField Json.text? "source" raw
  return { ids, version, source }

/-- The values for which a request to replace the catalog is refused. -/
def CatalogRequest.faults (raw : Json) : List Json :=
  match raw.field? "block_ids" with
  | none => [raw]
  | some ids =>
    let others :=
      faultyFields raw
        [("version", fun value => value.text?.isSome), ("source", fun value => value.text?.isSome)]
    match ids.array? with
    | none => ids :: others
    | some items => (items.filter fun item => item.text?.isNone) ++ others

/-- Reads a request to replace the catalog, or gives the values at fault. -/
def CatalogRequest.ofJson (raw : Json) : Except (List Json) CatalogRequest :=
  (ofJson? raw).elim (.error (faults raw)) .ok

end VoxelBlueprint
