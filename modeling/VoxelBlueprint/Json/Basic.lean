/-
# JSON values

A JSON value keeps whole numbers apart from binary64 numbers, and the fields of an
object in their order. `Json.field?` is how an object is seen from outside: a
value that is not an object has no fields, and a field that is null counts as a
field with the value null.

Key definitions: `Json`, `Json.field?`, `Json.setField`, `Json.isTruthy`,
`Json.isFinite`.
-/
import VoxelBlueprint.Binary64.Basic

namespace VoxelBlueprint

/-- A JSON value. -/
inductive Json where
  | null
  | bool (value : Bool)
  | int (value : Int)
  | float (value : Binary64)
  | str (value : String)
  | arr (items : List Json)
  | obj (fields : List (String × Json))

namespace Json

/-- The value of the first field with the given name, if the value is an object that has one. -/
def field? (name : String) : Json → Option Json
  | obj fields => fields.lookup name
  | _ => none

/-- The value of a field, null if there is none. -/
def field (name : String) (value : Json) : Json :=
  (value.field? name).getD null

/-- The items of an array. -/
def array? : Json → Option (List Json)
  | arr items => some items
  | _ => none

/-- The fields of an object. -/
def object? : Json → Option (List (String × Json))
  | obj fields => some fields
  | _ => none

/-- The text of a string value. -/
def text? : Json → Option String
  | str text => some text
  | _ => none

/-- Whether the value is null. -/
def isNull : Json → Bool
  | null => true
  | _ => false

/-- Whether the value is an array. -/
def isArray : Json → Bool
  | arr _ => true
  | _ => false

/-- Whether the value is an object. -/
def isObject : Json → Bool
  | obj _ => true
  | _ => false

/-- Sets a field: a name that is there keeps its place, a new one goes to the end. -/
def setField (name : String) (value : Json) : List (String × Json) → List (String × Json)
  | [] => [(name, value)]
  | (n, v) :: rest => if n = name then (n, value) :: rest else (n, v) :: setField name value rest

/-- Whether the value counts as present: null, false, zero and whatever is empty do not. -/
def isTruthy : Json → Bool
  | null => false
  | bool b => b
  | int n => n != 0
  | float x => !x.isZero
  | str s => s != ""
  | arr items => !items.isEmpty
  | obj fields => !fields.isEmpty

mutual

/-- Whether all numbers in the value are finite. Only such values can be written strictly. -/
def isFinite : Json → Bool
  | float x => x.isFinite
  | arr items => allFinite items
  | obj fields => allFieldsFinite fields
  | _ => true

/-- Whether all numbers in the items are finite. -/
def allFinite : List Json → Bool
  | [] => true
  | item :: rest => isFinite item && allFinite rest

/-- Whether all numbers in the fields are finite. -/
def allFieldsFinite : List (String × Json) → Bool
  | [] => true
  | (_, value) :: rest => isFinite value && allFieldsFinite rest

end

end Json
end VoxelBlueprint
