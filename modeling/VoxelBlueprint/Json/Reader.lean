/-
# Reading JSON

A text is read in one pass. `Reader.State` says what may come next and which
arrays and objects are still open; `Reader.State.take` is the effect of one lexeme
on it, and a text is refused at the first lexeme that fits nowhere. Of two fields
with one name the last gives the value and the first the place.

Key definitions: `Json.Reader.State`, `Json.Reader.State.take`, `Json.read`.
-/
import VoxelBlueprint.Json.Lexeme

namespace VoxelBlueprint
namespace Json
namespace Reader

/-- How deep arrays and objects may be nested. -/
def maxNesting : Nat := 1000

/-- What encloses the value that is being read. -/
inductive Frame where
  /-- An array with the items before the value, in reverse. -/
  | array (items : List Json)
  /-- An object with the fields before the value, and the name of the value's field. -/
  | object (fields : List (String × Json)) (key : String)

/-- What may come next. -/
inductive Expected where
  | value
  /-- The first item of an array, or its end. -/
  | firstItem
  /-- A comma or the end of the array. -/
  | nextItem (items : List Json)
  /-- The first field of an object, or its end. -/
  | firstKey
  | key (fields : List (String × Json))
  | colon (fields : List (String × Json)) (key : String)
  /-- A comma or the end of the object. -/
  | nextKey (fields : List (String × Json))
  /-- Nothing: the value of the text is complete. -/
  | nothing (value : Json)

/-- How far a text has been read. -/
structure State where
  frames : List Frame
  expected : Expected

/-- Nothing has been read. -/
def State.start : State := ⟨[], .value⟩

/-- The state after a value inside the given frames. -/
def complete (value : Json) : List Frame → State
  | [] => ⟨[], .nothing value⟩
  | .array items :: frames => ⟨frames, .nextItem (value :: items)⟩
  | .object fields key :: frames => ⟨frames, .nextKey (setField key value fields)⟩

/-- What is wrong where something else than the expected comes, or the end of the text. -/
def Expected.problem : Expected → Problem
  | value | firstItem => .noValue
  | nextItem _ | nextKey _ => .noComma
  | firstKey | key _ => .noKey
  | colon _ _ => .noColon
  | nothing _ => .extraData

/-- A fault at a distance from the start, to be located in the text. -/
inductive Stop where
  | grammar (problem : Problem) (position : Nat)
  | longNumeral (digits : Nat)
  | deepNesting (inArray : Bool)

/-- The state inside an array or object that opens where a value is expected. -/
def enter (frames : List Frame) (inArray : Bool) : Except Stop State :=
  if frames.length < maxNesting then
    .ok ⟨frames, if inArray then .firstItem else .firstKey⟩
  else .error (.deepNesting inArray)

/-- The effect of a lexeme where a value is expected inside the given frames. -/
def takeValue (frames : List Frame) (position : Nat) : Lexeme → Except Stop State
  | .scalar value => .ok (complete value frames)
  | .text content => .ok (complete (.str content) frames)
  | .mark .openBracket => enter frames true
  | .mark .openBrace => enter frames false
  | .longNumeral digits => .error (.longNumeral digits)
  | .badText problem place => .error (.grammar problem place)
  | _ => .error (.grammar .noValue position)

/-- The effect of the lexeme at the given place. -/
def State.take (s : State) (position : Nat) (lexeme : Lexeme) : Except Stop State :=
  match s.expected, lexeme with
  | .value, lexeme => takeValue s.frames position lexeme
  | .firstItem, .mark .closeBracket => .ok (complete (.arr []) s.frames)
  | .firstItem, lexeme => takeValue (.array [] :: s.frames) position lexeme
  | .nextItem items, .mark .closeBracket => .ok (complete (.arr items.reverse) s.frames)
  | .nextItem items, .mark .comma => .ok ⟨.array items :: s.frames, .value⟩
  | .firstKey, .mark .closeBrace => .ok (complete (.obj []) s.frames)
  | .firstKey, .text key => .ok ⟨s.frames, .colon [] key⟩
  | .key fields, .text key => .ok ⟨s.frames, .colon fields key⟩
  | .firstKey, .badText problem place | .key _, .badText problem place =>
    .error (.grammar problem place)
  | .colon fields key, .mark .colon => .ok ⟨.object fields key :: s.frames, .value⟩
  | .nextKey fields, .mark .closeBrace => .ok (complete (.obj fields) s.frames)
  | .nextKey fields, .mark .comma => .ok ⟨s.frames, .key fields⟩
  | expected, _ => .error (.grammar expected.problem position)

/-- The value of a text that ends at the given place. -/
def State.finish (s : State) (position : Nat) : Except Stop Json :=
  match s.expected with
  | .nothing value => .ok value
  | expected => .error (.grammar expected.problem position)

/-- Reads the characters from `position` on, the first `skip` of which belong to a
lexeme that has been taken. -/
def run (s : State) (skip position : Nat) : List Char → Except Stop Json
  | [] => s.finish position
  | c :: rest =>
    match skip with
    | skip + 1 => run s skip (position + 1) rest
    | 0 =>
      if isSpace c then run s 0 (position + 1) rest
      else
        let (lexeme, width) := Lexeme.read position c rest
        match s.take position lexeme with
        | .ok s => run s width (position + 1) rest
        | .error stop => .error stop

/-- The fault of a text that could not be read to its end. -/
def Stop.fault (text : List Char) : Stop → Fault
  | grammar problem position => .grammar problem (.of text position)
  | longNumeral digits => .longNumeral digits
  | deepNesting inArray => .deepNesting inArray

end Reader

/-- The value that a text writes. A byte order mark is no part of JSON. -/
def read (text : List Char) : Except Fault Json :=
  if text.head? = some '\uFEFF' then .error (.grammar .byteOrderMark (.of text 0))
  else (Reader.run .start 0 0 text).mapError (Reader.Stop.fault text)

end Json
end VoxelBlueprint
