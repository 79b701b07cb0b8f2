/-
# Documents

A document is a JSON object that says what to build, in one of two layouts: as a
program, with an array of steps or of definitions, or as a plain list of blocks.
The text that holds a document may be fenced: it may stand between two lines of
three backticks, the first of which may go on with a tag.

Key definitions: `Layout`, `Layout.of`, `Document.unfenced`, `Document.decode`.
-/
import VoxelBlueprint.Json.Reader
import VoxelBlueprint.Rejection
import VoxelBlueprint.Text.Blank

namespace VoxelBlueprint

/-- How a document says what to build. -/
inductive Layout where
  | program
  | blockList
  deriving DecidableEq, Repr

/-- The name of a layout. -/
def Layout.name : Layout → String
  | program => "compact"
  | blockList => "legacy"

namespace Document

/-- Whether the document has a program, or a part of one. -/
def hasProgram (document : Json) : Bool :=
  (document.field "steps").isArray || (document.field "defs").isArray

/-- Whether the document has a list of blocks. -/
def hasBlockList (document : Json) : Bool :=
  (document.field "blocks").isArray

end Document

/-- The layout of a document, if it has one. A program comes before a list of blocks. -/
def Layout.of (document : Json) : Except Malformation (Option Layout) :=
  if !document.isObject then .error ⟨.documentNotObject, []⟩
  else if Document.hasProgram document then .ok (some .program)
  else if Document.hasBlockList document then .ok (some .blockList)
  else .ok none

namespace Document

/-! ### Fences -/

/-- The mark that opens and closes a fence. -/
def fence : List Char := ['\x60', '\x60', '\x60']

/-- Whether the character may stand in the tag of a fence. -/
def isTagChar (c : Char) : Bool :=
  c.isAlphanum || c = '_' || c = '-'

/-- The text inside the fence that the whole text is, if it is one: what stands between
the tag and the closing mark, without the blanks around it. -/
def fenced? (text : List Char) : Option (List Char) :=
  if fence.isPrefixOf text && fence.isSuffixOf (text.drop fence.length) then
    let inner := (text.drop fence.length).dropWhile isTagChar
    some (Text.strip (inner.take (inner.length - fence.length)))
  else none

/-- The text without the blanks around it and without a fence. -/
def unfenced (text : List Char) : List Char :=
  let body := Text.strip text
  (fenced? body).getD body

/-! ### Decoding -/

/-- The document that a text holds. -/
def decode (text : List Char) : Except DecodeFault Json :=
  if text.all Text.isBlank then .error .emptyText
  else
    match Json.read (unfenced text) with
    | .error fault => .error (.invalidJson fault)
    | .ok value => if value.isObject then .ok value else .error .notObject

end Document
end VoxelBlueprint
