/-
# Block ids

The canonical form of a block type: in lower case, without blanks around it, with
every run of blanks inside and every hyphen replaced by an underscore, and under
the common namespace. `Oak Planks` is `minecraft:oak_planks`.

Key definitions: `Catalog.namespaceText`, `Catalog.canonicalText`,
`Catalog.canonical`.
-/
import VoxelBlueprint.Json.Display
import VoxelBlueprint.Text.Blank
import VoxelBlueprint.Text.Lowercase

namespace VoxelBlueprint
namespace Catalog

/-- The namespace of all block ids, with the mark that ends it. -/
def namespaceText : String := "minecraft:"

/-- Replaces every run of blanks by an underscore; `afterBlank` tells that the run
at the start of the text has its underscore already. -/
def joinBlanks (afterBlank : Bool) : List Char → List Char
  | [] => []
  | c :: rest =>
    if Text.isBlank c then
      if afterBlank then joinBlanks true rest else '_' :: joinBlanks true rest
    else c :: joinBlanks false rest

/-- An underscore for a hyphen, and any other character itself. -/
def plainChar (c : Char) : Char :=
  if c = '-' then '_' else c

/-- The text under the namespace, which it may have already. -/
def qualify (text : List Char) : List Char :=
  if namespaceText.toList.isPrefixOf text then text else namespaceText.toList ++ text

/-- The canonical form of a block type. -/
def canonicalText (text : List Char) : List Char :=
  qualify ((joinBlanks false (Text.lower (Text.strip text))).map plainChar)

/-- The canonical form of the block type that a value names: a string itself, null
the empty text, and any other value as diagnostics show it. -/
def canonical (value : Json) : String :=
  let text := if value.isNull then "" else value.display
  String.ofList (canonicalText text.toList)

end Catalog
end VoxelBlueprint
