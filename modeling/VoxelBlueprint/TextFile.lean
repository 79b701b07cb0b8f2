/-
# Text files

A text file is UTF-8. Its lines may end in a carriage return, a line feed or both,
and count as ending in a line feed.

Key definitions: `readText`.
-/
import VoxelBlueprint.Failure

namespace VoxelBlueprint

/-- The text of a file, with every line end as a line feed. -/
def readText (read : FileReader) (file : String) : Except Failure (List Char) := do
  let bytes ← (read file).mapError (Failure.file file)
  let text ← (Text.Utf8.decode bytes).mapError Failure.encoding
  return Text.unifyNewlines text

end VoxelBlueprint
