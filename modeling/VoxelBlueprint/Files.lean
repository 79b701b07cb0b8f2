/-
# Files

How files are named and what happens when they are opened. A `FileReader` gives
the bytes of a file by its name; `Folder.read` is the reader for a folder whose
files are known, with names relative to it. A name is cut at its slashes: empty
parts and single points stay where they are, and two points go up. Beyond the
folder itself there are only folders.

Key definitions: `FileFault`, `FileReader`, `Folder`, `Folder.read`,
`tidyFileName`.
-/
import VoxelBlueprint.Text.Quoted

namespace VoxelBlueprint

/-- Why a file cannot be read. -/
inductive FileFault where
  | missing
  | isDirectory
  | notDirectory
  | nameTooLong
  | nulInName
  deriving DecidableEq, Repr

/-- The wording of a fault on opening a file of the given name. -/
def FileFault.message (fault : FileFault) (name : String) : String :=
  match fault with
  | missing => s!"[Errno 2] No such file or directory: {Text.quoted name}"
  | isDirectory => s!"[Errno 21] Is a directory: {Text.quoted name}"
  | notDirectory => s!"[Errno 20] Not a directory: {Text.quoted name}"
  | nameTooLong => s!"[Errno 36] File name too long: {Text.quoted name}"
  | nulInName => "embedded null byte"

/-- The name of the fault's kind. -/
def FileFault.kindName : FileFault → String
  | missing => "FileNotFoundError"
  | isDirectory => "IsADirectoryError"
  | notDirectory => "NotADirectoryError"
  | nameTooLong => "OSError"
  | nulInName => "ValueError"

/-- Gives the bytes of a file by its name. -/
abbrev FileReader := String → Except FileFault (List UInt8)

/-- The files of a folder, each with the names of the folders on the way to it. -/
structure Folder where
  files : List (List String × List UInt8) := []

namespace Folder

/-- The parts of a file name between its slashes. -/
def parts (name : String) : List String :=
  name.splitOn "/"

/-- Whether the folder has a folder at the given place. -/
def hasFolder (folder : Folder) (place : List String) : Bool :=
  place.isEmpty || folder.files.any fun file => place.isPrefixOf file.1 && place != file.1

/-- What happens when a name leads out of the folder by the given parts: nothing is known to
be there but folders. -/
def faultOutside (parts : List String) : FileFault :=
  if parts.all fun part => part = "" || part = "." || part = ".." then .isDirectory
  else .missing

/-- Follows the parts of a name from a place of the folder. -/
def follow (folder : Folder) (place : List String) : List String →
    Except FileFault (List String)
  | [] => .ok place
  | part :: rest =>
    if !folder.hasFolder place then .error .notDirectory
    else if part = "" ∨ part = "." then folder.follow place rest
    else if part = ".." then
      if place.isEmpty then .error (faultOutside rest) else folder.follow place.dropLast rest
    else
      let next := place ++ [part]
      if 255 < part.utf8ByteSize then .error .nameTooLong
      else if folder.hasFolder next || (folder.files.lookup next).isSome then
        folder.follow next rest
      else .error .missing

/-- The number of bytes that a name must not reach. -/
def maxNameBytes : Nat := 4096

/-- The bytes of a file of the folder. A name that starts with a slash leads out of it. -/
def read (folder : Folder) : FileReader := fun name =>
  if '\x00' ∈ name.toList then .error .nulInName
  else if name = "" then .error .missing
  else if maxNameBytes ≤ name.utf8ByteSize then .error .nameTooLong
  else if name.startsWith "/" then .error (faultOutside (parts name))
  else do
    let place ← folder.follow [] (parts name)
    match folder.files.lookup place with
    | some bytes => .ok bytes
    | none => .error .isDirectory

/-- The folder with one more file. -/
def insert (folder : Folder) (name : String) (bytes : List UInt8) : Folder :=
  ⟨folder.files ++ [((parts name).filter fun part => part != "" && part != ".", bytes)]⟩

end Folder

/-- A file name without empty parts and single points; a name without other parts is a point. -/
def tidyFileName (name : String) : String :=
  let parts := (Folder.parts name).filter fun part => part != "" && part != "."
  let root :=
    if name.startsWith "//" && !name.startsWith "///" then "//"
    else if name.startsWith "/" then "/"
    else ""
  if root = "" ∧ parts.isEmpty then "." else root ++ "/".intercalate parts

/-- The last part of a tidy file name. -/
def baseName (name : String) : String :=
  ((Folder.parts name).filter fun part => part != "" && part != ".").getLast?.getD ""

end VoxelBlueprint
