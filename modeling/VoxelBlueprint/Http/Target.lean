/-
# Targets of requests

A target may name a scheme and an authority, which are taken off. Its path is what
is left before a query or fragment. Segments of one point stay where they are and
those of two points go up. An escape, which may itself be escaped, stands for a
character. Only a target that names both a scheme and a host keeps all the slashes
at the start of its path; every other path is given a single one.

Key definitions: `Http.TargetFault`, `Http.pathOf`, `Http.withoutDots`,
`Http.unescape`.
-/
import VoxelBlueprint.Text.Hexadecimal
import VoxelBlueprint.Text.Quoted

namespace VoxelBlueprint
namespace Http

/-- Why a text is no target. -/
inductive TargetFault where
  | tooLong
  | control (c : Char) (position : Nat)
  | doubleSlash
  | colon
  | unknownScheme (scheme : String)
  deriving DecidableEq, Repr

/-- The wording of a target's fault. -/
def TargetFault.message : TargetFault → String
  | tooLong => "URL too long"
  | control c position =>
    s!"Invalid non-printable ASCII character in URL, {Text.quoted c.toString} " ++
      s!"at position {position}."
  | doubleSlash => "Relative URLs cannot have a path starting with '//'"
  | colon => "Relative URLs cannot have a path starting with ':'"
  | unknownScheme scheme => Text.quoted scheme

/-- The name of the fault's kind. -/
def TargetFault.kindName : TargetFault → String
  | unknownScheme _ => "KeyError"
  | _ => "InvalidURL"

/-- The most characters that a target may have. -/
def maxTargetLength : Nat := 65536

/-- Whether the character is an ASCII control. -/
def isControl (c : Char) : Bool :=
  c.toNat < 0x20 || c.toNat = 0x7F

/-! ### Parts of a target -/

/-- Whether the character may stand in a scheme. -/
def isSchemeChar (c : Char) : Bool :=
  c.isAlphanum || c = '+' || c = '-' || c = '.'

/-- The scheme that a colon ends, which starts with a letter, and what follows it. -/
def cutScheme (target : List Char) : List Char × List Char :=
  match target.takeWhile isSchemeChar, target.dropWhile isSchemeChar with
  | [], ':' :: rest => ([], rest)
  | c :: scheme, ':' :: rest => if c.isAlpha then (c :: scheme, rest) else ([], target)
  | _, _ => ([], target)

/-- The authority between two slashes and the next one, and what follows it. -/
def cutAuthority : List Char → List Char × List Char
  | '/' :: '/' :: rest => (rest.takeWhile (· ≠ '/'), rest.dropWhile (· ≠ '/'))
  | path => ([], path)

/-- The host that an authority names, without user and port. -/
def hostOf (authority : List Char) : List Char :=
  ((authority.reverse.takeWhile (· ≠ '@')).reverse).takeWhile (· ≠ ':')

/-- The path of a target before points and escapes are undone. -/
def rawPath (target : List Char) : Except TargetFault (List Char) :=
  let (scheme, rest) := cutScheme (target.takeWhile fun c => c ≠ '?' ∧ c ≠ '#')
  let (authority, path) := cutAuthority rest
  if scheme ≠ [] ∧ hostOf authority ≠ [] then
    let scheme := (String.ofList scheme).toLower
    if scheme = "http" ∨ scheme = "https" then .ok path else .error (.unknownScheme scheme)
  else if scheme = [] ∧ authority = [] ∧ ['/', '/'].isPrefixOf path then .error .doubleSlash
  else if scheme = [] ∧ authority = [] ∧ path.head? = some ':' then .error .colon
  else .ok ('/' :: path.dropWhile (· = '/'))

/-! ### Points and escapes -/

/-- Replaces percent escapes by the characters with these codes. All paths are ASCII, so
escapes of other characters need not be joined. -/
def unescape : List Char → List Char
  | '%' :: a :: b :: rest =>
    match Text.hexValue? a, Text.hexValue? b with
    | some m, some n => Char.ofNat (16 * m + n) :: unescape rest
    | _, _ => '%' :: unescape (a :: b :: rest)
  | c :: rest => c :: unescape rest
  | [] => []

/-- The segments that have been kept, the latest first, after one more segment. -/
def takeSegment (kept : List String) (segment : String) : List String :=
  if segment = "." then kept
  else if segment = ".." then if kept = [""] then kept else kept.drop 1
  else segment :: kept

/-- The path without segments of one or two points. -/
def withoutDots (path : String) : String :=
  "/".intercalate ((path.splitOn "/").foldl takeSegment []).reverse

/-- The path of a target, which is not empty. -/
def pathOf (target : String) : Except TargetFault (List Char) := do
  let target := target.toList
  if maxTargetLength < target.length then throw .tooLong
  match target.find? isControl with
  | some c => throw (.control c (target.idxOf c))
  | none =>
    let plain := withoutDots (String.ofList (← rawPath target))
    return if plain = "" then ['/'] else unescape (unescape plain.toList)

/-- The path without slashes at its end. -/
def withoutFinalSlashes (path : List Char) : List Char :=
  (path.reverse.dropWhile (· = '/')).reverse

end Http
end VoxelBlueprint
