/-
# Expansion of documents

A document is expanded by its layout. If it has a program that is rejected and a
list of blocks as well, the list stands in for the program; this is the only
rejection that is not final. The blocks are assembled to a blueprint.

Key definitions: `expandProgram`, `dispatch`, `expandDocument`, `expandText`.
-/
import VoxelBlueprint.Expansion.BlockList
import VoxelBlueprint.Expansion.Execution
import VoxelBlueprint.Program.Reader

namespace VoxelBlueprint

/-- The blocks of a program, all of them from the snapshot that is current at its start. -/
def Program.expand (limits : Limits) (p : Program) : Expansion (List Block) := fun ledger =>
  let c : RunContext := { program := p, limits, captured := some ledger.store.current }
  match runProgram c { ledger } with
  | .ok _ s => .ok s.output.toList s.ledger
  | .error rejection s => .error rejection s.ledger

/-- Reads the program of a document, and records definitions that were replaced. -/
def readProgram (document : Json) : Expansion Program := do
  match Program.read document with
  | .error malformation => throw (.malformed malformation)
  | .ok program =>
    if !program.redefined.isEmpty then
      modify (·.record (.definitionsReplaced program.redefined))
    return program

/-- The blocks of a document with a program. -/
def expandProgram (limits : Limits) (document : Json) : Expansion (List Block) := do
  (← readProgram document).expand limits

/-- The blocks of a document whose program was rejected. -/
def fallBack (limits : Limits) (document : Json) (rejection : Rejection) :
    Expansion (List Block) := do
  if Document.hasBlockList document then
    modify (·.record (.fellBack rejection))
    expandBlockList limits document
  else throw rejection

/-- The blocks of a document, and the layout from which they were read. -/
def dispatch (limits : Limits) (document : Json) : Expansion (List Block × Layout) := do
  match Layout.of document with
  | .error malformation => throw (.malformed malformation)
  | .ok none => throw (.malformed ⟨.noLayout, []⟩)
  | .ok (some .blockList) => return (← expandBlockList limits document, .blockList)
  | .ok (some .program) =>
    tryCatch ((·, .program) <$> expandProgram limits document) fun rejection =>
      (·, .blockList) <$> fallBack limits document rejection

/-- The blueprint of a document. -/
def expandDocument (limits : Limits) (document : Json) : Expansion Blueprint := do
  let (blocks, layout) ← dispatch limits document
  return .assemble blocks limits.maxBlocks (some layout)

/-- The document that a text holds. -/
def decodeDocument (text : List Char) : Expansion Json :=
  match Document.decode text with
  | .ok document => pure document
  | .error fault => throw (.undecodable fault)

/-- The blueprint of the document that a text holds. -/
def expandText (limits : Limits) (text : List Char) : Expansion Blueprint := do
  expandDocument limits (← decodeDocument text)

end VoxelBlueprint
