/-
# The outcome of a command

What a command prints, what it reports, and how it ends. A command that is not
given what it needs says so on its output and ends with status 1, a runaway program
ends it with status 2, and a failure of another kind is passed on.

Key definitions: `Outcome`, `Ending`, `Command.execute`, `Outcome.of`.
-/
import VoxelBlueprint.CommandLine.Arguments
import VoxelBlueprint.Json.Writer
import VoxelBlueprint.Service.Basic

namespace VoxelBlueprint
namespace CommandLine

/-- How a command ends. -/
inductive Ending where
  | exit (status : Nat)
  /-- Without anything done, after an explanation of the arguments. -/
  | usage (stop : Stop)
  | failed (failure : Failure)
  deriving DecidableEq, Repr

/-- What a command has printed and reported so far. -/
structure Console where
  ledger : Ledger := {}
  lines : List String := []
  /-- What is to be noted behind the events. -/
  notes : List String := []

/-- Work on a console, which may end early. -/
abbrev Job := EStateM Ending Console

/-- Prints a line. -/
def print (line : String) : Job Unit :=
  modify fun c => { c with lines := c.lines ++ [line] }

/-- Prints a line for each of the items, behind a heading, unless there are none. -/
def printList (heading : String) (items : List String) : Job Unit :=
  if items.isEmpty then pure ()
  else
    let lines := "" :: heading :: items.map fun item => s!"  - {item}"
    modify fun c => { c with lines := c.lines ++ lines }

/-- Ends the command with a message. -/
def quit {α : Type} (message : String) (status : Nat) : Job α := do
  print message
  throw (.exit status)

/-- Goes on unless there is a failure. -/
def orFail {α : Type} : Except Failure α → Job α
  | .ok value => pure value
  | .error failure => throw (.failed failure)

/-! ### Files -/

/-- What a catalog file says. -/
def readListing (read : FileReader) (file : String) : Job Catalog.Listing :=
  match Catalog.Listing.ofFile read file with
  | .ok listing => pure listing
  | .error (.catalog fault) => quit s!"Error: {fault.message}" 1
  | .error failure => throw (.failed failure)

/-- The fault of the catalog of a listing, if there is one, or else nothing, with the
catalog in use. -/
def install (listing : Catalog.Listing) : Job (Option CatalogFault) := do
  let values := listing.ids.map Json.str
  let ledger := (← get).ledger
  match ledger.replaceCatalog values (some listing.version) (some listing.source) with
  | .error (.catalog fault) => return some fault
  | .error failure => throw (.failed failure)
  | .ok ledger =>
    modify fun c => { c with ledger }
    return none

/-- The text of a file with a document. -/
def readResponse (read : FileReader) (file : String) : Job (List Char) :=
  match readText read file with
  | .ok text => pure text
  | .error (.file _ .missing) => quit s!"Error: File not found: {file}" 1
  | .error failure => throw (.failed failure)

/-! ### Commands -/

/-- The blueprint of the document that a text holds. -/
def expandOrQuit (limits : Limits) (text : List Char) : Job Blueprint := do
  match expandText limits text (← get).ledger with
  | .ok b ledger =>
    modify fun c => { c with ledger }
    return b
  | .error rejection ledger =>
    modify fun c => { c with ledger }
    match rejection with
    | .runaway _ _ => quit s!"Runaway program: {rejection.text}" 2
    | _ => quit s!"Malformed program: {rejection.text}" 1

/-- Prints a blueprint, in chunks if a size is given that is not zero. -/
def printBlueprint (b : Blueprint) (chunkSize : Option Int) : Job Unit :=
  match chunkSize with
  | none | some 0 => print b.toJson.indented
  | some size => do
    let chunks ← orFail (b.chunks size)
    chunks.forM fun chunk => print chunk.toJson.compact

/-- Notes that blocks were cut off, if some were. -/
def noteTruncation (b : Blueprint) : Job Unit :=
  match b.truncatedFrom with
  | none => pure ()
  | some n =>
    let note := s!"Warning: truncated {n} blocks to {b.blocks.length}"
    modify fun c => { c with notes := c.notes ++ [note] }

/-- Expands the document of a file. -/
def expandFile (env : Environment) (read : FileReader) (file : String)
    (catalog : Option String) (maxBlocks chunkSize : Option Int) : Job Unit := do
  match catalog with
  | none | some "" => pure ()
  | some catalog =>
    if let some fault ← install (← readListing read catalog) then
      throw (.failed (.catalog fault))
  let usual ← orFail (Settings.limits env)
  let limits := { usual with maxBlocks := maxBlocks.getD usual.maxBlocks }
  let b ← expandOrQuit limits (← readResponse read file)
  printBlueprint b chunkSize
  noteTruncation b

/-- The program of a document, if it has one. -/
def programOf (document : Json) : Except Malformation (Option (Option Program)) := do
  match ← Layout.of document with
  | none => return none
  | some .blockList => return some none
  | some .program => return some (some (← Program.read document))

/-- Prints what is found about a program. -/
def printFindings (program : Program) : Job Unit := do
  print s!"Defs: {program.definitions.length}"
  print s!"Top-level steps: {program.steps.length}"
  printList "Warnings:" program.warningTexts
  printList "Errors:" program.errorTexts
  if program.isValid then
    print ""
    print "Valid"
  else throw (.exit 1)

/-- Validates the document of a file. -/
def validateFile (read : FileReader) (file : String) : Job Unit := do
  match Document.decode (← readResponse read file) with
  | .error fault => quit s!"Error: {fault.message}" 1
  | .ok document =>
    match programOf document with
    | .error malformation => quit s!"Error: {malformation.text}" 1
    | .ok none => quit s!"Error: {ShapeFault.noLayout.message}" 1
    | .ok (some none) => print "Legacy block list: nothing to validate"
    | .ok (some (some program)) => printFindings program

/-- Summarizes a catalog file. -/
def summarizeCatalog (read : FileReader) (file : String) : Job Unit := do
  if let some fault ← install (← readListing read file) then
    quit s!"Error: {fault.message}" 1
  let snapshot := (← get).ledger.store.current
  print s!"Version: {snapshot.version}"
  print s!"Source: {snapshot.source}"
  print s!"Block types: {snapshot.ids.length}"
  print s!"Fallback: {snapshot.fallback}"

/-- Executes a command. Requests are not served from the command line. -/
def Command.execute (env : Environment) (read : FileReader) : Command → Job Unit
  | .expand file listing maxBlocks chunkSize =>
    expandFile env read file listing maxBlocks chunkSize
  | .validate file => validateFile read file
  | .catalog file => summarizeCatalog read file
  | .serve host portNumber => quit s!"Error: Cannot serve requests on {host}:{portNumber}" 1

/-- The files that the arguments name, as they are opened. -/
def filesOf (arguments : List String) : List String :=
  match Invocation.parse arguments with
  | .ok { command := .expand file catalog _ _, .. } =>
    file :: (catalog.toList.map tidyFileName)
  | .ok { command := .validate file, .. } => [file]
  | .ok { command := .catalog file, .. } => [tidyFileName file]
  | _ => []

/-! ### Outcomes -/

/-- The texts that a command leaves and how it ends. -/
structure Outcome where
  output : String := ""
  diagnostics : String := ""
  ending : Ending
  deriving DecidableEq, Repr

/-- Whether an event is shown. -/
def isShown (verbose : Bool) (event : Event) : Bool :=
  verbose || event.level = .warning

/-- An event as it is shown. -/
def eventLine (event : Event) : String :=
  s!"{event.level.name}:{event.topic}:{event.message}"

/-- Lines as a text, each with a line end. -/
def textOfLines (lines : List String) : String :=
  String.join (lines.map (· ++ "\n"))

/-- The outcome of a job, with all events if it is verbose. -/
def Job.outcome (verbose : Bool) (job : Job Unit) : Outcome :=
  let (c, ending) : Console × Ending :=
    match job {} with
    | .ok _ c => (c, .exit 0)
    | .error ending c => (c, ending)
  { output := textOfLines c.lines
    diagnostics :=
      textOfLines ((c.ledger.journal.filter (isShown verbose)).map eventLine ++ c.notes)
    ending }

/-- The outcome of the program with the given arguments. -/
def Outcome.of (env : Environment) (read : FileReader) (arguments : List String) : Outcome :=
  match Invocation.parse arguments with
  | .error stop => { ending := .usage stop }
  | .ok invocation => (invocation.command.execute env read).outcome invocation.verbose

end CommandLine
end VoxelBlueprint
