/-
# Events

What is worth a record while documents are expanded and catalogs replaced. An
event has a level and belongs to one part of the program, its topic.

Key definitions: `Event`, `Event.level`, `Event.topic`, `Event.message`.
-/
import VoxelBlueprint.Failure
import VoxelBlueprint.Rejection

namespace VoxelBlueprint

/-- How grave an event is. -/
inductive Level where
  | debug
  | info
  | warning
  deriving DecidableEq, Repr

/-- The name of a level. -/
def Level.name : Level → String
  | debug => "DEBUG"
  | info => "INFO"
  | warning => "WARNING"

/-- What is worth a record. -/
inductive Event where
  | catalogLoaded (version source : String) (size : Nat)
  /-- A block type that the catalog lacks was replaced. -/
  | blockReplaced (id source version fallback : String)
  | definitionsReplaced (names : List String)
  /-- The program of a document failed and its block list stands in. -/
  | fellBack (rejection : Rejection)
  | programRun (blocks steps calls : Nat)
  | runawayRejected (rejection : Rejection)
  | documentRejected (rejection : Rejection)
  /-- A catalog could not be used and the one from `source` stays. -/
  | catalogKept (fault : CatalogFault) (source : String)
  deriving DecidableEq, Repr

namespace Event

/-- The level of an event. -/
def level : Event → Level
  | catalogLoaded _ _ _ => .info
  | blockReplaced _ _ _ _ => .warning
  | definitionsReplaced _ => .debug
  | fellBack _ => .info
  | programRun _ _ _ => .debug
  | runawayRejected _ => .warning
  | documentRejected _ => .info
  | catalogKept _ _ => .warning

/-- The part of the program that an event belongs to. -/
def topic : Event → String
  | catalogLoaded _ _ _ | blockReplaced _ _ _ _ => "blockprint.engine_core.catalog"
  | definitionsReplaced _ | fellBack _ => "blockprint.engine_core.expander"
  | programRun _ _ _ => "blockprint.engine_core.interpreter"
  | runawayRejected _ | documentRejected _ | catalogKept _ _ => "blockprint.api.service"

/-- The wording of an event. -/
def message : Event → String
  | catalogLoaded version source size =>
    s!"Loaded block catalog version={version} source={source} blockTypes={size}"
  | blockReplaced id source version fallback =>
    s!"Unsupported block type {id} (catalog {source}/{version}); using {fallback}"
  | definitionsReplaced names => "Duplicate defs overwritten: " ++ ", ".intercalate names
  | fellBack rejection =>
    s!"Compact program failed ({rejection.text}); falling back to legacy blocks"
  | programRun blocks steps calls =>
    s!"Expanded program: blocks={blocks} steps={steps} calls={calls}"
  | runawayRejected rejection => s!"Runaway program rejected: {rejection.text}"
  | documentRejected rejection => s!"Malformed program rejected: {rejection.text}"
  | catalogKept fault source => s!"{fault.message}; keeping {source} catalog"

end Event
end VoxelBlueprint
