/-
# Settings

What the environment says about how the program is to run: the ceilings on one
expansion, the label of the deployment, the origins from which requests are
allowed, and the catalog file to start with. A ceiling that is not given, or blank,
is the usual one.

Key definitions: `Environment`, `Settings.limits`.
-/
import VoxelBlueprint.Expansion.Limits
import VoxelBlueprint.Failure
import VoxelBlueprint.Numeral

namespace VoxelBlueprint

/-- The values of the environment, by their names. -/
abbrev Environment := List (String × String)

namespace Settings

/-- The names that are looked up in the environment. -/
def names : List String :=
  ["BLOCKPRINT_ENV", "BLOCKPRINT_MAX_BLOCKS", "BLOCKPRINT_MAX_CALL_DEPTH",
   "BLOCKPRINT_MAX_STEPS", "BLOCKPRINT_MAX_CALLS", "BLOCKPRINT_CATALOG_FILE", "ALLOWED_ORIGINS"]

/-- The integer of the given name, `default` if there is none. -/
def integer (env : Environment) (name : String) (default : Int) : Except Failure Int :=
  match env.lookup name with
  | none => .ok default
  | some raw =>
    if Text.isAllBlank raw then .ok default
    else
      match Numeral.read? raw.toList with
      | some n => .ok n
      | none => .error (.setting name raw)

/-- The ceilings on one expansion. -/
def limits (env : Environment) : Except Failure Limits := do
  let usual : Limits := {}
  let maxBlocks ← integer env "BLOCKPRINT_MAX_BLOCKS" usual.maxBlocks
  let maxCallDepth ← integer env "BLOCKPRINT_MAX_CALL_DEPTH" usual.maxCallDepth
  let maxSteps ← integer env "BLOCKPRINT_MAX_STEPS" usual.maxSteps
  let maxCalls ← integer env "BLOCKPRINT_MAX_CALLS" usual.maxCalls
  return { usual with maxBlocks, maxCallDepth, maxSteps, maxCalls }

/-- The label of the deployment. -/
def deployment (env : Environment) : String :=
  (env.lookup "BLOCKPRINT_ENV").getD "development"

/-- The origins from which requests are allowed. -/
def origins (env : Environment) : List String :=
  ((env.lookup "ALLOWED_ORIGINS").getD "*").splitOn ","

/-- The catalog file to start with, if one is named. -/
def catalogFile? (env : Environment) : Option String :=
  env.lookup "BLOCKPRINT_CATALOG_FILE"

end Settings
end VoxelBlueprint
