/-
# Expansions

The expansion of a document works on a ledger and may be ended by a rejection. What
was reported and recorded until then stays in the ledger.

Key definitions: `Expansion`.
-/
import VoxelBlueprint.Catalog.Ledger
import VoxelBlueprint.Rejection

namespace VoxelBlueprint

/-- Work on a ledger, which a rejection may end. -/
abbrev Expansion := EStateM Rejection Ledger

end VoxelBlueprint
