import VoxelBlueprint.Text.Blank
import VoxelBlueprint.Text.DecimalDigit
import VoxelBlueprint.Text.Lowercase
import VoxelBlueprint.Text.Quoted
import VoxelBlueprint.Numeral
import VoxelBlueprint.Binary64.Decimal
import VoxelBlueprint.Json.Display
import VoxelBlueprint.Json.Reader
import VoxelBlueprint.Json.Writer
import VoxelBlueprint.Expression.Coercion
import VoxelBlueprint.Program.Reader
import VoxelBlueprint.Program.Validation
import VoxelBlueprint.Catalog.File
import VoxelBlueprint.Catalog.Store
import VoxelBlueprint.Blueprint
import VoxelBlueprint.Catalog.Ledger
import VoxelBlueprint.Expansion.Limits
import VoxelBlueprint.Expansion.Execution
import VoxelBlueprint.Expansion.Dispatch
import VoxelBlueprint.Expansion.Session
import VoxelBlueprint.Settings
import VoxelBlueprint.Service.Basic
import VoxelBlueprint.Http
import VoxelBlueprint.Http.Standard
import VoxelBlueprint.CommandLine.Outcome
import VoxelBlueprint.Main
import VoxelBlueprint.Proofs.Expression.Reading
import VoxelBlueprint.Proofs.Execution.Bounds
import VoxelBlueprint.Proofs.Execution.Refinement
import VoxelBlueprint.Proofs.Expansion.LowerCeiling
import VoxelBlueprint.Proofs.Execution.Ceilings
import VoxelBlueprint.Proofs.Execution.Charges
import VoxelBlueprint.Proofs.Catalog.BlockId
import VoxelBlueprint.Proofs.Catalog.Snapshot
import VoxelBlueprint.Proofs.Execution.Placement
import VoxelBlueprint.Proofs.Expansion.Blocks
import VoxelBlueprint.Proofs.Expansion.Histories
import VoxelBlueprint.Proofs.Expansion.Sessions
import VoxelBlueprint.Proofs.Expansion.Provenance
import VoxelBlueprint.Proofs.Execution.Validity
import VoxelBlueprint.Proofs.Expansion.Validated
import VoxelBlueprint.Proofs.Catalog.Demands
import VoxelBlueprint.Proofs.Execution.Drafts
import VoxelBlueprint.Proofs.Expansion.Demands
import VoxelBlueprint.Proofs.Expansion.FallingBack
import VoxelBlueprint.Proofs.Expansion.FlatDocuments
import VoxelBlueprint.Proofs.Expansion.Diagnostics
import VoxelBlueprint.Proofs.Execution.Ranges
import VoxelBlueprint.Proofs.Expansion.Ranges
import VoxelBlueprint.Proofs.Catalog.Reports
import VoxelBlueprint.Proofs.Execution.Repairs
import VoxelBlueprint.Proofs.Execution.Reports
import VoxelBlueprint.Proofs.Service.Histories
import VoxelBlueprint.Proofs.Expansion.Reports
import VoxelBlueprint.Proofs.Expansion.Memos
import VoxelBlueprint.Proofs.Execution.Cuts
import VoxelBlueprint.Proofs.Program.Nesting
import VoxelBlueprint.Proofs.Catalog.Files
import VoxelBlueprint.Proofs.Json.Scalars
import VoxelBlueprint.Proofs.Json.Written
import VoxelBlueprint.Proofs.Json.Bytes
import VoxelBlueprint.Proofs.Text.Strip
import VoxelBlueprint.Proofs.Catalog.Spelling
import VoxelBlueprint.Proofs.CommandLine.Outcomes
import VoxelBlueprint.Proofs.Expansion.LineEnds
import VoxelBlueprint.Proofs.Http.Requests
import VoxelBlueprint.Proofs.Json.LineEnds
import VoxelBlueprint.Proofs.Json.Strings
import VoxelBlueprint.Proofs.Text.LineEnds
import VoxelBlueprint.Proofs.Service.Verdicts
import VoxelBlueprint.Proofs.CommandLine.CatalogFiles
import VoxelBlueprint.Proofs.Execution.Uncalled
import VoxelBlueprint.Proofs.Expansion.Untruncated
import VoxelBlueprint.Proofs.CommandLine.Notes
import VoxelBlueprint.Proofs.Service.Untruncated
import VoxelBlueprint.Proofs.Execution.Defects
import VoxelBlueprint.Proofs.Json.Paths
import VoxelBlueprint.Proofs.Program.Edits
import VoxelBlueprint.Proofs.Execution.Arguments
import VoxelBlueprint.Proofs.Execution.Chains
import VoxelBlueprint.Proofs.Expression.Layouts
import VoxelBlueprint.Proofs.Expression.Lexemes
import VoxelBlueprint.Proofs.Expression.Respacing
import VoxelBlueprint.Proofs.Expression.Inlining
import VoxelBlueprint.Proofs.Expression.Integers
import VoxelBlueprint.Proofs.Catalog.Building
import VoxelBlueprint.Proofs.Expansion.Chunks
import VoxelBlueprint.Proofs.Expansion.Fences
import VoxelBlueprint.Proofs.Program.Respelling
import VoxelBlueprint.Proofs.Expression.Descent
