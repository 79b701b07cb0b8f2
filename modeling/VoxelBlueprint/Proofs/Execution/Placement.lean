/-
# Where the blocks of an execution come from

An execution that was given a snapshot places blocks of this snapshot and no others, whatever
the catalog is by then: a type that the snapshot lacks is replaced by its fallback.

Key definitions: `Catalog.Snapshot.HasAll`, `RunState.PlacesFrom`.
Key theorems: `RunContext.Moves.placesFrom`, `execute_placesFrom`.
-/
import VoxelBlueprint.Proofs.Catalog.Snapshot
import VoxelBlueprint.Proofs.Execution.Growth

namespace VoxelBlueprint

open Stage

/-- Whether all blocks are of a snapshot. -/
def Catalog.Snapshot.HasAll (snapshot : Catalog.Snapshot) (blocks : List Block) : Prop :=
  ∀ block ∈ blocks, block.blockType ∈ snapshot.ids

/-- Whether the blocks that were placed between two states of a run are of a snapshot. -/
def RunState.PlacesFrom (snapshot : Catalog.Snapshot) (s s' : RunState) : Prop :=
  ∃ placed, s'.output.toList = s.output.toList ++ placed ∧ snapshot.HasAll placed

namespace RunState.PlacesFrom

variable {snapshot : Catalog.Snapshot}

theorem of_output_eq {s s' : RunState} (h : s'.output = s.output) : s.PlacesFrom snapshot s' :=
  ⟨[], by rw [h, List.append_nil], List.forall_mem_nil _⟩

theorem trans {s t u : RunState} (h : s.PlacesFrom snapshot t) (h' : t.PlacesFrom snapshot u) :
    s.PlacesFrom snapshot u := by
  obtain ⟨placed, hp, hm⟩ := h
  obtain ⟨placed', hp', hm'⟩ := h'
  exact ⟨placed ++ placed', by rw [hp', hp, List.append_assoc],
    List.forall_mem_append.mpr ⟨hm, hm'⟩⟩

end RunState.PlacesFrom

namespace RunContext

variable {c : RunContext} {snapshot : Catalog.Snapshot}

/-- A step that is begun places a block of the snapshot that was captured, or none. -/
theorem Begins.placesFrom (hc : c.captured = some snapshot) (hs : snapshot.ids ≠ [])
    {scope : Scope} {rest : Agenda} {s : RunState} {step : Step} {stage : Stage RunState}
    (h : c.Begins scope rest s step stage) : s.PlacesFrom snapshot stage.state := by
  cases h with
  | @place x y z blockType p =>
    have hsnap : s.snapshot c = snapshot := by rw [RunState.snapshot, hc, Option.getD_some]
    refine ⟨[_], by rw [state, RunState.output_place, Array.toList_push], ?_⟩
    refine List.forall_mem_singleton.mpr ?_
    rw [hsnap]
    exact Catalog.Snapshot.resolve_mem hs _
  | _ => exact .of_output_eq rfl

/-- A transition places a block of the snapshot that was captured, or none. -/
theorem Moves.placesFrom (hc : c.captured = some snapshot) (hs : snapshot.ids ≠ [])
    {agenda : Agenda} {s : RunState} {stage : Stage RunState} (h : c.Moves agenda s stage) :
    s.PlacesFrom snapshot stage.state := by
  cases h with
  | step _ _ hb => exact hb.placesFrom hc hs
  | _ => exact .of_output_eq rfl

end RunContext

/-- **An execution places blocks of the snapshot that was captured**, however it ends. -/
theorem execute_placesFrom {c : RunContext} {snapshot : Catalog.Snapshot}
    (hc : c.captured = some snapshot) (hs : snapshot.ids ≠ []) (room : Nat) (steps : List Step)
    (scope : Scope) (s : RunState) :
    s.PlacesFrom snapshot (ofResult [] (execute c room steps scope s)).state := by
  have hc : (c.withRoom room).captured = some snapshot := hc
  refine execute_preserves c room steps scope s (P := fun a => s.PlacesFrom snapshot a.state)
    ?_ ?_ ?_
  · intro a ha
    cases a with
    | error r s' => exact ha
    | ok agenda s' =>
      have hm := (c.withRoom room).moves_transition agenda s'
      exact ha.trans (hm.placesFrom hc hs)
  · show s.PlacesFrom snapshot (state ((c.withRoom room).openSteps scope steps [] s))
    rw [RunContext.openSteps_apply]
    split <;> exact .of_output_eq rfl
  · rintro _ _ (⟨t, n⟩ | ⟨r, r', t, n⟩) h <;> exact h

end VoxelBlueprint
