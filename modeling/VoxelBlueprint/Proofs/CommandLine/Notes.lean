/-
# Commands have nothing to note

Behind the events of a command stands a note if blocks were cut off. Since every blueprint is
assembled whole this is never so. It is said as a law of jobs that is kept by the parts of a job:
no note is added, and of what a job comes to something holds that the rest of it can rely on.

Key definitions: `CommandLine.Job.Unnoted`, `CommandLine.Job.console`.
Key theorems: `CommandLine.Job.Unnoted.bind`, `CommandLine.unnoted_expandOrQuit`,
`CommandLine.unnoted_execute`, `CommandLine.diagnostics_outcome`.
-/
import VoxelBlueprint.Proofs.CommandLine.Outcomes
import VoxelBlueprint.Proofs.Expansion.Untruncated

namespace VoxelBlueprint
namespace CommandLine

open Effects

/-- Whether a job adds no note, however it ends, and comes to a value of which something holds if
it comes to one. -/
def Job.Unnoted {α : Type} (job : Job α) (Q : α → Prop) : Prop :=
  ∀ c, match job c with
    | .ok a c' => c'.notes = c.notes ∧ Q a
    | .error _ c' => c'.notes = c.notes

/-- The console that a job leaves. -/
def Job.console (job : Job Unit) : Console :=
  match job {} with
  | .ok _ c => c
  | .error _ c => c

/-! ### Jobs in a row -/

namespace Job.Unnoted

variable {α β : Type} {P : α → Prop} {Q : β → Prop}

theorem pure {a : α} (h : P a) : Unnoted (Pure.pure a) P :=
  fun _ => ⟨rfl, h⟩

theorem throw (ending : Ending) : Unnoted (MonadExcept.throw ending : Job α) P :=
  fun _ => rfl

theorem bind {job : Job α} {rest : α → Job β} (hjob : job.Unnoted P)
    (hrest : ∀ a, P a → (rest a).Unnoted Q) : (job >>= rest).Unnoted Q := by
  intro c
  have hjob := hjob c
  rw [bind_apply]
  cases hr : job c with
  | error ending c' => rw [hr] at hjob; exact hjob
  | ok a c' =>
    rw [hr] at hjob
    have hrest := hrest a hjob.2 c'
    rw [hjob.1] at hrest
    exact hrest

theorem get_bind {rest : Console → Job β} (hrest : ∀ c, (rest c).Unnoted Q) :
    (get >>= rest).Unnoted Q :=
  fun c => hrest c c

/-- A change to the console that is none to the notes. -/
theorem modify {f : Console → Console} (hf : ∀ c, (f c).notes = c.notes) :
    Unnoted (modify f : Job PUnit) fun _ => True :=
  fun c => ⟨hf c, trivial⟩

theorem forM {job : α → Job Unit} (hjob : ∀ a, (job a).Unnoted fun _ => True) :
    ∀ items : List α, (items.forM job).Unnoted fun _ => True
  | [] => .pure trivial
  | a :: items => (hjob a).bind fun _ _ => forM hjob items

end Job.Unnoted

open Job

/-! ### Parts of commands -/

theorem unnoted_print (line : String) : (print line).Unnoted fun _ => True :=
  .modify fun _ => rfl

theorem unnoted_printList (heading : String) (items : List String) :
    (printList heading items).Unnoted fun _ => True := by
  unfold printList
  split
  · exact .pure trivial
  · exact .modify fun _ => rfl

theorem unnoted_quit {α : Type} {Q : α → Prop} (message : String) (status : Nat) :
    (quit message status : Job α).Unnoted Q :=
  (unnoted_print message).bind fun _ _ => .throw _

theorem unnoted_orFail {α : Type} (x : Except Failure α) : (orFail x).Unnoted fun _ => True := by
  cases x with
  | ok a => exact .pure trivial
  | error failure => exact .throw _

theorem unnoted_readListing (read : FileReader) (file : String) :
    (readListing read file).Unnoted fun _ => True := by
  unfold readListing
  split
  · exact .pure trivial
  · exact unnoted_quit _ _
  · exact .throw _

theorem unnoted_install (listing : Catalog.Listing) : (install listing).Unnoted fun _ => True := by
  refine .get_bind fun c => ?_
  dsimp only
  split
  · exact .pure trivial
  · exact .throw _
  · exact .bind (.modify fun _ => rfl) fun _ _ => .pure trivial

theorem unnoted_readResponse (read : FileReader) (file : String) :
    (readResponse read file).Unnoted fun _ => True := by
  unfold readResponse
  split
  · exact .pure trivial
  · exact unnoted_quit _ _
  · exact .throw _

/-- The blueprint of a text is whole. -/
theorem unnoted_expandOrQuit (limits : Limits) (text : List Char) :
    (expandOrQuit limits text).Unnoted fun b => b.truncatedFrom = none := by
  refine .get_bind fun c => ?_
  cases ht : expandText limits text c.ledger with
  | ok b ledger =>
    exact .bind (.modify fun _ => rfl) fun _ _ => .pure (dispatch_of_expandText ht).1
  | error rejection ledger =>
    refine .bind (.modify fun _ => rfl) fun _ _ => ?_
    cases rejection <;> exact unnoted_quit _ _

theorem unnoted_printBlueprint (b : Blueprint) (chunkSize : Option Int) :
    (printBlueprint b chunkSize).Unnoted fun _ => True := by
  unfold printBlueprint
  split
  · exact unnoted_print _
  · exact unnoted_print _
  · exact (unnoted_orFail _).bind fun chunks _ => .forM (fun _ => unnoted_print _) chunks

/-- Nothing is noted of a blueprint that is whole. -/
theorem unnoted_noteTruncation {b : Blueprint} (h : b.truncatedFrom = none) :
    (noteTruncation b).Unnoted fun _ => True := by
  unfold noteTruncation
  rw [h]
  exact .pure trivial

theorem unnoted_printFindings (program : Program) :
    (printFindings program).Unnoted fun _ => True := by
  unfold printFindings
  refine (unnoted_print _).bind fun _ _ => (unnoted_print _).bind fun _ _ => ?_
  refine (unnoted_printList _ _).bind fun _ _ => (unnoted_printList _ _).bind fun _ _ => ?_
  split
  · exact (unnoted_print _).bind fun _ _ => unnoted_print _
  · exact .throw _

/-! ### Commands -/

theorem unnoted_validateFile (read : FileReader) (file : String) :
    (validateFile read file).Unnoted fun _ => True := by
  refine (unnoted_readResponse read file).bind fun text _ => ?_
  split
  · exact unnoted_quit _ _
  · split
    · exact unnoted_quit _ _
    · exact unnoted_quit _ _
    · exact unnoted_print _
    · exact unnoted_printFindings _

theorem unnoted_summarizeCatalog (read : FileReader) (file : String) :
    (summarizeCatalog read file).Unnoted fun _ => True := by
  refine (unnoted_readListing read file).bind fun listing _ => ?_
  refine (unnoted_install listing).bind fun fault _ => ?_
  have hlines : ∀ c : Console, _ := fun c =>
    (unnoted_print s!"Version: {c.ledger.store.current.version}").bind fun _ _ =>
      (unnoted_print s!"Source: {c.ledger.store.current.source}").bind fun _ _ =>
        (unnoted_print s!"Block types: {c.ledger.store.current.ids.length}").bind fun _ _ =>
          unnoted_print s!"Fallback: {c.ledger.store.current.fallback}"
  split
  · exact .bind (P := fun _ => True) (unnoted_quit _ _) fun _ _ => .get_bind hlines
  · exact .get_bind hlines

theorem unnoted_expandHere (env : Environment) (read : FileReader) (file : String)
    (maxBlocks chunkSize : Option Int) :
    (expandHere env read file maxBlocks chunkSize).Unnoted fun _ => True := by
  refine (unnoted_orFail _).bind fun usual _ => ?_
  refine (unnoted_readResponse read file).bind fun text _ => ?_
  refine (unnoted_expandOrQuit _ text).bind fun b hb => ?_
  exact (unnoted_printBlueprint b chunkSize).bind fun _ _ => unnoted_noteTruncation hb

theorem unnoted_expandFile (env : Environment) (read : FileReader) (file : String)
    (catalog : Option String) (maxBlocks chunkSize : Option Int) :
    (expandFile env read file catalog maxBlocks chunkSize).Unnoted fun _ => True := by
  have hhere := unnoted_expandHere env read file maxBlocks chunkSize
  unfold expandFile
  split
  · exact hhere
  · exact hhere
  · refine (unnoted_readListing read _).bind fun listing _ => ?_
    refine (unnoted_install listing).bind fun fault _ => ?_
    split
    · exact .bind (P := fun _ => True) (.throw _) fun _ _ => hhere
    · exact hhere

/-- **No command notes that blocks were cut off.** -/
theorem unnoted_execute (env : Environment) (read : FileReader) (command : Command) :
    (command.execute env read).Unnoted fun _ => True := by
  cases command with
  | expand file catalog maxBlocks chunkSize => exact unnoted_expandFile _ _ _ _ _ _
  | validate file => exact unnoted_validateFile _ _
  | catalog file => exact unnoted_summarizeCatalog _ _
  | serve host portNumber => exact unnoted_quit _ _

theorem notes_console (env : Environment) (read : FileReader) (command : Command) :
    (command.execute env read).console.notes = [] := by
  have h := unnoted_execute env read command {}
  unfold Job.console
  cases hr : command.execute env read {} with
  | ok _ c => rw [hr] at h; exact h.1
  | error ending c => rw [hr] at h; exact h

/-- What a command leaves behind its output are its events. -/
theorem diagnostics_outcome (env : Environment) (read : FileReader) (command : Command)
    (verbose : Bool) :
    ((command.execute env read).outcome verbose).diagnostics =
      textOfLines (((command.execute env read).console.ledger.journal.filter
        (isShown verbose)).map eventLine) := by
  have h := notes_console env read command
  unfold Job.outcome
  unfold Job.console at h ⊢
  cases hr : command.execute env read {} with
  | ok _ c =>
    rw [hr] at h
    simp only [show c.notes = [] from h, List.append_nil]
  | error ending c =>
    rw [hr] at h
    simp only [show c.notes = [] from h, List.append_nil]

end CommandLine
end VoxelBlueprint
