/-
# Histories of a catalog

What may happen to a ledger from its start: its catalog is replaced, or the replacement is
refused, it goes back to the palette, types are resolved against any snapshot, and documents
and programs are expanded. Every snapshot that is current at some time is sound, and only a
replacement or the way back to the palette makes another one current.

Key definitions: `Ledger.Operation`, `Ledger.perform`, `Ledger.after`.
Key theorems: `Ledger.replaceCatalog_apply`, `Ledger.replaceCatalog_eq_ok`,
`Ledger.replaceCatalog_eq_error`, `Ledger.perform_of_refused`, `Ledger.sound_perform`,
`Ledger.sound_after`.
-/
import VoxelBlueprint.Proofs.Expansion.Blocks

namespace VoxelBlueprint

/-- The ledger that work on a ledger leaves, however it ends. -/
def Expansion.ledgerAfter {α : Type} (x : Expansion α) (ledger : Ledger) : Ledger :=
  match x ledger with
  | .ok _ l => l
  | .error _ l => l

theorem Expansion.Ensures.current_ledgerAfter {α : Type} {x : Expansion α}
    {Q : Catalog.Snapshot → α → Prop} (h : x.Ensures Q) (ledger : Ledger) :
    (x.ledgerAfter ledger).store.current = ledger.store.current := by
  have hx := h ledger
  unfold ledgerAfter
  cases hr : x ledger with
  | ok a l => rw [hr] at hx; exact hx.1
  | error r l => rw [hr] at hx; exact hx

namespace Ledger

/-- What may be done to a ledger. -/
inductive Operation where
  /-- Replaces the catalog, if all values can be written and one of them is usable. -/
  | replace (values : List Json) (version source : Option String)
  | reset
  /-- Asks for the block of a type, of any snapshot. -/
  | resolve (snapshot : Catalog.Snapshot) (scope : Scope) (value : Json)
  | expand (limits : Limits) (document : Json)
  /-- Expands a program by itself. -/
  | build (limits : Limits) (program : Program)

/-- The ledger after an operation, whether that was refused or rejected or not. -/
def perform (ledger : Ledger) : Operation → Ledger
  | .replace values version source =>
    match ledger.replaceCatalog values version source with
    | .ok ledger => ledger
    | .error _ => ledger
  | .reset => ledger.resetCatalog
  | .resolve snapshot scope value => (ledger.blockFor snapshot scope value).2
  | .expand limits document => (expandDocument limits document).ledgerAfter ledger
  | .build limits program => (program.expand limits).ledgerAfter ledger

/-- The ledger after operations from the start. -/
def after (operations : List Operation) : Ledger :=
  operations.foldl perform {}

/-! ### Replacements -/

section Replacements

variable {values : List Json} (ledger : Ledger) (version source : Option String)

/-- The ledger with a new catalog of these ids, which has a number of its own and is recorded. -/
def renewed (ids : List String) : Ledger :=
  let store :=
    { ledger.store with
      current :=
        { ids
          version := Catalog.labelOr version "unknown"
          source := Catalog.labelOr source "runtime"
          generation := ledger.store.next }
      next := ledger.store.next + 1 }
  { ledger with store }.record store.loadedEvent

/-- A catalog of values that can all be written is refused just when none of them is usable. -/
theorem replaceCatalog_apply (h : ∀ value ∈ values, value.HasText) :
    ledger.replaceCatalog values version source =
      if Catalog.usableIds values = [] then .error (.catalog .empty)
      else .ok (ledger.renewed version source (Catalog.usableIds values)) := by
  unfold replaceCatalog Catalog.Store.replace
  rw [Catalog.Snapshot.build_of_hasText h]
  cases Catalog.usableIds values <;> rfl

/-- A value that cannot be written fails the replacement. -/
theorem replaceCatalog_of_not_hasText (h : ¬ ∀ value ∈ values, value.HasText) :
    ledger.replaceCatalog values version source = .error .longInteger := by
  unfold replaceCatalog Catalog.Store.replace
  rw [Catalog.Snapshot.build_of_not_hasText h]
  rfl

/-- Of values that can all be written a sound catalog is made, or it is refused since none of them
is usable. -/
theorem replaceCatalog_of_hasText (h : ∀ value ∈ values, value.HasText) :
    (Catalog.usableIds values = [] ∧
      ledger.replaceCatalog values version source = .error (.catalog .empty)) ∨
    (Catalog.usableIds values ≠ [] ∧ ∃ l,
      ledger.replaceCatalog values version source = .ok l ∧ l.store.current.Sound ∧
        l.store.current.ids = Catalog.usableIds values) := by
  rw [replaceCatalog_apply ledger version source h]
  by_cases hu : Catalog.usableIds values = []
  · rw [if_pos hu]
    exact .inl ⟨hu, rfl⟩
  · rw [if_neg hu]
    exact .inr ⟨hu, _, rfl, Catalog.Snapshot.sound_of_usableIds rfl hu, rfl⟩

variable {ledger version source}

/-- A catalog takes the place of another one only if all values can be written and one of them is
usable. -/
theorem replaceCatalog_eq_ok {l : Ledger}
    (h : ledger.replaceCatalog values version source = .ok l) :
    (∀ value ∈ values, value.HasText) ∧ Catalog.usableIds values ≠ [] ∧
      l = ledger.renewed version source (Catalog.usableIds values) := by
  by_cases ht : ∀ value ∈ values, value.HasText
  · rw [replaceCatalog_apply ledger version source ht] at h
    split at h
    · cases h
    · rename_i hu
      exact ⟨ht, hu, (Except.ok.inj h).symm⟩
  · rw [replaceCatalog_of_not_hasText ledger version source ht] at h
    cases h

/-- A replacement fails only if a value cannot be written, or if none is usable. -/
theorem replaceCatalog_eq_error {failure : Failure}
    (h : ledger.replaceCatalog values version source = .error failure) :
    (failure = .catalog .empty ∧ Catalog.usableIds values = []) ∨
      (failure = .longInteger ∧ ¬ ∀ value ∈ values, value.HasText) := by
  by_cases ht : ∀ value ∈ values, value.HasText
  · rw [replaceCatalog_apply ledger version source ht] at h
    split at h
    · rename_i hu
      exact .inl ⟨(Except.error.inj h).symm, hu⟩
    · cases h
  · rw [replaceCatalog_of_not_hasText ledger version source ht] at h
    exact .inr ⟨(Except.error.inj h).symm, ht⟩

/-- A replacement that fails leaves everything as it is. -/
theorem perform_of_refused {failure : Failure}
    (h : ledger.replaceCatalog values version source = .error failure) :
    ledger.perform (.replace values version source) = ledger := by
  rw [perform, h]

end Replacements

/-! ### Snapshots -/

/-- An operation leaves the current snapshot as it is, or makes a sound one current. -/
theorem sound_perform {ledger : Ledger} (h : ledger.store.current.Sound) (operation : Operation) :
    (ledger.perform operation).store.current.Sound := by
  cases operation with
  | replace values version source =>
    cases hr : ledger.replaceCatalog values version source with
    | error failure =>
      rw [perform_of_refused hr]
      exact h
    | ok l =>
      obtain ⟨-, hu, rfl⟩ := replaceCatalog_eq_ok hr
      rw [perform, hr]
      exact Catalog.Snapshot.sound_of_usableIds rfl hu
  | reset => exact Catalog.Snapshot.sound_ofPalette _
  | resolve snapshot scope value =>
    have hc : (ledger.perform (.resolve snapshot scope value)).store.current =
        ledger.store.current := RunState.current_report _ _ _
    rw [hc]
    exact h
  | expand limits document =>
    rw [perform, (ensures_expandDocument limits document).current_ledgerAfter]
    exact h
  | build limits program =>
    rw [perform, (ensures_expand limits program).current_ledgerAfter]
    exact h

/-- **Every snapshot that is current at some time is sound.** -/
theorem sound_after (operations : List Operation) : (after operations).store.current.Sound := by
  unfold after
  suffices ∀ ledger : Ledger, ledger.store.current.Sound →
      (operations.foldl perform ledger).store.current.Sound from
    this {} (Catalog.Snapshot.sound_ofPalette 0)
  induction operations with
  | nil => exact fun _ h => h
  | cons operation operations ih => exact fun ledger h => ih _ (sound_perform h operation)

end Ledger
end VoxelBlueprint
