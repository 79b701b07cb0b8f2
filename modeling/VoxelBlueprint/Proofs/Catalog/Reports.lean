/-
# Reports of what a snapshot lacks

To ask a snapshot for a block is to have its lack reported, unless the snapshot has the block or
the lack was reported before. So what is new among the reports after any number of asks are the
ids that were asked for, are not in the snapshot and were not reported yet, each of them once; and
for each of them, in this order, there is one event. Reports of other snapshots stay as they are.

Key definitions: `Event.lacking?`, `Ledger.Adds`, `Ledger.Reports`.
Key theorems: `Ledger.Adds.reportedIn`, `Ledger.Reports.blockFor`, `Ledger.Reports.trans`.
-/
import Mathlib.Data.List.Nodup
import Mathlib.Tactic.Tauto
import VoxelBlueprint.Proofs.Catalog.Demands

namespace VoxelBlueprint

/-- The id that an event reports as lacking in a catalog, if it does so. -/
def Event.lacking? : Event → Option String
  | .blockReplaced id _ _ _ => some id
  | _ => none

namespace Ledger

variable {snapshot other : Catalog.Snapshot} {l l' l'' : Ledger} {new new' : List String}
  {asked asked' : String → Prop}

/-! ### New reports -/

/-- Whether a ledger has new reports of a snapshot, in this order, and nothing else that is new but
other events. -/
structure Adds (snapshot : Catalog.Snapshot) (new : List String) (l l' : Ledger) : Prop where
  current : l'.store.current = l.store.current
  next : l'.store.next = l.store.next
  reported : l'.store.reported = new.reverse.map (snapshot.generation, ·) ++ l.store.reported
  journal : ∃ events, l'.journal = l.journal ++ events ∧ events.filterMap Event.lacking? = new

namespace Adds

theorem refl (snapshot : Catalog.Snapshot) (l : Ledger) : Adds snapshot [] l l where
  current := rfl
  next := rfl
  reported := rfl
  journal := ⟨[], (List.append_nil _).symm, rfl⟩

theorem trans (h : Adds snapshot new l l') (h' : Adds snapshot new' l' l'') :
    Adds snapshot (new ++ new') l l'' where
  current := h'.current.trans h.current
  next := h'.next.trans h.next
  reported := by
    rw [h'.reported, h.reported, List.reverse_append, List.map_append, List.append_assoc]
  journal := by
    obtain ⟨events, hj, he⟩ := h.journal
    obtain ⟨events', hj', he'⟩ := h'.journal
    refine ⟨events ++ events', ?_, ?_⟩
    · rw [hj', hj, List.append_assoc]
    · rw [List.filterMap_append, he, he']

/-- The new reports come before the ones that there were. -/
theorem reportedIn (h : Adds snapshot new l l') :
    l'.store.reportedIn snapshot = new.reverse ++ l.store.reportedIn snapshot := by
  unfold Catalog.Store.reportedIn
  rw [h.reported, List.filter_append, List.map_append]
  congr 1
  simp [List.filter_map, Function.comp_def]

/-- The reports of other snapshots stay as they are. -/
theorem reportedIn_other (h : Adds snapshot new l l')
    (ho : other.generation ≠ snapshot.generation) :
    l'.store.reportedIn other = l.store.reportedIn other := by
  unfold Catalog.Store.reportedIn
  rw [h.reported, List.filter_append, List.map_append]
  simp [List.filter_map, Function.comp_def, ho.symm]

/-- The ids that the new events report are those of the new reports. -/
theorem lacking (h : Adds snapshot new l l') :
    (l'.journal.drop l.journal.length).filterMap Event.lacking? = new := by
  obtain ⟨events, hj, he⟩ := h.journal
  rw [hj, List.drop_left, he]

end Adds

/-! ### Asks -/

/-- Whether a ledger has come from another one by asks of a snapshot for some ids: it has reports
of those that the snapshot lacks and that were not reported before, each of them once. -/
def Reports (snapshot : Catalog.Snapshot) (asked : String → Prop) (l l' : Ledger) : Prop :=
  ∃ new, Adds snapshot new l l' ∧ new.Nodup ∧
    ∀ id, id ∈ new ↔ asked id ∧ id ∉ snapshot.ids ∧ id ∉ l.store.reportedIn snapshot

namespace Reports

theorem congr (h : Reports snapshot asked l l') (hasked : ∀ id, asked id ↔ asked' id) :
    Reports snapshot asked' l l' := by
  obtain ⟨new, ha, hn, hm⟩ := h
  exact ⟨new, ha, hn, fun id => by rw [hm, hasked]⟩

theorem current (h : Reports snapshot asked l l') : l'.store.current = l.store.current :=
  h.choose_spec.1.current

theorem next (h : Reports snapshot asked l l') : l'.store.next = l.store.next :=
  h.choose_spec.1.next

/-- The reports of a snapshot are entered under its number. -/
theorem mem_reported (h : Reports snapshot asked l l') {entry : Nat × String}
    (he : entry ∈ l'.store.reported) :
    entry.1 = snapshot.generation ∨ entry ∈ l.store.reported := by
  obtain ⟨new, ha, -, -⟩ := h
  rw [ha.reported, List.mem_append, List.mem_map] at he
  rcases he with ⟨id, -, rfl⟩ | he
  · exact .inl rfl
  · exact .inr he

/-- What leaves the ledger as it is asks for nothing. -/
theorem refl (snapshot : Catalog.Snapshot) (l : Ledger) :
    Reports snapshot (fun _ => False) l l :=
  ⟨[], .refl snapshot l, List.nodup_nil, fun _ => by simp⟩

/-- To record an event that reports nothing asks for nothing. -/
theorem record (snapshot : Catalog.Snapshot) (l : Ledger) (event : Event)
    (h : event.lacking? = none) : Reports snapshot (fun _ => False) l (l.record event) := by
  refine ⟨[], ⟨rfl, rfl, rfl, [event], rfl, ?_⟩, List.nodup_nil, fun _ => by simp⟩
  rw [List.filterMap_cons_none h, List.filterMap_nil]

/-- Whether an id was reported as lacking in a snapshot is looked up by the snapshot's number. -/
theorem contains_reported (id : String) :
    l.store.reported.contains (snapshot.generation, id) = true ↔
      id ∈ l.store.reportedIn snapshot := by
  unfold Catalog.Store.reportedIn
  simp

/-- A value that is resolved asks for one id. -/
theorem blockFor (snapshot : Catalog.Snapshot) (scope : Scope) (value : Json) (l : Ledger) :
    Reports snapshot (· = Catalog.requestedId scope value) l
      (l.blockFor snapshot scope value).2 := by
  unfold Ledger.blockFor
  generalize Catalog.requestedId scope value = id
  by_cases h : id ∈ snapshot.ids ∨ id ∈ l.store.reportedIn snapshot
  · have hr : l.store.report snapshot id = (l.store, []) := by
      unfold Catalog.Store.report
      rw [if_pos]
      rwa [Bool.or_eq_true, Catalog.Snapshot.supports_iff, contains_reported]
    simp only [hr, List.append_nil]
    refine ⟨[], .refl snapshot l, List.nodup_nil, fun id' => ?_⟩
    simp only [List.not_mem_nil, false_iff]
    rintro ⟨rfl, hs, hl⟩
    exact h.elim hs hl
  · obtain ⟨hs, hl⟩ := not_or.mp h
    have hr : l.store.report snapshot id =
        ({ l.store with reported := (snapshot.generation, id) :: l.store.reported },
          [.blockReplaced id snapshot.source snapshot.version snapshot.fallback]) := by
      unfold Catalog.Store.report
      rw [if_neg]
      rwa [Bool.or_eq_true, Catalog.Snapshot.supports_iff, contains_reported]
    simp only [hr]
    refine ⟨[id], ⟨rfl, rfl, rfl, _, rfl, rfl⟩, List.nodup_singleton id, fun id' => ?_⟩
    rw [List.mem_singleton]
    constructor
    · rintro rfl
      exact ⟨rfl, hs, hl⟩
    · exact fun h => h.1

/-- What two pieces of work one after the other ask for is what either of them asks for. -/
theorem trans (h : Reports snapshot asked l l') (h' : Reports snapshot asked' l' l'') :
    Reports snapshot (fun id => asked id ∨ asked' id) l l'' := by
  obtain ⟨new, ha, hn, hm⟩ := h
  obtain ⟨new', ha', hn', hm'⟩ := h'
  have hmem : ∀ id, id ∈ new' ↔
      asked' id ∧ id ∉ snapshot.ids ∧ id ∉ new ∧ id ∉ l.store.reportedIn snapshot := by
    intro id
    rw [hm', ha.reportedIn, List.mem_append, List.mem_reverse, not_or]
  refine ⟨new ++ new', ha.trans ha', ?_, fun id => ?_⟩
  · -- the second piece of work finds reported what the first one has reported
    refine List.nodup_append.mpr ⟨hn, hn', ?_⟩
    rintro id hid _ hid' rfl
    exact ((hmem id).mp hid').2.2.1 hid
  · rw [List.mem_append, hmem, hm]
    tauto

end Reports
end Ledger
end VoxelBlueprint
