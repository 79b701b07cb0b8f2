/-
# Every lack is reported once

A ledger remembers for every snapshot which ids were reported as lacking in it. Snapshots differ in
their numbers, so whoever asks an older one finds what was reported of that one, and a new one has
no reports, even if it has the same ids. Over any history, with requests of older snapshots and
expansions that are rejected on the way, what is reported of a snapshot are the ids that it lacks
and was asked for; and each of them is reported once.

Key definitions: `Ledger.Held`, `Ledger.Asked`, `Ledger.lacks`, `Ledger.Kept`, `Ledger.Numbered`,
`Ledger.Memo`.
Key theorems: `Ledger.perform_cases`, `Ledger.numbered`, `Ledger.memo`,
`Ledger.lacks_reported_once`.
-/
import Mathlib.Data.List.Induction
import VoxelBlueprint.Proofs.Expansion.Reports

namespace VoxelBlueprint
namespace Ledger

/-! ### Operations -/

/-- The snapshot of which an operation asks for blocks, if there is one. -/
def Operation.target (ledger : Ledger) : Operation → Option Catalog.Snapshot
  | .replace _ _ _ | .reset => none
  | .resolve snapshot _ _ => some snapshot
  | .expand _ _ | .build _ _ => some ledger.store.current

/-- Whether an operation asks its snapshot for an id. -/
def Operation.Asks (ledger : Ledger) : Operation → String → Prop
  | .replace _ _ _, _ | .reset, _ => False
  | .resolve _ scope value, id => id = Catalog.requestedId scope value
  | .expand limits document, id => DocumentAsks limits document ledger id
  | .build limits program, id => program.Asks limits ledger id

/-- The ids that an operation reports as lacking, in order. -/
def Operation.lacks (ledger : Ledger) (operation : Operation) : List String :=
  ((ledger.perform operation).journal.drop ledger.journal.length).filterMap Event.lacking?

/-- A snapshot that becomes current under the next number leaves the reports as they are. -/
theorem takes_number {store store' : Catalog.Store} (snapshot : Catalog.Snapshot)
    (hg : snapshot.generation = store.next)
    (hs : store' = { store with current := snapshot, next := store.next + 1 }) :
    store'.current.generation = store.next ∧ store'.next = store.next + 1 ∧
      store'.reported = store.reported := by
  subst hs
  exact ⟨hg, rfl, rfl⟩

/-- A catalog that is not refused, and the way back to the palette, take the next number and report
nothing. -/
theorem new_number {ledger l : Ledger} (h : l = ledger.resetCatalog ∨
      ∃ values version source, ledger.replaceCatalog values version source = .ok l) :
    l.store.current.generation = ledger.store.next ∧ l.store.next = ledger.store.next + 1 ∧
      l.store.reported = ledger.store.reported := by
  rcases h with rfl | ⟨values, version, source, h⟩
  · exact takes_number (.ofPalette ledger.store.next) rfl rfl
  · obtain ⟨-, -, rfl⟩ := replaceCatalog_eq_ok h
    exact takes_number _ rfl rfl

/-- An operation asks its snapshot and reports what this lacks, or it asks for nothing and reports
nothing, and changes nothing or takes the next number. -/
theorem perform_cases (ledger : Ledger) (operation : Operation) :
    (∃ snapshot, operation.target ledger = some snapshot ∧
      Reports snapshot (operation.Asks ledger) ledger (ledger.perform operation)) ∨
    (operation.target ledger = none ∧
      (ledger.perform operation).store.reported = ledger.store.reported ∧
      (ledger.perform operation = ledger ∨
        (ledger.perform operation).store.current.generation = ledger.store.next ∧
        (ledger.perform operation).store.next = ledger.store.next + 1)) := by
  cases operation with
  | replace values version source =>
    refine .inr ⟨rfl, ?_⟩
    rw [perform]
    cases h : ledger.replaceCatalog values version source with
    | error failure => exact ⟨rfl, .inl rfl⟩
    | ok l =>
      obtain ⟨hg, hn, hr⟩ := new_number (.inr ⟨values, version, source, h⟩)
      exact ⟨hr, .inr ⟨hg, hn⟩⟩
  | reset =>
    obtain ⟨hg, hn, hr⟩ := ledger.new_number (.inl rfl)
    exact .inr ⟨rfl, hr, .inr ⟨hg, hn⟩⟩
  | resolve snapshot scope value =>
    exact .inl ⟨snapshot, rfl, .blockFor snapshot scope value ledger⟩
  | expand limits document =>
    exact .inl ⟨ledger.store.current, rfl, reports_expandDocument limits document ledger⟩
  | build limits program =>
    exact .inl ⟨ledger.store.current, rfl, reports_expand limits program ledger⟩

/-! ### Histories -/

section Histories

variable (start : Ledger) (operations : List Operation) (snapshot : Catalog.Snapshot)

/-- The ledger after operations. -/
def performAll : Ledger :=
  operations.foldl perform start

/-- Whether a snapshot was current at some time. -/
def Held : Prop :=
  ∃ earlier, earlier <+: operations ∧ (start.performAll earlier).store.current = snapshot

/-- Whether every snapshot that was asked directly had been current before. -/
def Kept : Prop :=
  ∀ earlier asked scope value, earlier ++ [.resolve asked scope value] <+: operations →
    start.Held earlier asked

/-- Whether a snapshot was asked for an id. -/
def Asked (id : String) : Prop :=
  ∃ earlier operation, earlier ++ [operation] <+: operations ∧
    operation.target (start.performAll earlier) = some snapshot ∧
    operation.Asks (start.performAll earlier) id

/-- The ids that were reported as lacking in a snapshot by operations that asked it, in order. -/
def lacks (snapshot : Catalog.Snapshot) (start : Ledger) : List Operation → List String
  | [] => []
  | operation :: operations =>
    (if operation.target start = some snapshot then operation.lacks start else []) ++
      lacks snapshot (start.perform operation) operations

/-- Whether a ledger has just been made, and nothing was reported yet. -/
structure IsNew : Prop where
  reported : start.store.reported = []
  number : start.store.current.generation < start.store.next

end Histories

section Steps

variable {start : Ledger} {operations : List Operation} {operation : Operation}
  {snapshot : Catalog.Snapshot}

theorem performAll_concat : start.performAll (operations ++ [operation]) =
    (start.performAll operations).perform operation := by
  unfold performAll
  rw [List.foldl_append, List.foldl_cons, List.foldl_nil]

theorem lacks_concat : ∀ {start : Ledger} {operations : List Operation},
    start.lacks snapshot (operations ++ [operation]) =
      start.lacks snapshot operations ++
        if operation.target (start.performAll operations) = some snapshot
        then operation.lacks (start.performAll operations) else []
  | start, [] => List.append_nil _
  | start, first :: operations => by
    rw [List.cons_append, lacks, lacks, lacks_concat, List.append_assoc]
    rfl

theorem held_concat : start.Held (operations ++ [operation]) snapshot ↔
    start.Held operations snapshot ∨
      ((start.performAll operations).perform operation).store.current = snapshot := by
  constructor
  · rintro ⟨earlier, he, hc⟩
    rcases List.prefix_concat_iff.mp he with rfl | he
    · exact .inr (performAll_concat ▸ hc)
    · exact .inl ⟨earlier, he, hc⟩
  · rintro (⟨earlier, he, hc⟩ | hc)
    · exact ⟨earlier, he.trans (List.prefix_append _ _), hc⟩
    · exact ⟨_, List.prefix_rfl, performAll_concat ▸ hc⟩

/-- The current snapshot is one that was current at some time. -/
theorem held_current : start.Held operations (start.performAll operations).store.current :=
  ⟨operations, List.prefix_rfl, rfl⟩

theorem asked_concat {id : String} : start.Asked (operations ++ [operation]) snapshot id ↔
    start.Asked operations snapshot id ∨
      operation.target (start.performAll operations) = some snapshot ∧
        operation.Asks (start.performAll operations) id := by
  constructor
  · rintro ⟨earlier, last, he, ht, ha⟩
    rcases List.prefix_concat_iff.mp he with he | he
    · obtain ⟨rfl, hlast⟩ := List.append_inj' he rfl
      cases hlast
      exact .inr ⟨ht, ha⟩
    · exact .inl ⟨earlier, last, he, ht, ha⟩
  · rintro (⟨earlier, last, he, ht, ha⟩ | ⟨ht, ha⟩)
    · exact ⟨earlier, last, he.trans (List.prefix_append _ _), ht, ha⟩
    · exact ⟨operations, operation, List.prefix_rfl, ht, ha⟩

theorem kept_concat : start.Kept (operations ++ [operation]) ↔
    start.Kept operations ∧
      ∀ asked, operation.target (start.performAll operations) = some asked →
        start.Held operations asked := by
  constructor
  · intro h
    refine ⟨fun earlier asked scope value he =>
      h earlier asked scope value (he.trans (List.prefix_append _ _)), fun asked ht => ?_⟩
    cases operation with
    | replace | reset => cases ht
    | resolve snapshot scope value =>
      cases ht
      exact h operations asked scope value List.prefix_rfl
    | expand | build =>
      cases ht
      exact held_current
  · rintro ⟨h, ht⟩ earlier asked scope value he
    rcases List.prefix_concat_iff.mp he with he | he
    · obtain ⟨rfl, hlast⟩ := List.append_inj' he rfl
      cases hlast
      exact ht asked rfl
    · exact h earlier asked scope value he

end Steps

/-! ### Numbers -/

/-- Whether no two snapshots that were current have the same number, and all numbers so far are
below the next one. -/
structure Numbered (start : Ledger) (operations : List Operation) : Prop where
  below (snapshot : Catalog.Snapshot) : start.Held operations snapshot →
    snapshot.generation < (start.performAll operations).store.next
  distinct (snapshot other : Catalog.Snapshot) : start.Held operations snapshot →
    start.Held operations other → snapshot.generation = other.generation → snapshot = other
  reported (entry : Nat × String) : entry ∈ (start.performAll operations).store.reported →
    entry.1 < (start.performAll operations).store.next

section Numbers

variable {start : Ledger} {operations : List Operation} {operation : Operation}

theorem numbered_nil (hnew : start.IsNew) : start.Numbered [] where
  below := by
    rintro snapshot ⟨earlier, he, rfl⟩
    cases List.prefix_nil.mp he
    exact hnew.number
  distinct := by
    rintro snapshot other ⟨earlier, he, rfl⟩ ⟨earlier', he', rfl⟩ -
    cases List.prefix_nil.mp he
    cases List.prefix_nil.mp he'
    rfl
  reported entry h := by
    have hr : (start.performAll []).store.reported = [] := hnew.reported
    rw [hr] at h
    cases h

/-- Where the current snapshot stays, the numbers do. -/
theorem Numbered.stays (h : start.Numbered operations)
    (hcurrent : ((start.performAll operations).perform operation).store.current =
      (start.performAll operations).store.current)
    (hnext : ((start.performAll operations).perform operation).store.next =
      (start.performAll operations).store.next)
    (hreported : ∀ entry ∈ ((start.performAll operations).perform operation).store.reported,
      entry.1 < (start.performAll operations).store.next) :
    start.Numbered (operations ++ [operation]) := by
  have hheld : ∀ snapshot, start.Held (operations ++ [operation]) snapshot →
      start.Held operations snapshot := by
    intro snapshot hs
    rcases held_concat.mp hs with hs | hs
    · exact hs
    · exact hs ▸ hcurrent ▸ held_current
  refine ⟨fun snapshot hs => ?_, fun snapshot other hs ho => ?_, ?_⟩
  · rw [performAll_concat, hnext]
    exact h.below snapshot (hheld snapshot hs)
  · exact h.distinct snapshot other (hheld snapshot hs) (hheld other ho)
  · rw [performAll_concat, hnext]
    exact hreported

/-- A new snapshot takes the next number, which no other one has. -/
theorem Numbered.takes_next (h : start.Numbered operations)
    (hcurrent : ((start.performAll operations).perform operation).store.current.generation =
      (start.performAll operations).store.next)
    (hnext : ((start.performAll operations).perform operation).store.next =
      (start.performAll operations).store.next + 1)
    (hreported : ((start.performAll operations).perform operation).store.reported =
      (start.performAll operations).store.reported) :
    start.Numbered (operations ++ [operation]) := by
  refine ⟨fun snapshot hs => ?_, fun snapshot other hs ho hg => ?_, fun entry he => ?_⟩
  · rw [performAll_concat, hnext]
    rcases held_concat.mp hs with hs | rfl
    · have := h.below snapshot hs
      omega
    · omega
  · rcases held_concat.mp hs with hs | rfl <;> rcases held_concat.mp ho with ho | rfl
    · exact h.distinct snapshot other hs ho hg
    · have := h.below snapshot hs
      omega
    · have := h.below other ho
      omega
    · rfl
  · rw [performAll_concat, hreported] at he
    rw [performAll_concat, hnext]
    have := h.reported entry he
    omega

/-- **Numbers tell snapshots apart**, over any history from a new ledger. -/
theorem numbered (hnew : start.IsNew) (operations : List Operation)
    (hkept : start.Kept operations) : start.Numbered operations := by
  induction operations using List.reverseRecOn with
  | nil => exact numbered_nil hnew
  | append_singleton operations operation ih =>
    obtain ⟨hkept, hheld⟩ := kept_concat.mp hkept
    have ih := ih hkept
    rcases (start.performAll operations).perform_cases operation with
      ⟨snapshot, ht, hr⟩ | ⟨-, hr, he | ⟨hc, hn⟩⟩
    · have hnumber := ih.below snapshot (hheld snapshot ht)
      refine ih.stays hr.current hr.next fun entry he => ?_
      rcases hr.mem_reported he with he | he
      · rw [he]
        exact hnumber
      · exact ih.reported entry he
    · exact ih.stays (by rw [he]) (by rw [he]) (by rw [he]; exact ih.reported)
    · exact ih.takes_next hc hn hr

end Numbers

/-! ### Memos -/

section Memos

variable {start : Ledger} {snapshot : Catalog.Snapshot}

/-- Whether a memo holds what was reported as lacking in a snapshot, once each, and this is what
the snapshot lacks of what it was asked for. -/
structure Memo (start : Ledger) (operations : List Operation) (snapshot : Catalog.Snapshot) :
    Prop where
  reported : (start.performAll operations).store.reportedIn snapshot =
    (start.lacks snapshot operations).reverse
  nodup : (start.lacks snapshot operations).Nodup
  mem (id : String) : id ∈ start.lacks snapshot operations ↔
    id ∉ snapshot.ids ∧ start.Asked operations snapshot id

/-- An operation that asks a snapshot adds to its memo. -/
theorem Memo.asks {operations : List Operation} {operation : Operation}
    (h : start.Memo operations snapshot)
    (ht : operation.target (start.performAll operations) = some snapshot)
    (hr : Reports snapshot (operation.Asks (start.performAll operations))
      (start.performAll operations) ((start.performAll operations).perform operation)) :
    start.Memo (operations ++ [operation]) snapshot := by
  obtain ⟨new, ha, hn, hm⟩ := hr
  have hlacks : start.lacks snapshot (operations ++ [operation]) =
      start.lacks snapshot operations ++ new := by
    rw [lacks_concat, if_pos ht, Operation.lacks, ha.lacking]
  have hmem : ∀ id, id ∈ new ↔ operation.Asks (start.performAll operations) id ∧
      id ∉ snapshot.ids ∧ id ∉ start.lacks snapshot operations := by
    intro id
    rw [hm, h.reported, List.mem_reverse]
  refine ⟨?_, ?_, fun id => ?_⟩
  · rw [performAll_concat, ha.reportedIn, h.reported, hlacks, List.reverse_append]
  · rw [hlacks]
    refine List.nodup_append.mpr ⟨h.nodup, hn, ?_⟩
    rintro id hid _ hid' rfl
    exact ((hmem id).mp hid').2.2 hid
  · rw [hlacks, List.mem_append, hmem, h.mem, asked_concat]
    simp only [ht, true_and]
    tauto

/-- An operation that does not ask a snapshot leaves its memo as it is. -/
theorem Memo.stays {operations : List Operation} {operation : Operation}
    (h : start.Memo operations snapshot)
    (ht : operation.target (start.performAll operations) ≠ some snapshot)
    (hr : ((start.performAll operations).perform operation).store.reportedIn snapshot =
      (start.performAll operations).store.reportedIn snapshot) :
    start.Memo (operations ++ [operation]) snapshot := by
  have hlacks : start.lacks snapshot (operations ++ [operation]) =
      start.lacks snapshot operations := by
    rw [lacks_concat, if_neg ht, List.append_nil]
  refine ⟨?_, ?_, fun id => ?_⟩
  · rw [performAll_concat, hr, hlacks, h.reported]
  · rw [hlacks]
    exact h.nodup
  · rw [hlacks, h.mem, asked_concat]
    simp only [ht, false_and, or_false]

/-- What does not ask a snapshot reports nothing of it, if nothing with its number is asked. -/
theorem reportedIn_perform {ledger : Ledger} {operation : Operation}
    (h : ∀ other, operation.target ledger = some other →
      snapshot.generation ≠ other.generation) :
    (ledger.perform operation).store.reportedIn snapshot = ledger.store.reportedIn snapshot := by
  rcases ledger.perform_cases operation with ⟨other, ht, new, ha, -⟩ | ⟨-, hr, -⟩
  · exact ha.reportedIn_other (h other ht)
  · unfold Catalog.Store.reportedIn
    rw [hr]

/-- **The memo of every snapshot is right**, over any history from a new ledger: of every snapshot
that was current, or has a number that none of these has. -/
theorem memo (hnew : start.IsNew) (operations : List Operation) (hkept : start.Kept operations)
    (hsnapshot : ∀ other, start.Held operations other →
      other.generation = snapshot.generation → other = snapshot) :
    start.Memo operations snapshot := by
  induction operations using List.reverseRecOn with
  | nil =>
    have hr : (start.performAll []).store.reportedIn snapshot = [] := by
      show (start.store.reported.filter _).map _ = []
      rw [hnew.reported]
      rfl
    refine ⟨hr, List.nodup_nil, fun id => ⟨fun h => absurd h List.not_mem_nil, ?_⟩⟩
    rintro ⟨-, earlier, operation, he, -⟩
    exact absurd (List.prefix_nil.mp he) (by simp)
  | append_singleton operations operation ih =>
    obtain ⟨hkept, hheld⟩ := kept_concat.mp hkept
    have hsnapshot : ∀ other, start.Held operations other →
        other.generation = snapshot.generation → other = snapshot :=
      fun other ho => hsnapshot other (held_concat.mpr (.inl ho))
    have ih := ih hkept hsnapshot
    by_cases ht : operation.target (start.performAll operations) = some snapshot
    · rcases (start.performAll operations).perform_cases operation with
        ⟨other, ho, hr⟩ | ⟨ho, -⟩
      · rw [ht] at ho
        cases ho
        exact ih.asks ht hr
      · rw [ht] at ho
        cases ho
    · refine ih.stays ht (reportedIn_perform fun other ho hg => ?_)
      rw [hsnapshot other (hheld other ho) hg.symm] at ho
      exact ht ho

/-- **Every lack is reported once.** Over any history from a new ledger in which snapshots are asked
that were current before, each snapshot that was current at some time is reported to lack an id once
if it lacks it and was asked for it by then, and never otherwise; its memo holds exactly the ids
that it lacks and was asked for, each of them once; and what does not ask this snapshot leaves the
memo as it is. A snapshot that becomes current is a new one, whatever its ids are, and its memo is
empty. A replacement that fails changes nothing. -/
theorem lacks_reported_once {start : Ledger} (hnew : start.IsNew) {operations : List Operation}
    (hkept : start.Kept operations) :
    let ledger := start.performAll operations
    (∀ snapshot, start.Held operations snapshot →
      (∀ id, id ∉ snapshot.ids ∧ start.Asked operations snapshot id →
        (start.lacks snapshot operations).count id = 1) ∧
      (∀ id, ¬ (id ∉ snapshot.ids ∧ start.Asked operations snapshot id) →
        (start.lacks snapshot operations).count id = 0) ∧
      (∀ id, id ∈ ledger.store.reportedIn snapshot ↔
        id ∉ snapshot.ids ∧ start.Asked operations snapshot id) ∧
      (ledger.store.reportedIn snapshot).Nodup ∧
      ∀ operation, start.Kept (operations ++ [operation]) →
        operation.target ledger ≠ some snapshot →
        (ledger.perform operation).store.reportedIn snapshot =
          ledger.store.reportedIn snapshot) ∧
    (∀ l, (l = ledger.resetCatalog ∨
        ∃ values version source, ledger.replaceCatalog values version source = .ok l) →
      ¬ start.Held operations l.store.current ∧ l.store.reportedIn l.store.current = []) ∧
    ∀ (values : List Json) (version source : Option String) (failure : Failure),
      ledger.replaceCatalog values version source = .error failure →
        ledger.perform (.replace values version source) = ledger := by
  intro ledger
  have hnumbered := numbered hnew operations hkept
  refine ⟨fun snapshot hs => ?held, fun l hl => ?fresh, fun _ _ _ _ => perform_of_refused⟩
  case held =>
    have hmemo : start.Memo operations snapshot := memo hnew operations hkept fun other ho hg =>
      hnumbered.distinct other snapshot ho hs hg
    refine ⟨fun id h => ?_, fun id h => ?_, fun id => ?_, ?_, fun operation hk ht => ?_⟩
    · exact List.count_eq_one_of_mem hmemo.nodup ((hmemo.mem id).mpr h)
    · exact List.count_eq_zero_of_not_mem (mt (hmemo.mem id).mp h)
    · rw [hmemo.reported, List.mem_reverse, hmemo.mem]
    · rw [hmemo.reported]
      exact List.nodup_reverse.mpr hmemo.nodup
    · refine reportedIn_perform fun other ho hg => ?_
      have hother := (kept_concat.mp hk).2 other ho
      rw [hnumbered.distinct snapshot other hs hother hg] at ht
      exact ht ho
  case fresh =>
    obtain ⟨hnumber, -, hreported⟩ := new_number hl
    refine ⟨fun hs => ?_, ?_⟩
    · have hbelow := hnumbered.below _ hs
      rw [hnumber] at hbelow
      exact Nat.lt_irrefl _ hbelow
    · unfold Catalog.Store.reportedIn
      rw [hreported, List.map_eq_nil_iff, List.filter_eq_nil_iff]
      intro entry he heq
      have hbelow := hnumbered.reported entry he
      rw [of_decide_eq_true heq, hnumber] at hbelow
      exact absurd hbelow (Nat.lt_irrefl _)

/-- A list that asks for a block and is rejected then. -/
def halfList : Json :=
  .obj [("blocks", .arr
    [.obj [("x", .int 0), ("y", .int 0), ("z", .int 0), ("blockType", .str "b")], .null])]

/-- The quarry is asked for a block that it lacks, and again when its catalog was replaced by one
with the same id. That one is asked by a document that is rejected then. -/
def quarryWorks : List Operation :=
  [.resolve quarry.store.current [] (.str "b"),
   .replace [.str "A"] none none,
   .resolve quarry.store.current [] (.str " B "),
   .expand {} halfList]

/-- The catalog that replaces the one of the quarry. -/
def quarryReplaced : Catalog.Snapshot := ⟨["minecraft:a"], "unknown", "runtime", 1⟩

theorem lacks_reported_once_quarry :
    (quarry.lacks quarry.store.current quarryWorks).count "minecraft:b" = 1 ∧
    (quarry.lacks quarryReplaced quarryWorks).count "minecraft:b" = 1 ∧
    (quarry.lacks quarryReplaced quarryWorks).count "minecraft:a" = 0 ∧
    "minecraft:b" ∈ (quarry.performAll quarryWorks).store.reportedIn quarryReplaced ∧
    let l := (quarry.performAll quarryWorks).resetCatalog
    l.store.reportedIn l.store.current = [] := by
  have hnew : quarry.IsNew := ⟨rfl, by decide⟩
  have hkept : quarry.Kept quarryWorks := by
    intro earlier asked scope value he
    have hm : Operation.resolve asked scope value ∈ quarryWorks := he.subset (by simp)
    have hq : asked = quarry.store.current := by
      simp [quarryWorks] at hm
      tauto
    exact ⟨[], List.nil_prefix, hq.symm⟩
  have hcurrent : (quarry.performAll (quarryWorks.take 3)).store.current = quarryReplaced := by
    decide +kernel
  have hfirst : quarry.Asked quarryWorks quarry.store.current "minecraft:b" := by
    refine ⟨[], .resolve quarry.store.current [] (.str "b"), ⟨_, rfl⟩, rfl, ?_⟩
    show "minecraft:b" = Catalog.requestedId [] (.str "b")
    decide +kernel
  have hlast : quarry.Asked quarryWorks quarryReplaced "minecraft:b" := by
    refine ⟨quarryWorks.take 3, .expand {} halfList, List.prefix_rfl, ?_, .blockList rfl ?_⟩
    · exact congrArg some hcurrent
    · decide +kernel
  obtain ⟨held, fresh, -⟩ := lacks_reported_once hnew hkept
  obtain ⟨once, -⟩ := held quarry.store.current ⟨[], List.nil_prefix, rfl⟩
  obtain ⟨onceReplaced, never, memo, -⟩ :=
    held quarryReplaced ⟨quarryWorks.take 3, List.take_prefix _ _, hcurrent⟩
  refine ⟨once _ ⟨by decide, hfirst⟩, onceReplaced _ ⟨by decide, hlast⟩, never _ ?_,
    (memo _).mpr ⟨by decide, hlast⟩, (fresh _ (.inl rfl)).2⟩
  exact fun h => h.1 (by decide)

end Memos

end Ledger
end VoxelBlueprint
