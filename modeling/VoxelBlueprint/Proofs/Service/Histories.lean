/-
# Histories of a service

What a service answers depends on its limits and on what its catalog says, and neither on the
number of the snapshot nor on what was reported of it or recorded. Only a change of the catalog
that succeeds changes what the catalog says, and after it the catalog says the same whatever it
said before. So of all that was done with a service only the last such change can be told from
what it answers.

Key definitions: `Service.Query`, `Service.Operation`, `Service.lastChange`, `Service.face`.
Key theorems: `Service.expand_meets_demands`, `Service.shown_answer`, `Service.face_operate`,
`Service.face_after`, `Service.answers_depend_on_last_change`.
-/
import VoxelBlueprint.Proofs.Expansion.Demands
import VoxelBlueprint.Proofs.Expansion.Histories

namespace VoxelBlueprint

open Effects

/-! ### What is told by a catalog and by a reply -/

/-- What a snapshot says: its ids and labels, but not its number. -/
def Catalog.Snapshot.content (snapshot : Catalog.Snapshot) : List String × String × String :=
  (snapshot.ids, snapshot.version, snapshot.source)

/-- A reply as it is shown: its kind and its fields. -/
def Reply.shown (reply : Reply) : String × List (String × Json) :=
  (reply.kindName, reply.fields)

section Contents

variable {snapshot snapshot' : Catalog.Snapshot}

theorem Demand.blockIn_congr (h : snapshot.content = snapshot'.content) (d : Demand) :
    d.blockIn snapshot = d.blockIn snapshot' :=
  d.blockIn_of_ids (congrArg Prod.fst h)

theorem Reply.shown_catalog (h : snapshot.content = snapshot'.content) :
    (Reply.catalog snapshot).shown = (Reply.catalog snapshot').shown := by
  obtain ⟨hids, hlabels⟩ := Prod.mk.inj h
  obtain ⟨hversion, hsource⟩ := Prod.mk.inj hlabels
  have hfields : summaryFields snapshot = summaryFields snapshot' := by
    unfold summaryFields
    rw [Catalog.Snapshot.fallback_congr hids, hids, hversion, hsource]
  exact congrArg (Prod.mk "CatalogResponse") hfields

end Contents

/-- A catalog is replaced in every ledger if it is in one, and says the same then. -/
theorem Ledger.replaceCatalog_content {ledger l : Ledger} {values : List Json}
    {version source : Option String} (h : ledger.replaceCatalog values version source = .ok l)
    (ledger' : Ledger) : ∃ l', ledger'.replaceCatalog values version source = .ok l' ∧
      l'.store.current.content = l.store.current.content := by
  obtain ⟨ht, hu, rfl⟩ := replaceCatalog_eq_ok h
  rw [replaceCatalog_apply _ _ _ ht, if_neg hu]
  exact ⟨_, rfl, rfl⟩

namespace Service

/-! ### Operations -/

/-- What a service is asked without a change of its catalog. -/
inductive Query where
  | expand (request : ExpandRequest)
  | validate (request : ExpandRequest)
  | getCatalog

/-- The reply to a query, and the service after it. -/
def answer (service : Service) : Query → Service × Reply
  | .expand request => service.expand request
  | .validate request => (service, validate request)
  | .getCatalog => (service, service.summary)

/-- What is done with a service. -/
inductive Operation where
  | ask (query : Query)
  | updateCatalog (request : CatalogRequest)
  /-- Loads the catalog of a file, as far as there is something to read. -/
  | loadCatalog (read : FileReader) (file : String)

/-- The service after an operation, whether that failed or not. -/
def operate (service : Service) : Operation → Service
  | .ask query => (service.answer query).1
  | .updateCatalog request =>
    match service.updateCatalog request with
    | .ok (service, _) => service
    | .error _ => service
  | .loadCatalog read file =>
    match service.loadCatalog read file with
    | .ok service => service
    | .error _ => service

/-- The service after operations. -/
def after (service : Service) (operations : List Operation) : Service :=
  operations.foldl operate service

/-- The ledger with the catalog that an operation sets, if it succeeds in setting one. -/
def Operation.replacement (ledger : Ledger) : Operation → Option Ledger
  | .ask _ => none
  | .updateCatalog request =>
    (ledger.replaceCatalog (request.ids.map .str) request.version request.source).toOption
  | .loadCatalog read file => (loadLedger ledger read file).toOption

/-- The last of the operations that succeeds in setting a catalog. -/
def lastChange (service : Service) : List Operation → Option Operation
  | [] => none
  | operation :: operations =>
    match (service.operate operation).lastChange operations with
    | some later => some later
    | none => if (operation.replacement service.ledger).isSome then some operation else none

/-- A service that has just started, with the limits and the catalog of another one. -/
def renewed (service : Service) : Service where
  limits := service.limits
  ledger := { store := { current := { service.snapshot with generation := 0 } } }

/-- What can be told of a service from what it answers. -/
def face (service : Service) : Limits × List String × String × String :=
  (service.limits, service.snapshot.content)

/-! ### Answers -/

/-- What is submitted is rejected by every service with the same limits, or makes the same demands
of all of them, which each of them meets from its catalog and with the version of this. -/
theorem expand_meets_demands (limits : Limits) (request : ExpandRequest) :
    (∃ r, ∀ service : Service, service.limits = limits →
      (service.expand request).2 = .rejected r) ∨
    ∃ (demands : List Demand) (layout : Layout) (truncatedFrom : Option Nat),
      ∀ service : Service, service.limits = limits →
        (service.expand request).2 =
          .blueprint
            { blocks := demands.map (·.blockIn service.snapshot)
              truncatedFrom
              layout := some layout } service.snapshot.version := by
  obtain ⟨submission, maxBlocks⟩ := request
  cases hd : submission.decode with
  | error r =>
    refine .inl ⟨r, fun service _ => ?_⟩
    unfold expand
    rw [expandSubmission, ofExcept_bind_apply, hd]
  | ok document =>
    obtain ⟨ceilings, hlimits⟩ : ∃ ceilings, ∀ service : Service, service.limits = limits →
        service.limitsFor { submission, maxBlocks } = ceilings := by
      refine ⟨maxBlocks.elim limits fun n => { limits with maxBlocks := min limits.maxBlocks n },
        fun service hs => ?_⟩
      subst hs
      cases maxBlocks <;> rfl
    obtain ⟨view, hv⟩ := expandDocument_oblivious ceilings document ()
    cases view with
    | error r v =>
      refine .inl ⟨r, fun service hs => ?_⟩
      obtain ⟨l, hl, -⟩ := (hv service.ledger service.ledger (.refl service.ledger)).exists_error
      dsimp only at hl
      rw [reply_of_decode hd, hlimits service hs, hl]
    | ok found v =>
      refine .inr ⟨found.1.take ceilings.maxBlocks.toNat, found.2,
        if ceilings.maxBlocks.toNat < found.1.length then some found.1.length else none,
        fun service hs => ?_⟩
      obtain ⟨l, hl, hr⟩ := (hv service.ledger service.ledger (.refl service.ledger)).exists_ok
      dsimp only at hl
      rw [reply_of_decode hd, hlimits service hs, hl, Demand.blueprint_eq]
      exact congrArg (Reply.blueprint _ ·.version) hr.current

/-- What a service answers can be told from its face. -/
theorem shown_answer {service service' : Service} (h : service.face = service'.face)
    (query : Query) : (service.answer query).2.shown = (service'.answer query).2.shown := by
  obtain ⟨hlimits, hcontent⟩ := Prod.mk.inj h
  cases query with
  | expand request =>
    show (service.expand request).2.shown = (service'.expand request).2.shown
    rcases expand_meets_demands service.limits request with
      ⟨r, hr⟩ | ⟨demands, layout, truncatedFrom, hb⟩
    · rw [hr service rfl, hr service' hlimits.symm]
    · have hversion : service.snapshot.version = service'.snapshot.version :=
        congrArg (·.2.1) hcontent
      rw [hb service rfl, hb service' hlimits.symm, hversion]
      simp only [Demand.blockIn_congr hcontent]
  | validate request => rfl
  | getCatalog => exact Reply.shown_catalog hcontent

/-! ### Changes -/

theorem ensures_expandSubmission (limits : Limits) (submission : Submission) :
    Expansion.Ensures (expandSubmission limits submission) fun _ _ => True := by
  refine (ensures_ofExcept fun _ _ => trivial).bind fun document => ?_
  exact (ensures_expandDocument limits document).mono fun _ _ _ _ => trivial

/-- An expansion leaves the catalog and the limits as they are. -/
theorem face_expand (service : Service) (request : ExpandRequest) :
    (service.expand request).1.face = service.face := by
  have h := ensures_expandSubmission (service.limitsFor request) request.submission service.ledger
  unfold expand
  cases hr : expandSubmission (service.limitsFor request) request.submission service.ledger with
  | ok b l =>
    rw [hr] at h
    exact congrArg (fun current => (service.limits, current.content)) h.1
  | error r l =>
    rw [hr] at h
    exact congrArg (fun current => (service.limits, current.content)) h

/-- An operation sets a catalog, or leaves everything that can be told of a service. -/
theorem face_operate (service : Service) (operation : Operation) :
    (∃ ledger, operation.replacement service.ledger = some ledger ∧
      service.operate operation = { service with ledger }) ∨
    (operation.replacement service.ledger = none ∧
      (service.operate operation).face = service.face) := by
  cases operation with
  | ask query =>
    refine .inr ⟨rfl, ?_⟩
    cases query with
    | expand request => exact service.face_expand request
    | validate | getCatalog => rfl
  | updateCatalog request =>
    cases h : service.ledger.replaceCatalog (request.ids.map .str) request.version
      request.source with
    | ok ledger =>
      refine .inl ⟨ledger, by rw [Operation.replacement, h]; rfl, ?_⟩
      rw [operate, updateCatalog, h]
    | error failure =>
      refine .inr ⟨by rw [Operation.replacement, h]; rfl, ?_⟩
      rw [operate, updateCatalog, h]
      cases failure <;> rfl
  | loadCatalog read file =>
    cases h : loadLedger service.ledger read file with
    | ok ledger =>
      refine .inl ⟨ledger, by rw [Operation.replacement, h]; rfl, ?_⟩
      rw [operate, loadCatalog, h]
    | error failure =>
      refine .inr ⟨by rw [Operation.replacement, h]; rfl, ?_⟩
      rw [operate, loadCatalog, h]
      cases failure <;> rfl

/-- An operation that sets a catalog does so whatever was before, and the catalog says the same. -/
theorem replacement_content {operation : Operation} {ledger l : Ledger}
    (h : operation.replacement ledger = some l) (ledger' : Ledger) :
    ∃ l', operation.replacement ledger' = some l' ∧
      l'.store.current.content = l.store.current.content := by
  cases operation with
  | ask query => cases h
  | updateCatalog request =>
    obtain ⟨l', hl', hc⟩ := Ledger.replaceCatalog_content (toOption_eq_some.mp h) ledger'
    exact ⟨l', toOption_eq_some.mpr hl', hc⟩
  | loadCatalog read file =>
    obtain ⟨listing, hlisting, h⟩ := bind_eq_ok (toOption_eq_some.mp h)
    obtain ⟨l', hl', hc⟩ := Ledger.replaceCatalog_content h ledger'
    refine ⟨l', toOption_eq_some.mpr ?_, hc⟩
    rw [loadLedger, hlisting]
    exact hl'

/-- After an operation that sets a catalog nothing but the limits can be told of what was before. -/
theorem face_operate_of_replacement {service : Service} {operation : Operation} {ledger l : Ledger}
    (h : operation.replacement ledger = some l) :
    (service.operate operation).face = (service.limits, l.store.current.content) := by
  obtain ⟨l', hl', hc⟩ := replacement_content h service.ledger
  rcases service.face_operate operation with ⟨k, hk, he⟩ | ⟨hn, -⟩
  · rw [hl'] at hk
    cases hk
    rw [he, ← hc]
    rfl
  · rw [hl'] at hn
    cases hn

/-! ### Histories -/

theorem limits_operate (service : Service) (operation : Operation) :
    (service.operate operation).limits = service.limits := by
  rcases service.face_operate operation with ⟨l, -, he⟩ | ⟨-, he⟩
  · rw [he]
  · exact congrArg Prod.fst he

/-- What is found to be the last change sets a catalog. -/
theorem exists_replacement {operations : List Operation} :
    ∀ {service : Service} {change : Operation}, service.lastChange operations = some change →
      ∃ ledger l, change.replacement ledger = some l := by
  induction operations with
  | nil => exact fun h => nomatch h
  | cons operation operations ih =>
    intro service change h
    unfold lastChange at h
    split at h
    · rename_i later hl
      cases h
      exact ih hl
    · split at h
      · rename_i hs
        cases h
        exact ⟨service.ledger, Option.isSome_iff_exists.mp hs⟩
      · cases h

/-- **Of what was done with a service only the last change of the catalog can be told.** -/
theorem face_after (operations : List Operation) : ∀ {service fresh : Service},
    service.face = fresh.face →
      (service.after operations).face =
        (fresh.after (service.lastChange operations).toList).face := by
  induction operations with
  | nil => exact fun h => h
  | cons operation operations ih =>
    intro service fresh h
    have hlimits : service.limits = fresh.limits := congrArg Prod.fst h
    show ((service.operate operation).after operations).face = _
    rw [ih rfl, lastChange]
    cases hl : (service.operate operation).lastChange operations with
    | some later =>
      obtain ⟨ledger, l, hr⟩ := exists_replacement hl
      calc ((service.operate operation).operate later).face
          = ((service.operate operation).limits, l.store.current.content) :=
            face_operate_of_replacement hr
        _ = (fresh.limits, l.store.current.content) := by
            rw [service.limits_operate operation, hlimits]
        _ = (fresh.operate later).face := (face_operate_of_replacement hr).symm
    | none =>
      show (service.operate operation).face = _
      rcases service.face_operate operation with ⟨l, hr, -⟩ | ⟨hr, he⟩
      · simp only [hr, Option.isSome_some, if_true]
        rw [face_operate_of_replacement hr, hlimits]
        exact (face_operate_of_replacement hr).symm
      · simp only [hr, Option.isSome_none, Bool.false_eq_true, if_false]
        exact he.trans h

theorem limits_after (operations : List Operation) : ∀ service : Service,
    (service.after operations).limits = service.limits := by
  induction operations with
  | nil => exact fun _ => rfl
  | cons operation operations ih =>
    exact fun service => (ih _).trans (service.limits_operate operation)

/-- **What a service answers depends on the last change of its catalog alone.** Whatever was done
with it:

* it answers every query as a service does that has just started with the same limits and the same
  catalog, and with which only the last change of the catalog was made that succeeded, if any was;
* what is submitted is rejected for the same reason at all times, or makes the same demands at all
  times, and the blueprint then meets them from the catalog whose version it names. -/
theorem answers_depend_on_last_change (service : Service) :
    (∀ (operations : List Operation) (query : Query),
      ((service.after operations).answer query).2.shown =
        ((service.renewed.after (service.lastChange operations).toList).answer query).2.shown) ∧
    ∀ request : ExpandRequest,
      (∃ r, ∀ operations, ((service.after operations).expand request).2 = .rejected r) ∨
      ∃ (demands : List Demand) (layout : Layout) (truncatedFrom : Option Nat),
        ∀ operations,
          let later := service.after operations
          (later.expand request).2 =
            .blueprint
              { blocks := demands.map (·.blockIn later.snapshot)
                truncatedFrom
                layout := some layout } later.snapshot.version := by
  have hface : service.face = service.renewed.face := rfl
  refine ⟨fun operations query => shown_answer (face_after operations hface) query,
    fun request => ?_⟩
  rcases expand_meets_demands service.limits request with
    ⟨r, hr⟩ | ⟨demands, layout, truncatedFrom, hb⟩
  · exact .inl ⟨r, fun operations => hr _ (limits_after operations service)⟩
  · exact .inr ⟨demands, layout, truncatedFrom,
      fun operations => hb _ (limits_after operations service)⟩

end Service
end VoxelBlueprint
