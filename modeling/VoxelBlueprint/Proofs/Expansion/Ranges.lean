/-
# Integers in range, along an expansion

What holds of an execution holds of the expansion of a document: whichever way its blocks come
about, no integer on this way is out of range. An entry of a list is evaluated in the empty scope,
which binds nothing, and so its values are in range like those of a program.

Key definition: `Scope.Contained`.
Key theorems: `blockLaw_inRange`, `integers_in_range`.
-/
import VoxelBlueprint.Proofs.Execution.Ranges
import VoxelBlueprint.Proofs.Expansion.Blocks

namespace VoxelBlueprint

open Effects Stage Expansion

/-- Whether no integer that comes up in a scope is out of range: none that it binds, and none for
which an expression, a value or an argument stands in it. -/
structure Scope.Contained (scope : Scope) : Prop where
  bound : scope.InRange
  evaluated (limit : Int) (text : String) (v : Int) :
    Expression.evaluate scope limit text = .ok v → Expression.InRange v
  coerced (limit : Int) (value : Json) (v : Int) :
    Expression.coerce scope limit value = .ok v → Expression.InRange v
  passed (limit : Int) (value : Json) (v : Int) :
    Expression.coerceArgument scope limit value = .ok (.int v) → Expression.InRange v

/-- What stands in a scope is in range if what the scope binds is. -/
theorem Scope.InRange.contained {scope : Scope} (h : scope.InRange) : scope.Contained where
  bound := h
  evaluated _ _ _ := Expression.inRange_of_evaluate
  coerced _ _ _ := Expression.inRange_of_coerce
  passed _ _ _ := Expression.inRange_of_coerceArgument h

/-! ### Documents -/

theorem inRange_entryCoordinates {limits : Limits} {index : Nat} {entry : Json}
    {p : Int × Int × Int} (h : entryCoordinates limits index entry = .ok p) (blockType : String) :
    Block.InRange ⟨p.1, p.2.1, p.2.2, blockType⟩ := by
  unfold entryCoordinates at h
  split at h
  · exact inRange_coordinatesAt h blockType
  · cases h

theorem ensures_readBlock_inRange (limits : Limits) (snapshot : Catalog.Snapshot) (index : Nat)
    (entry : Json) :
    Ensures (readBlock limits snapshot index entry) fun _ block => block.InRange := by
  refine (ensures_ofExcept fun _ h => inRange_entryCoordinates h).bind fun coordinates => ?_
  refine (ensures_blockFor snapshot [] (entry.field "blockType")).bind fun blockType => ?_
  exact .pure fun _ _ h => h blockType

theorem ensures_expand_inRange (limits : Limits) (p : Program) :
    Ensures (p.expand limits) fun _ blocks => ∀ block ∈ blocks, block.InRange := by
  intro ledger
  have hc := (ensures_expand limits p) ledger
  obtain ⟨n, hn⟩ := p.eventually_outcome limits ledger
  have hr := p.inRange_stage limits ledger n
  rw [hn n (le_refl n)] at hr
  rw [Program.expand_eq, Program.run_eq] at hc ⊢
  cases ho : p.outcome limits ledger with
  | error r s =>
    rw [ho] at hc
    exact hc
  | ok u s =>
    rw [ho] at hc hr
    exact ⟨hc.1, hr.output⟩

/-- The coordinates of every block of a document are in range. -/
theorem blockLaw_inRange (limits : Limits) : BlockLaw limits fun _ block => block.InRange where
  entry := ensures_readBlock_inRange limits
  program := ensures_expand_inRange limits

/-- **No integer out of range circulates in an expansion.** Whatever the limits and the ledger are:

* at every stage of a run of a program, no integer that comes up in a scope in which something is
  left to do is out of range, and neither is a coordinate of a block that was placed;
* a loop binds its counter to integers in range between its first and its last value alone, for
  what is done with its body in a scope with another value of the counter makes no difference;
* no integer that comes up in the empty scope, in which the entries of a list are evaluated, is
  out of range;
* the coordinates of every block of the blueprint of a document are in range. -/
theorem integers_in_range (limits : Limits) (ledger : Ledger) :
    (∀ (p : Program) (n : ℕ),
      (∀ task ∈ (p.stage limits ledger n).agenda, task.scope.Contained) ∧
      ∀ block ∈ (p.stage limits ledger n).state.output.toList, block.InRange) ∧
    (∀ (c : RunContext) (inner inner' : Executor) (scope : Scope) (counter : String)
        (start stop step : Json) (body : List Step) (first last stride : Int),
      loopRange c.limits scope start stop step = .ok (first, last, stride) →
      (∀ v ∈ Set.uIcc first last, Expression.InRange v →
        inner body (scope.bind counter (.int v)) = inner' body (scope.bind counter (.int v))) →
      runLoop c inner scope counter start stop step body =
        runLoop c inner' scope counter start stop step body) ∧
    Scope.Contained [] ∧
    ∀ (document : Json) (b : Blueprint) (l : Ledger),
      expandDocument limits document ledger = .ok b l → ∀ block ∈ b.blocks, block.InRange := by
  refine ⟨?stages, ?counters, Scope.InRange.nil.contained, ?documents⟩
  case stages =>
    intro p n
    have h := p.inRange_stage limits ledger n
    exact ⟨fun task ht => (h.agenda task ht).1.contained, h.output⟩
  case counters =>
    intro c inner inner' scope counter start stop step body first last stride hr h
    exact runLoop_congr hr h
  case documents =>
    intro document b l he
    have h := (blockLaw_inRange limits).expandDocument document ledger
    rw [he] at h
    exact h.2

/-- A call that puts up posts at the distance that it passes. -/
def fence : Program :=
  { steps := [.call "posts" [("gap", .str "1 + 2")]]
    definitions :=
      [{ name := "posts"
         steps := [.loop "i" (.int 1) (.int 8) (.str "gap")
           [.place (.str "-i / 2") (.str "gap") (.int 0) (.str "a")]] }] }

/-- A list of one block. -/
def gatepost : Json :=
  .obj
    [("blocks", .arr
      [.obj [("x", .str "4 * -2"), ("y", .int 0), ("z", .int 0), ("blockType", .str "a")]])]

/-- Does nothing, but rejects a counter of ten. -/
def nothingAtTen : Executor := fun _ scope =>
  match scope.find? "i" with
  | some (.int 10) => throw (.runaway .callCount 0)
  | _ => pure ()

theorem integers_in_range_fence :
    (∃ task ∈ (fence.stage {} quarry 6).agenda,
      Expression.evaluate task.scope 64 "i * gap" = .ok 12 ∧ task.scope.Contained) ∧
    (∃ block ∈ (fence.stage {} quarry 7).state.output.toList,
      block = ⟨-2, 3, 0, "minecraft:a"⟩ ∧ block.InRange) ∧
    runLoop ⟨fence, {}, none⟩ nothingAtTen [] "i" (.int 1) (.int 8) (.str "1 + 2") fence.steps =
      runLoop ⟨fence, {}, none⟩ (fun _ _ => pure ()) [] "i" (.int 1) (.int 8) (.str "1 + 2")
        fence.steps ∧
    ∃ b l, expandDocument {} gatepost quarry = .ok b l ∧ b.blocks = [⟨-8, 0, 0, "minecraft:a"⟩] ∧
      ∀ block ∈ b.blocks, block.InRange := by
  have bound : ∃ task ∈ (fence.stage {} quarry 6).agenda,
      Expression.evaluate task.scope 64 "i * gap" = .ok 12 := by decide +kernel
  have placed : ⟨-2, 3, 0, "minecraft:a"⟩ ∈ (fence.stage {} quarry 7).state.output.toList := by
    decide +kernel
  have range : loopRange {} [] (.int 1) (.int 8) (.str "1 + 2") = .ok (1, 8, 3) := by
    decide +kernel
  have built : expandDocument {} gatepost quarry =
      .ok { blocks := [⟨-8, 0, 0, "minecraft:a"⟩], layout := some .blockList } quarry := by
    decide +kernel
  obtain ⟨stages, counters, -, documents⟩ := integers_in_range {} quarry
  obtain ⟨task, ht, hv⟩ := bound
  refine ⟨⟨task, ht, hv, (stages fence 6).1 task ht⟩, ⟨_, placed, rfl, (stages fence 7).2 _ placed⟩,
    counters _ _ _ _ _ _ _ _ _ 1 8 3 range fun v hv _ => ?_,
    ⟨_, _, built, rfl, documents _ _ _ built⟩⟩
  have hne : v ≠ 10 := by
    rw [Set.mem_uIcc] at hv
    omega
  simp [nothingAtTen, Scope.find?, Scope.bind, hne]

end VoxelBlueprint
