/-
# The ceiling on the nesting of a document

Lists of steps that are nested deeper than a ceiling are not read: a single step that could not be
read stands in their place, also in the place of an empty list. Where the depth of calls is kept
below the ceiling this cannot be told from a run. A list that stands in the document below so many
others is opened below at least as many, be it by loops alone or by calls as well, so the limit on
the depth is always exceeded first.

The ceiling must lie above the limit and not just at it: at the ceiling the body of a loop may be
an empty list for which a step stands in, and the loop, which would do nothing, opens it.

Key definitions: `StepsReader.cut`, `Program.readBy`.
Key theorems: `Step.mapBody_ofJson`, `cutSteps_readSteps`, `Program.readBy_cut`,
`Program.runProgram_readWithin`, `Program.nesting_ceiling_unseen`.
-/
import VoxelBlueprint.Proofs.Execution.Cuts

namespace VoxelBlueprint

open Effects

/-! ### Readers of lists of steps -/

/-- The reader that cuts off what another one reads. -/
def StepsReader.cut (levels : Nat) (readBody : StepsReader) : StepsReader :=
  fun path raws => cutSteps levels (readBody path raws)

/-- Of a step only the body comes from the reader of lists. -/
theorem Step.mapBody_ofJson (f : List Step → List Step) (readBody : StepsReader) (path : Path)
    (raw : Json) : (Step.ofJson readBody path raw).mapBody f =
      Step.ofJson (fun path raws => f (readBody path raws)) path raw := by
  have hloop : (readLoop readBody path raw).mapBody f =
      readLoop (fun path raws => f (readBody path raws)) path raw := by
    unfold readLoop
    split <;> rfl
  have hcall : (readCall path raw).mapBody f = readCall path raw := by
    unfold readCall
    split <;> rfl
  unfold Step.ofJson
  cases raw with
  | obj fields =>
    simp only
    cases Op.ofJson? (Json.field "op" (.obj fields)) with
    | none => rfl
    | some op =>
      cases op with
      | place => rfl
      | loop => exact hloop
      | call => exact hcall
  | _ => rfl

theorem isEmpty_readSteps (levels : Nat) (path : Path) (raws : List Json) :
    (readSteps (levels + 1) path raws).isEmpty = raws.isEmpty := by
  unfold readSteps
  cases raws with
  | nil => rfl
  | cons raw raws => rw [List.mapIdx_cons]; rfl

/-- **What is left above the ceiling does not tell where the ceiling is.** -/
theorem cutSteps_readSteps : ∀ {levels a b : Nat}, levels < a → levels < b →
    (readSteps a).cut levels = (readSteps b).cut levels
  | 0, a + 1, b + 1, _, _ => by
    funext path raws
    have he := (isEmpty_readSteps a path raws).trans (isEmpty_readSteps b path raws).symm
    show stump _ = stump _
    unfold stump
    rw [he]
  | levels + 1, a + 1, b + 1, ha, hb => by
    have ih : (readSteps a).cut levels = (readSteps b).cut levels :=
      cutSteps_readSteps (by omega) (by omega)
    funext path raws
    have read (n : Nat) : (readSteps (n + 1)).cut (levels + 1) path raws =
        raws.mapIdx fun i raw =>
          Step.ofJson ((readSteps n).cut levels) (path ++ [.index i]) raw := by
      show List.map _ (List.mapIdx _ raws) = _
      simp only [List.mapIdx_eq_zipIdx_map, List.map_map, Function.comp_def, Step.mapBody_ofJson]
      rfl
    rw [read a, read b, ih]

/-! ### Readers of programs -/

theorem Definition.cut_ofJson (levels : Nat) (readBody : StepsReader) (path : Path) (raw : Json) :
    (Definition.ofJson readBody path raw).map (Definition.cut levels) =
      Definition.ofJson (readBody.cut levels) path raw := by
  unfold Definition.ofJson
  split
  · rfl
  · split <;> rfl

theorem readDefinitions_cut (levels : Nat) (readBody : StepsReader) :
    ∀ (i : Nat) (raws : List Json),
      (readDefinitions readBody i raws).map (List.map (Definition.cut levels)) =
        readDefinitions (readBody.cut levels) i raws
  | _, [] => rfl
  | i, raw :: raws => by
    have ih := readDefinitions_cut levels readBody (i + 1) raws
    unfold readDefinitions
    rw [← Definition.cut_ofJson levels readBody, ← ih]
    cases Definition.ofJson readBody [.field "defs", .index i] raw with
    | error m => rfl
    | ok d => cases readDefinitions readBody (i + 1) raws <;> rfl

namespace Program

theorem putDefinition_cut (levels : Nat) (d : Definition) : ∀ ds : List Definition,
    (putDefinition d ds).map (Definition.cut levels) =
      putDefinition (d.cut levels) (ds.map (Definition.cut levels))
  | [] => rfl
  | e :: ds => by
    have ih := putDefinition_cut levels d ds
    have hn : ((e.cut levels).name = (d.cut levels).name) = (e.name = d.name) := rfl
    unfold putDefinition
    rw [List.map_cons]
    simp only [hn]
    by_cases h : e.name = d.name
    · rw [if_pos h, if_pos h, List.map_cons]
    · rw [if_neg h, if_neg h, List.map_cons, ih]

theorem define_cut (levels : Nat) (p : Program) (d : Definition) :
    (p.define d).cut levels = (p.cut levels).define (d.cut levels) := by
  have hn : (d.cut levels).name = d.name := rfl
  have hr : (p.cut levels).redefined = p.redefined := rfl
  have hd : (p.cut levels).definitions = p.definitions.map (Definition.cut levels) := rfl
  unfold define
  rw [hn, find?_cut, Option.isSome_map, hr, hd, ← putDefinition_cut]
  rfl

theorem foldl_define_cut (levels : Nat) (ds : List Definition) : ∀ p : Program,
    (ds.foldl define p).cut levels =
      (ds.map (Definition.cut levels)).foldl define (p.cut levels) := by
  induction ds with
  | nil => exact fun _ => rfl
  | cons d ds ih =>
    intro p
    rw [List.foldl_cons, ih (p.define d), define_cut]
    rfl

/-- Reads a program with a reader of lists of steps. -/
def readBy (readBody : StepsReader) (document : Json) : Except Malformation Program := do
  if !document.isObject then .error ⟨.documentNotObject, []⟩
  let definitions ←
    match document.field "defs" with
    | .null => .ok []
    | .arr raws => readDefinitions readBody 0 raws
    | _ => .error ⟨.definitionsNotArray, [.field "defs"]⟩
  match document.field "steps" with
  | .arr raws =>
    return { definitions.foldl Program.define {} with steps := readBody [.field "steps"] raws }
  | _ => .error ⟨.programWithoutSteps, [.field "steps"]⟩

theorem readWithin_eq (ceiling : Nat) (document : Json) :
    readWithin ceiling document = readBy (readSteps (ceiling + 1)) document := rfl

theorem cut_empty (levels : Nat) : ({} : Program).cut levels = {} := by
  cases levels <;> rfl

/-- **A program that is cut off is read by the reader that cuts off.** -/
theorem readBy_cut (levels : Nat) (readBody : StepsReader) (document : Json) :
    (readBy readBody document).map (cut levels) = readBy (readBody.cut levels) document := by
  have assembled (ds : List Definition) (raws : List Json) :
      ({ ds.foldl define {} with steps := readBody [.field "steps"] raws } : Program).cut levels =
        { (ds.map (Definition.cut levels)).foldl define {} with
          steps := readBody.cut levels [.field "steps"] raws } := by
    have hf := foldl_define_cut levels ds {}
    rw [cut_empty] at hf
    rw [← hf]
    rfl
  have rest (read read' : Except Malformation (List Definition))
      (h : read.map (List.map (Definition.cut levels)) = read') :
      (read >>= fun definitions =>
        match document.field "steps" with
        | .arr raws => .ok
          { definitions.foldl define {} with steps := readBody [.field "steps"] raws }
        | _ => .error ⟨.programWithoutSteps, [.field "steps"]⟩).map (cut levels) =
      read' >>= fun definitions =>
        match document.field "steps" with
        | .arr raws => .ok
          { definitions.foldl define {} with steps := readBody.cut levels [.field "steps"] raws }
        | _ => .error ⟨.programWithoutSteps, [.field "steps"]⟩ := by
    subst h
    cases read with
    | error m => rfl
    | ok ds =>
      cases hs : document.field "steps" with
      | arr raws => exact congrArg Except.ok (assembled ds raws)
      | _ => rfl
  unfold readBy
  cases document.isObject with
  | false => rfl
  | true =>
    cases document.field "defs" with
    | null => exact rest (.ok []) (.ok []) rfl
    | arr raws => exact rest _ _ (readDefinitions_cut levels readBody 0 raws)
    | _ => rfl

/-- Above the depth to which lists of steps may be opened it cannot be told where the ceiling is. -/
theorem readWithin_cut {limits : Limits} {a b : Nat} (ha : limits.maxCallDepth < a)
    (hb : limits.maxCallDepth < b) (document : Json) :
    (readWithin a document).map (cut (limits.maxCallDepth + 1).toNat) =
      (readWithin b document).map (cut (limits.maxCallDepth + 1).toNat) := by
  rw [readWithin_eq, readWithin_eq, readBy_cut, readBy_cut,
    cutSteps_readSteps (a := a + 1) (b := b + 1) (by omega) (by omega)]

/-- Programs that are read under different ceilings are the same above that depth. -/
theorem cut_of_readWithin {limits : Limits} {a b : Nat} (ha : limits.maxCallDepth < a)
    (hb : limits.maxCallDepth < b) {document : Json} {p q : Program}
    (hp : readWithin a document = .ok p) (hq : readWithin b document = .ok q) :
    p.cut (limits.maxCallDepth + 1).toNat = q.cut (limits.maxCallDepth + 1).toNat := by
  have h := readWithin_cut ha hb document
  rw [hp, hq] at h
  exact Except.ok.inj h

/-- What is wrong with a document is the same under every ceiling. -/
theorem readWithin_error {limits : Limits} {a b : Nat} (ha : limits.maxCallDepth < a)
    (hb : limits.maxCallDepth < b) {document : Json} {m : Malformation}
    (h : readWithin a document = .error m) : readWithin b document = .error m := by
  have hcut := readWithin_cut ha hb document
  rw [h] at hcut
  cases hr : readWithin b document with
  | error m' =>
    rw [hr] at hcut
    exact congrArg _ (Except.error.inj hcut).symm
  | ok q =>
    rw [hr] at hcut
    cases hcut

/-! ### Runs -/

/-- **Programs that are read under different ceilings are run alike**, in any state and with any
snapshot, if both ceilings lie above the depth to which lists of steps may be opened. -/
theorem runProgram_readWithin {limits : Limits} {a b : Nat} (ha : limits.maxCallDepth < a)
    (hb : limits.maxCallDepth < b) {document : Json} {p q : Program}
    (hp : readWithin a document = .ok p) (hq : readWithin b document = .ok q)
    (captured : Option Catalog.Snapshot) :
    runProgram { program := p, limits, captured } =
      runProgram { program := q, limits, captured } := by
  have hcut := cut_of_readWithin ha hb hp hq
  let c : RunContext := { program := p, limits, captured }
  let d : RunContext := { program := q, limits, captured }
  calc runProgram c
      = runProgram (c.cut c.maxLevels) := (runProgram_cut (Nat.le_refl c.maxLevels)).symm
    _ = runProgram (d.cut d.maxLevels) :=
        congrArg (fun r => runProgram { program := r, limits, captured }) hcut
    _ = runProgram d := runProgram_cut (Nat.le_refl d.maxLevels)

/-- **The ceiling on the nesting cannot be told from a run.** Where lists of steps may be opened
less deep than the usual ceiling lies, a document read under it, and under any higher one,

* is malformed in the same way, or is a program both times, with the same names defined again;
* and then the two programs are run alike, in every catalog and also when there is a state already:
  they end well or with the same rejection, with the same blocks, work and events. -/
theorem nesting_ceiling_unseen {ceiling : Nat} (hc : maxStepNesting ≤ ceiling) {limits : Limits}
    (hd : limits.maxCallDepth < maxStepNesting) (document : Json) :
    (∀ m, read document = .error m ↔ readWithin ceiling document = .error m) ∧
    ∀ p q, read document = .ok p → readWithin ceiling document = .ok q →
      p.redefined = q.redefined ∧
      (∀ ledger, p.run limits ledger = q.run limits ledger ∧
        p.expand limits ledger = q.expand limits ledger) ∧
      ∀ captured s, runProgram { program := p, limits, captured } s =
        runProgram { program := q, limits, captured } s := by
  have hceiling : limits.maxCallDepth < ceiling := by omega
  refine ⟨fun m => ⟨readWithin_error hd hceiling, readWithin_error hceiling hd⟩, ?_⟩
  intro p q hp hq
  have hrun := runProgram_readWithin hd hceiling hp hq
  have hcut := cut_of_readWithin hd hceiling hp hq
  have hredefined := congrArg redefined hcut
  refine ⟨hredefined, fun ledger => ?_, fun captured s => congrFun (hrun captured) s⟩
  have h : p.run limits ledger = q.run limits ledger := congrFun (hrun _) _
  exact ⟨h, by rw [expand_eq, expand_eq, h]⟩

/-- So many loops of one value, one inside the other, of which the innermost has an empty body. -/
def nestedLoops : Nat → Json
  | 0 => .arr []
  | n + 1 => .arr
    [.obj [("op", .str "for"), ("var", .str "i"), ("from", .int 0), ("to", .int 0),
      ("steps", nestedLoops n)]]

/-- The innermost of these loops has its empty body just below the usual ceiling. -/
theorem nesting_ceiling_unseen_loops :
    maxStepNesting ≤ 200 ∧ (127 : Int) < maxStepNesting ∧
    ∃ p q, read (.obj [("steps", nestedLoops 129)]) = .ok p ∧
      readWithin 200 (.obj [("steps", nestedLoops 129)]) = .ok q ∧
      p.run { maxCallDepth := 127 } quarry = q.run { maxCallDepth := 127 } quarry := by
  let limits : Limits := { maxCallDepth := 127 }
  have hc : maxStepNesting ≤ 200 := by decide
  have hd : limits.maxCallDepth < maxStepNesting := by decide
  obtain ⟨-, h⟩ := nesting_ceiling_unseen hc hd (.obj [("steps", nestedLoops 129)])
  obtain ⟨-, hrun, -⟩ := h _ _ rfl rfl
  exact ⟨hc, hd, _, _, rfl, rfl, (hrun quarry).1⟩

/-- At the limit itself a ceiling shows: the step that stands in for the empty body is come to. -/
example :
    (readWithin 0 (.obj [("steps", nestedLoops 1)])).toOption.map
        (·.run { maxCallDepth := 0 } quarry) =
      some (.error (.runaway .callDepth 0)
        { ledger := quarry, work := { steps := 1, iterations := 1, levels := 2 } }) ∧
    (readWithin 1 (.obj [("steps", nestedLoops 1)])).toOption.map
        (·.run { maxCallDepth := 0 } quarry) =
      some (.ok ()
        { ledger := quarry.record (.programRun 0 1 0), work := { steps := 1, levels := 1 } }) := by
  decide +kernel

end Program
end VoxelBlueprint
