/-
# Every defect is found, and found once

What is wrong with a step is a defect of that step alone: a loop does not answer for the steps
inside it. A step has its place in the document: the list of steps that it belongs to, and a route
to it through the bodies of loops. The defects that are found are those of all steps, in the order
of these places, and where a step has several of them they come in the order of its parts, which
are the parameters of what it calls or the coordinates of its block.

Key definitions: `StandsAt`, `Program.HasDefect`, `Finding`, `Finding.Before`, `Program.FindsIn`.
Key theorems: `mem_walk`, `pairwise_walk`, `Program.mem_ownDefects`, `Program.mem_findings`,
`Program.pairwise_findings`, `Program.defects_eq_findings`.
-/
import Mathlib.Data.List.Basic
import VoxelBlueprint.Program.Validation

namespace VoxelBlueprint

/-! ### Places -/

/-- The way to a step from a list of steps: its index, or the index of a loop and the way from the
body of this loop. -/
abbrev Route := List Nat

/-- Whether a step stands at the end of a route from a list of steps. -/
inductive StandsAt : List Step → Route → Step → Prop where
  | here {steps : List Step} {i : Nat} {step : Step} :
    steps[i]? = some step → StandsAt steps [i] step
  | inside {steps body : List Step} {i : Nat} {counter : String} {start stop stride : Json}
    {route : Route} {step : Step} :
    steps[i]? = some (.loop counter start stop stride body) → StandsAt body route step →
      StandsAt steps (i :: route) step

mutual

/-- A step and the steps inside it, each with its route from there. -/
def walkStep : Step → List (Route × Step)
  | .loop counter start stop stride body =>
    ([], .loop counter start stop stride body) :: walkFrom 0 body
  | step => [([], step)]

/-- The steps of a list and the steps inside them, each with its route, when the first step of the
list has the given index. -/
def walkFrom : Nat → List Step → List (Route × Step)
  | _, [] => []
  | i, step :: rest => ((walkStep step).map fun a => (i :: a.1, a.2)) ++ walkFrom (i + 1) rest

end

/-- The steps of a list and the steps inside them, each with its route, in the order of the
document. -/
def walk (steps : List Step) : List (Route × Step) :=
  walkFrom 0 steps

theorem mem_walkStep {step inner : Step} {route : Route} :
    (route, inner) ∈ walkStep step ↔ (route = [] ∧ inner = step) ∨
      ∃ counter start stop stride body, step = .loop counter start stop stride body ∧
        (route, inner) ∈ walk body := by
  cases step with
  | loop counter start stop stride body =>
    rw [walkStep, List.mem_cons, Prod.mk.injEq]
    refine or_congr_right ⟨fun h => ⟨_, _, _, _, _, rfl, h⟩, ?_⟩
    rintro ⟨_, _, _, _, _, he, h⟩
    cases he
    exact h
  | _ => simp [walkStep]

theorem mem_walkFrom {inner : Step} {route : Route} : ∀ {steps : List Step} {k : Nat},
    (route, inner) ∈ walkFrom k steps ↔
      ∃ i step r, steps[i]? = some step ∧ route = (k + i) :: r ∧ (r, inner) ∈ walkStep step
  | [], k => by simp [walkFrom]
  | step :: steps, k => by
    rw [walkFrom, List.mem_append, mem_walkFrom, List.mem_map]
    constructor
    · rintro (⟨⟨r, _⟩, hr, he⟩ | ⟨i, step', r, hi, he, hr⟩)
      · cases he
        exact ⟨0, step, r, rfl, rfl, hr⟩
      · exact ⟨i + 1, step', r, hi, by rw [he, Nat.add_assoc, Nat.add_comm 1], hr⟩
    · rintro ⟨i, step', r, hi, he, hr⟩
      cases i with
      | zero =>
        cases hi
        exact .inl ⟨(r, inner), hr, by rw [he]; rfl⟩
      | succ i => exact .inr ⟨i, step', r, hi, by rw [he, Nat.add_assoc, Nat.add_comm 1], hr⟩

/-- The steps that are walked to are those that stand somewhere, each at its route. -/
theorem mem_walk {step : Step} : ∀ {route : Route} {steps : List Step},
    (route, step) ∈ walk steps ↔ StandsAt steps route step
  | [], steps => by
    rw [walk, mem_walkFrom]
    constructor
    · rintro ⟨_, _, _, _, he, _⟩
      cases he
    · rintro ⟨⟩
  | i :: route, steps => by
    rw [walk, mem_walkFrom]
    constructor
    · rintro ⟨j, step', r, hj, he, hr⟩
      rw [Nat.zero_add, List.cons.injEq] at he
      obtain ⟨rfl, rfl⟩ := he
      rcases mem_walkStep.mp hr with ⟨rfl, rfl⟩ | ⟨_, _, _, _, body, rfl, hbody⟩
      · exact .here hj
      · exact .inside hj (mem_walk.mp hbody)
    · intro h
      cases h with
      | here hi => exact ⟨i, step, [], hi, by rw [Nat.zero_add], mem_walkStep.mpr (.inl ⟨rfl, rfl⟩)⟩
      | inside hi hbody =>
        exact ⟨i, _, route, hi, by rw [Nat.zero_add],
          mem_walkStep.mpr (.inr ⟨_, _, _, _, _, rfl, mem_walk.mpr hbody⟩)⟩

mutual

theorem pairwise_walkStep : ∀ step : Step, (walkStep step).Pairwise fun a b => a.1 < b.1
  | .loop counter start stop stride body => by
    rw [walkStep, List.pairwise_cons]
    refine ⟨fun a ha => ?_, pairwise_walkFrom 0 body⟩
    -- the check of the loop itself comes before every step of its body
    obtain ⟨i, step, r, -, he, -⟩ := mem_walkFrom.mp (show (a.1, a.2) ∈ walkFrom 0 body from ha)
    rw [he]
    exact List.nil_lt_cons _ _
  | .place _ _ _ _ => List.pairwise_singleton _ _
  | .call _ _ => List.pairwise_singleton _ _
  | .invalid _ => List.pairwise_singleton _ _

theorem pairwise_walkFrom : ∀ (k : Nat) (steps : List Step),
    (walkFrom k steps).Pairwise fun a b => a.1 < b.1
  | _, [] => List.Pairwise.nil
  | k, step :: steps => by
    rw [walkFrom, List.pairwise_append]
    refine ⟨?_, pairwise_walkFrom (k + 1) steps, ?_⟩
    · rw [List.pairwise_map]
      exact (pairwise_walkStep step).imp fun h => List.cons_lt_cons_iff.mpr (.inr ⟨rfl, h⟩)
    · intro a ha b hb
      obtain ⟨a', -, rfl⟩ := List.mem_map.mp ha
      obtain ⟨i, step', r, -, he, -⟩ :=
        mem_walkFrom.mp (show (b.1, b.2) ∈ walkFrom (k + 1) steps from hb)
      rw [he]
      exact List.cons_lt_cons_iff.mpr (.inl (by omega))

end

/-- Every step is walked to once, in the order of the document. -/
theorem pairwise_walk (steps : List Step) : (walk steps).Pairwise fun a b => a.1 < b.1 :=
  pairwise_walkFrom 0 steps

/-! ### Defects of a step -/

/-- Whether a stride is zero as it is written: a number that truncates to zero, or one of three
texts with blanks around it. -/
def Json.IsZeroLiteral : Json → Prop
  | .int n => n = 0
  | .float x => x.truncate? = some 0
  | .str text => Text.stripped text ∈ ["0", "+0", "-0"]
  | _ => False

/-- The coordinate of a block on an axis. -/
def Axis.select (x y z : Json) : Axis → Json
  | .x => x
  | .y => y
  | .z => z

/-- The place of an axis among the axes. -/
def Axis.index : Axis → Nat
  | .x => 0
  | .y => 1
  | .z => 2

namespace Program

/-- What is wrong with a step by itself, and with which part of it. -/
inductive HasDefect (p : Program) : Step → Nat → Defect → Prop where
  | unknownCallee {callee : String} {arguments : List (String × Json)} :
    (∀ d ∈ p.definitions, d.name ≠ callee) →
      HasDefect p (.call callee arguments) 0 (.unknownCallee callee)
  | missingParameter {callee q : String} {arguments : List (String × Json)} {d : Definition}
    {i : Nat} :
    p.find? callee = some d → d.parameters[i]? = some q → (∀ value, (q, value) ∉ arguments) →
      HasDefect p (.call callee arguments) i (.missingParameter callee q)
  | zeroStride {counter : String} {start stop stride : Json} {body : List Step} :
    stride.IsZeroLiteral →
      HasDefect p (.loop counter start stop stride body) 0 (.zeroStride counter)
  | nonFiniteStride {counter : String} {start stop : Json} {x : Binary64} {body : List Step} :
    x.isFinite = false →
      HasDefect p (.loop counter start stop (.float x) body) 0 (.nonFiniteStride counter x)
  | missingCoordinate {x y z blockType : Json} (axis : Axis) :
    axis.select x y z = .null →
      HasDefect p (.place x y z blockType) axis.index (.missingCoordinate axis)
  | invalid {malformation : Malformation} :
    HasDefect p (.invalid malformation) 0 (.invalid malformation)

/-- The defects of a call, each with the parameter that it is about, when the callee has the given
definition. -/
def callDefectsOf (callee : String) (arguments : List (String × Json)) :
    Option Definition → List (Nat × Defect)
  | none => [(0, .unknownCallee callee)]
  | some d =>
    (d.parameters.zipIdx.filter fun q => (arguments.lookup q.1).isNone).map fun q =>
      (q.2, .missingParameter callee q.1)

/-- The defects of a step by itself, each with the part of the step that has it. -/
def ownDefects (p : Program) : Step → List (Nat × Defect)
  | .place x y z _ =>
    (coordinateDefects .x x).map (0, ·) ++ (coordinateDefects .y y).map (1, ·) ++
      (coordinateDefects .z z).map (2, ·)
  | .loop counter _ _ stride _ => (strideDefects counter stride).map (0, ·)
  | .call callee arguments => callDefectsOf callee arguments (p.find? callee)
  | .invalid malformation => [(0, .invalid malformation)]

end Program

theorem mem_coordinateDefects {axis : Axis} {value : Json} {defect : Defect} :
    defect ∈ coordinateDefects axis value ↔ value = .null ∧ defect = .missingCoordinate axis := by
  cases value <;> simp [coordinateDefects, Json.isNull]

theorem coordinateDefects_cases (axis : Axis) (value : Json) :
    coordinateDefects axis value = [] ∨
      coordinateDefects axis value = [.missingCoordinate axis] := by
  unfold coordinateDefects
  split
  · exact .inr rfl
  · exact .inl rfl

theorem mem_strideDefects {counter : String} {stride : Json} {defect : Defect} :
    defect ∈ strideDefects counter stride ↔
      (stride.IsZeroLiteral ∧ defect = .zeroStride counter) ∨
        ∃ x, stride = .float x ∧ x.isFinite = false ∧ defect = .nonFiniteStride counter x := by
  unfold Json.IsZeroLiteral
  cases stride with
  | int n => by_cases h : n = 0 <;> simp [strideDefects, h]
  | float x =>
    cases x with
    | finite value =>
      by_cases h : value.truncate = 0 <;>
        simp [strideDefects, Binary64.truncate?, Binary64.isFinite, h]
    | _ => simp [strideDefects, Binary64.truncate?, Binary64.isFinite]
  | str text => by_cases h : Text.stripped text ∈ ["0", "+0", "-0"] <;> simp [strideDefects, h]
  | _ => simp [strideDefects]

theorem strideDefects_cases (counter : String) (stride : Json) :
    strideDefects counter stride = [] ∨ ∃ defect, strideDefects counter stride = [defect] := by
  unfold strideDefects
  split
  · split
    · exact .inr ⟨_, rfl⟩
    · exact .inl rfl
  · split
    · split
      · exact .inr ⟨_, rfl⟩
      · exact .inl rfl
    · exact .inr ⟨_, rfl⟩
  · split
    · exact .inr ⟨_, rfl⟩
    · exact .inl rfl
  · exact .inl rfl

theorem isNone_lookup {name : String} {arguments : List (String × Json)} :
    (arguments.lookup name).isNone = true ↔ ∀ value, (name, value) ∉ arguments := by
  rw [Option.isNone_iff_eq_none, List.lookup_eq_none_iff]
  constructor
  · intro h value hm
    simpa using h _ hm
  · rintro h ⟨other, value⟩ hm
    rw [bne_iff_ne]
    rintro rfl
    exact h value hm

namespace Program

variable {p : Program}

/-- A call of a name that is not defined, or of a definition without some of its parameters. -/
theorem mem_callDefectsOf {callee : String} {arguments : List (String × Json)} {part : Nat}
    {defect : Defect} {d? : Option Definition} :
    (part, defect) ∈ callDefectsOf callee arguments d? ↔
      (d? = none ∧ part = 0 ∧ defect = .unknownCallee callee) ∨
        ∃ d q, d? = some d ∧ d.parameters[part]? = some q ∧
          (∀ value, (q, value) ∉ arguments) ∧ defect = .missingParameter callee q := by
  cases d? with
  | none => simp [callDefectsOf]
  | some d =>
    rw [callDefectsOf, List.mem_map]
    constructor
    · rintro ⟨⟨q, i⟩, hq, he⟩
      cases he
      obtain ⟨hq, hnone⟩ := List.mem_filter.mp hq
      exact .inr ⟨d, q, rfl, List.mem_zipIdx_iff_getElem?.mp hq, isNone_lookup.mp hnone, rfl⟩
    · rintro (⟨⟨⟩, -⟩ | ⟨d', q, he, hq, hnone, rfl⟩)
      cases he
      exact ⟨(q, part), List.mem_filter.mpr
        ⟨List.mem_zipIdx_iff_getElem?.mpr hq, isNone_lookup.mpr hnone⟩, rfl⟩

theorem pairwise_callDefectsOf (callee : String) (arguments : List (String × Json))
    (d? : Option Definition) :
    (callDefectsOf callee arguments d?).Pairwise fun a b => a.1 < b.1 := by
  cases d? with
  | none => exact List.pairwise_singleton _ _
  | some d =>
    refine List.pairwise_map.mpr (List.Pairwise.filter _ ?_)
    rw [← List.pairwise_map (f := Prod.snd) (R := (· < ·)), List.zipIdx_map_snd]
    exact List.pairwise_lt_range'

/-- The defects of a call are those that are found in it. -/
theorem map_callDefectsOf (p : Program) (callee : String) (arguments : List (String × Json)) :
    (callDefectsOf callee arguments (p.find? callee)).map (·.2) =
      callDefects p callee arguments := by
  unfold callDefects
  cases p.find? callee with
  | none => rfl
  | some d =>
    have hzip : d.parameters.zipIdx.map (·.1) = d.parameters := List.zipIdx_map_fst 0 _
    dsimp only
    rw [callDefectsOf, List.map_map, ← hzip, List.filter_map, List.map_map, hzip]
    rfl

theorem find?_eq_none {callee : String} :
    p.find? callee = none ↔ ∀ d ∈ p.definitions, d.name ≠ callee := by
  simp [find?, List.find?_eq_none]

/-- The defects of a step by itself are found, each with the part that has it. -/
theorem mem_ownDefects {step : Step} {part : Nat} {defect : Defect} :
    (part, defect) ∈ p.ownDefects step ↔ p.HasDefect step part defect := by
  cases step with
  | place x y z blockType =>
    simp only [ownDefects, List.mem_append, List.mem_map, Prod.mk.injEq, mem_coordinateDefects]
    constructor
    · rintro ((⟨_, ⟨h, rfl⟩, rfl, rfl⟩ | ⟨_, ⟨h, rfl⟩, rfl, rfl⟩) | ⟨_, ⟨h, rfl⟩, rfl, rfl⟩)
      · exact .missingCoordinate .x h
      · exact .missingCoordinate .y h
      · exact .missingCoordinate .z h
    · rintro ⟨⟩
      rename_i axis h
      cases axis with
      | x => exact .inl (.inl ⟨_, ⟨h, rfl⟩, rfl, rfl⟩)
      | y => exact .inl (.inr ⟨_, ⟨h, rfl⟩, rfl, rfl⟩)
      | z => exact .inr ⟨_, ⟨h, rfl⟩, rfl, rfl⟩
  | loop counter start stop stride body =>
    simp only [ownDefects, List.mem_map, Prod.mk.injEq, mem_strideDefects]
    constructor
    · rintro ⟨_, ⟨h, rfl⟩ | ⟨x, rfl, h, rfl⟩, rfl, rfl⟩
      · exact .zeroStride h
      · exact .nonFiniteStride h
    · intro h
      cases h with
      | zeroStride h => exact ⟨_, .inl ⟨h, rfl⟩, rfl, rfl⟩
      | nonFiniteStride h => exact ⟨_, .inr ⟨_, rfl, h, rfl⟩, rfl, rfl⟩
  | call callee arguments =>
    rw [ownDefects, mem_callDefectsOf]
    constructor
    · rintro (⟨hd, rfl, rfl⟩ | ⟨d, q, hd, hq, hnone, rfl⟩)
      · exact .unknownCallee (find?_eq_none.mp hd)
      · exact .missingParameter hd hq hnone
    · intro h
      cases h with
      | unknownCallee hd => exact .inl ⟨find?_eq_none.mpr hd, rfl, rfl⟩
      | missingParameter hd hq hnone => exact .inr ⟨_, _, hd, hq, hnone, rfl⟩
  | invalid malformation =>
    rw [ownDefects, List.mem_singleton, Prod.mk.injEq]
    constructor
    · rintro ⟨rfl, rfl⟩
      exact .invalid
    · rintro ⟨⟩
      exact ⟨rfl, rfl⟩

theorem pairwise_ownDefects (step : Step) : (p.ownDefects step).Pairwise fun a b => a.1 < b.1 := by
  cases step with
  | place x y z blockType =>
    unfold ownDefects
    rcases coordinateDefects_cases .x x with hx | hx <;>
      rcases coordinateDefects_cases .y y with hy | hy <;>
        rcases coordinateDefects_cases .z z with hz | hz <;> simp [hx, hy, hz]
  | loop counter start stop stride body =>
    unfold ownDefects
    rcases strideDefects_cases counter stride with h | ⟨defect, h⟩ <;> simp [h]
  | call callee arguments => exact pairwise_callDefectsOf _ _ _
  | invalid malformation => exact List.pairwise_singleton _ _

/-! ### Defects of lists of steps -/

theorem map_numbered (part : Nat) (defects : List Defect) :
    (defects.map fun d => (part, d)).map (·.2) = defects := by
  simp [List.map_map, Function.comp_def]

mutual

theorem defectsOfStep_eq_walk : ∀ step : Step, defectsOfStep p step =
    (walkStep step).flatMap fun a => (p.ownDefects a.2).map (·.2)
  | .loop counter start stop stride body => by
    rw [walkStep, List.flatMap_cons, defectsOfStep, defectsOf_eq_walk 0 body, ownDefects,
      map_numbered]
  | .place x y z blockType => by
    simp only [walkStep, List.flatMap_singleton, ownDefects, List.map_append, map_numbered]
    rfl
  | .call callee arguments => by
    rw [walkStep, List.flatMap_singleton, ownDefects, map_callDefectsOf, defectsOfStep]
    all_goals exact nofun
  | .invalid malformation => rfl

theorem defectsOf_eq_walk : ∀ (k : Nat) (steps : List Step), defectsOf p steps =
    (walkFrom k steps).flatMap fun a => (p.ownDefects a.2).map (·.2)
  | _, [] => rfl
  | k, step :: steps => by
    rw [defectsOf, walkFrom, List.flatMap_append, List.flatMap_map, ← defectsOfStep_eq_walk step,
      ← defectsOf_eq_walk (k + 1) steps]

end

end Program

/-! ### Findings -/

/-- A defect with the place where it was found. -/
structure Finding where
  /-- How many lists of steps come before the one that it was found in. -/
  number : Nat
  site : Site
  /-- The route to the step that has it. -/
  route : Route
  /-- The part of the step that has it. -/
  part : Nat
  defect : Defect

namespace Finding

/-- Whether a finding comes before another one in the document. -/
def Before (f g : Finding) : Prop :=
  f.number < g.number ∨
    f.number = g.number ∧ (f.route < g.route ∨ f.route = g.route ∧ f.part < g.part)

/-- A finding in words. -/
def text (f : Finding) : String :=
  s!"{f.site.name}: {f.defect.message}"

end Finding

namespace Program

variable {p : Program}

/-- Whether a step stands at the place of a finding in a program, and has the defect there. -/
def FindsIn (p : Program) (f : Finding) (step : Step) : Prop :=
  ∃ steps, p.sites[f.number]? = some (f.site, steps) ∧ StandsAt steps f.route step ∧
    p.HasDefect step f.part f.defect

/-- The findings in the list of steps with the given number. -/
def findingsIn (p : Program) (number : Nat) (site : Site × List Step) : List Finding :=
  (walk site.2).flatMap fun a => (p.ownDefects a.2).map fun d =>
    { number, site := site.1, route := a.1, part := d.1, defect := d.2 }

/-- All findings about a program. -/
def findings (p : Program) : List Finding :=
  p.sites.zipIdx.flatMap fun site => p.findingsIn site.2 site.1

theorem mem_findingsIn {number : Nat} {site : Site × List Step} {f : Finding} :
    f ∈ p.findingsIn number site ↔ f.number = number ∧ f.site = site.1 ∧
      ∃ step, StandsAt site.2 f.route step ∧ p.HasDefect step f.part f.defect := by
  unfold findingsIn
  rw [List.mem_flatMap]
  constructor
  · rintro ⟨⟨route, step⟩, hwalk, hf⟩
    obtain ⟨⟨part, defect⟩, hd, rfl⟩ := List.mem_map.mp hf
    exact ⟨rfl, rfl, step, mem_walk.mp hwalk, mem_ownDefects.mp hd⟩
  · rintro ⟨rfl, hs, step, hwalk, hd⟩
    exact ⟨(f.route, step), mem_walk.mpr hwalk,
      List.mem_map.mpr ⟨(f.part, f.defect), mem_ownDefects.mpr hd, by rw [← hs]⟩⟩

/-- The findings are the defects that steps of the program have, each with its place. -/
theorem mem_findings {f : Finding} : f ∈ p.findings ↔ ∃ step, p.FindsIn f step := by
  unfold findings
  rw [List.mem_flatMap]
  constructor
  · rintro ⟨⟨site, number⟩, hsite, hf⟩
    obtain ⟨rfl, hs, step, hwalk, hd⟩ := mem_findingsIn.mp hf
    refine ⟨step, site.2, ?_, hwalk, hd⟩
    rw [hs]
    exact List.mem_zipIdx_iff_getElem?.mp hsite
  · rintro ⟨step, steps, hsite, hwalk, hd⟩
    exact ⟨((f.site, steps), f.number), List.mem_zipIdx_iff_getElem?.mpr hsite,
      mem_findingsIn.mpr ⟨rfl, rfl, step, hwalk, hd⟩⟩

theorem pairwise_findingsIn (number : Nat) (site : Site × List Step) :
    (p.findingsIn number site).Pairwise Finding.Before := by
  refine List.pairwise_flatMap.mpr ⟨fun a _ => ?_, ?_⟩
  · exact List.pairwise_map.mpr
      ((pairwise_ownDefects a.2).imp fun h => .inr ⟨rfl, .inr ⟨rfl, h⟩⟩)
  · refine (pairwise_walk site.2).imp fun {a b} h f hf g hg => ?_
    obtain ⟨_, -, rfl⟩ := List.mem_map.mp hf
    obtain ⟨_, -, rfl⟩ := List.mem_map.mp hg
    exact .inr ⟨rfl, .inl h⟩

/-- The findings come in the order of the document, and none comes twice. -/
theorem pairwise_findings (p : Program) : p.findings.Pairwise Finding.Before := by
  refine List.pairwise_flatMap.mpr ⟨fun site _ => pairwise_findingsIn site.2 site.1, ?_⟩
  have hnumbers : p.sites.zipIdx.Pairwise fun a b => a.2 < b.2 := by
    rw [← List.pairwise_map (f := Prod.snd) (R := (· < ·)), List.zipIdx_map_snd]
    exact List.pairwise_lt_range'
  refine hnumbers.imp fun {a b} h f hf g hg => .inl ?_
  rw [(mem_findingsIn.mp hf).1, (mem_findingsIn.mp hg).1]
  exact h

/-- The findings in a list of steps are its defects. -/
theorem map_findingsIn (number : Nat) (site : Site × List Step) :
    (p.findingsIn number site).map (fun f => (f.site, f.defect)) =
      (defectsOf p site.2).map fun defect => (site.1, defect) := by
  unfold findingsIn
  rw [defectsOf_eq_walk 0, List.map_flatMap, List.map_flatMap]
  refine List.flatMap_congr fun a _ => ?_
  rw [List.map_map, List.map_map]
  rfl

/-- The defects of a program are its findings. -/
theorem defects_eq_findings (p : Program) :
    p.defects = p.findings.map fun f => (f.site, f.defect) := by
  have hzip : p.sites.zipIdx.map (·.1) = p.sites := List.zipIdx_map_fst 0 _
  unfold defects findings
  rw [List.map_flatMap, ← hzip, List.flatMap_map, hzip]
  exact List.flatMap_congr fun site _ => (map_findingsIn site.2 site.1).symm

/-- **Every defect of a program is found, and found once**, in the order of the document. -/
theorem errorTexts_eq_findings (p : Program) : p.errorTexts = p.findings.map Finding.text := by
  rw [errorTexts, defects_eq_findings, List.map_map]
  rfl

end Program
end VoxelBlueprint
