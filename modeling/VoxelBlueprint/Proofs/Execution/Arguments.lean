/-
# The arguments of calls

Arguments are bound by their names and by nothing else. What a call passes in addition to the
parameters that a definition declares is not looked at, and in which order arguments are written
decides only which of several faults is found first. So a program in which arguments are left out
or reordered runs to the same end: with a simulation of the runs in which the scopes need not be
the same lists of bindings, but have the same value for every name.

Reordered arguments may fail otherwise than before, so the simulation is told what is seen of a
rejection: everything if arguments are only left out, nothing if they are reordered.

Key definitions: `Varied`, `Program.Trims`, `Program.Rearranges`, `Executor.VariedBy`.
Key theorems: `bindArguments_perm`, `execute_varied`, `runProgram_varied`,
`Program.arguments_bound_by_name`.
-/
import VoxelBlueprint.Proofs.Execution.Repairs
import VoxelBlueprint.Proofs.Expression.Scopes

namespace VoxelBlueprint

open Effects

/-! ### Values in scopes that bind alike -/

section Same

variable {limits : Limits} {scope scope' : Scope}

theorem integerAt_same (h : scope.Same scope') :
    integerAt limits scope' = integerAt limits scope := by
  funext path value
  unfold integerAt
  rw [Expression.coerce_same h]

theorem argumentAt_same (h : scope.Same scope') :
    argumentAt limits scope' = argumentAt limits scope := by
  funext path value
  unfold argumentAt
  rw [Expression.coerceArgument_same h]

theorem coordinatesAt_same (h : scope.Same scope') :
    coordinatesAt limits scope' = coordinatesAt limits scope := by
  funext path x y z
  unfold coordinatesAt
  rw [integerAt_same h]

theorem loopRange_same (h : scope.Same scope') :
    loopRange limits scope' = loopRange limits scope := by
  funext start stop stride
  unfold loopRange
  rw [integerAt_same h]

theorem bindArguments_same (h : scope.Same scope') (callee : String) :
    ∀ asked, bindArguments limits scope' callee asked = bindArguments limits scope callee asked
  | [] => rfl
  | (_, none) :: _ => rfl
  | (_, some _) :: asked => by
    rw [bindArguments, bindArguments, argumentAt_same h, bindArguments_same h callee asked]

theorem place_same (h : scope.Same scope') (c : RunContext) (x y z : Int) (blockType : Json)
    (s : RunState) : s.place c scope' x y z blockType = s.place c scope x y z blockType := by
  unfold RunState.place Ledger.blockFor
  rw [Catalog.requestedId_same h]

end Same

/-! ### What a call binds -/

section Bindings

variable {limits : Limits} {scope : Scope} {callee : String} {bindings : Scope}

theorem names_bindArguments : ∀ {asked : List (String × Option Json)} {bindings : Scope},
    bindArguments limits scope callee asked = .ok bindings →
      bindings.map (·.1) = asked.map (·.1)
  | [], _, h => by
    cases h
    rfl
  | (name, some value) :: asked, _, h => by
    obtain ⟨argument, -, h⟩ := bind_eq_ok h
    obtain ⟨bindings, hb, h⟩ := bind_eq_ok h
    cases h
    exact congrArg (name :: ·) (names_bindArguments hb)

theorem bindArguments_cons_eq_ok {name : String} {value : Option Json}
    {asked : List (String × Option Json)} :
    bindArguments limits scope callee ((name, value) :: asked) = .ok bindings ↔
      ∃ raw argument rest, value = some raw ∧
        argumentAt limits scope
          [.field "call", .field callee, .field "args", .field name] raw = .ok argument ∧
        bindArguments limits scope callee asked = .ok rest ∧
        bindings = (name, argument) :: rest := by
  cases value with
  | none => simp [bindArguments]
  | some raw =>
    constructor
    · intro h
      obtain ⟨argument, ha, h⟩ := bind_eq_ok h
      obtain ⟨rest, hb, h⟩ := bind_eq_ok h
      cases h
      exact ⟨raw, argument, rest, rfl, ha, hb, rfl⟩
    · rintro ⟨_, argument, rest, ⟨⟩, ha, hb, rfl⟩
      rw [bindArguments, ha, hb]
      rfl

/-- **Arguments are bound in any order if they are bound in one.** -/
theorem bindArguments_perm {asked asked' : List (String × Option Json)} (h : asked.Perm asked') :
    ∀ {bindings : Scope}, bindArguments limits scope callee asked = .ok bindings →
      ∃ bindings', bindArguments limits scope callee asked' = .ok bindings' ∧
        bindings.Perm bindings' := by
  induction h with
  | nil => exact fun hb => ⟨_, hb, .refl _⟩
  | cons entry _ ih =>
    intro bindings hb
    obtain ⟨raw, argument, rest, hvalue, ha, hrest, rfl⟩ := bindArguments_cons_eq_ok.mp hb
    obtain ⟨rest', hrest', hperm⟩ := ih hrest
    exact ⟨_, bindArguments_cons_eq_ok.mpr ⟨raw, argument, rest', hvalue, ha, hrest', rfl⟩,
      hperm.cons _⟩
  | swap entry entry' asked =>
    intro bindings hb
    obtain ⟨raw', argument', _, hvalue', ha', hfront, rfl⟩ := bindArguments_cons_eq_ok.mp hb
    obtain ⟨raw, argument, rest, hvalue, ha, hrest, rfl⟩ := bindArguments_cons_eq_ok.mp hfront
    have hback := bindArguments_cons_eq_ok.mpr ⟨raw', argument', rest, hvalue', ha', hrest, rfl⟩
    exact ⟨_, bindArguments_cons_eq_ok.mpr ⟨raw, argument, _, hvalue, ha, hback, rfl⟩, .swap _ _ _⟩
  | trans _ _ ih ih' =>
    intro bindings hb
    obtain ⟨_, hmiddle, hperm⟩ := ih hb
    obtain ⟨_, hlast, hperm'⟩ := ih' hmiddle
    exact ⟨_, hlast, hperm.trans hperm'⟩

/-- A definition that declares parameters asks for these. -/
theorem askedArguments_of_declared {d : Definition} (hd : d.parameters ≠ [])
    (arguments : List (String × Json)) : askedArguments d arguments =
      d.parameters.map fun name => (name, arguments.lookup name) := by
  have hempty : ¬ d.parameters.isEmpty = true := by simpa using hd
  unfold askedArguments
  rw [if_neg hempty]

/-- Entries that are left out are not those of a name if all of this name are kept. -/
theorem lookup_filter_keep {keep : String × Json → Bool} {name : String} :
    ∀ {entries : List (String × Json)}, (∀ entry ∈ entries, entry.1 = name → keep entry = true) →
      (entries.filter keep).lookup name = entries.lookup name
  | [], _ => rfl
  | (n, value) :: entries, h => by
    have ih := lookup_filter_keep fun entry he => h entry (List.mem_cons_of_mem _ he)
    rw [List.lookup_cons, List.filter_cons]
    by_cases hn : name = n
    · rw [if_pos (h (n, value) List.mem_cons_self hn.symm), List.lookup_cons]
      simp [hn]
    · have hb : (name == n) = false := beq_eq_false_iff_ne.mpr hn
      split <;> simp [List.lookup_cons, hb, ih]

end Bindings

/-! ### Programs with other arguments -/

/-- Whether steps come from others by changes to the arguments of calls, each of them allowed for
its callee. -/
inductive Varied (R : String → List (String × Json) → List (String × Json) → Prop) :
    List Step → List Step → Prop
  | nil : Varied R [] []
  | keep (step : Step) {steps steps' : List Step} : Varied R steps steps' →
    Varied R (step :: steps) (step :: steps')
  | loop (counter : String) (start stop stride : Json) {body body' steps steps' : List Step} :
    Varied R body body' → Varied R steps steps' →
    Varied R (.loop counter start stop stride body :: steps)
      (.loop counter start stop stride body' :: steps')
  | call (callee : String) {arguments arguments' : List (String × Json)}
    {steps steps' : List Step} : R callee arguments arguments' → Varied R steps steps' →
    Varied R (.call callee arguments :: steps) (.call callee arguments' :: steps')

section Variations

variable {R : String → List (String × Json) → List (String × Json) → Prop}

theorem Varied.refl : ∀ steps : List Step, Varied R steps steps
  | [] => .nil
  | step :: steps => .keep step (refl steps)

theorem Varied.isEmpty {steps steps' : List Step} (h : Varied R steps steps') :
    steps'.isEmpty = steps.isEmpty := by
  cases h <;> rfl

variable (R)

/-- Whether the steps of a definition come from others in this way. -/
structure Definition.Varied (d d' : Definition) : Prop where
  name : d'.name = d.name
  parameters : d'.parameters = d.parameters
  steps : VoxelBlueprint.Varied R d.steps d'.steps

/-- Whether a program comes from another one in this way. -/
structure Program.Varied (p p' : Program) : Prop where
  steps : VoxelBlueprint.Varied R p.steps p'.steps
  definitions : List.Forall₂ (Definition.Varied R) p.definitions p'.definitions

end Variations

/-! ### The execution with other arguments -/

section Execution

variable {ρ : Type}

/-- What is seen of the end of an execution if of its rejection only something is seen. -/
def seen (view : Rejection → ρ) :
    EStateM.Result Rejection RunState Unit → EStateM.Result ρ RunState Unit
  | .ok _ s => .ok () s
  | .error r s => .error (view r) s

/-- What follows executions of which the same is seen. -/
theorem seen_then {view : Rejection → ρ} {x x' : EStateM.Result Rejection RunState Unit}
    {k k' : RunState → EStateM.Result Rejection RunState Unit} :
    seen view x' = seen view x → (∀ s, seen view (k' s) = seen view (k s)) →
    seen view (match x' with | .ok _ s => k' s | .error r s => .error r s) =
      seen view (match x with | .ok _ s => k s | .error r s => .error r s) := by
  intro h hk
  cases x with
  | ok _ s =>
    cases x' with
    | ok _ s' =>
      obtain rfl : s' = s := (EStateM.Result.ok.inj h).2
      exact hk s'
    | error r' s' => cases h
  | error r s =>
    cases x' with
    | ok _ s' => cases h
    | error r' s' => exact h

/-- Whether there are two values that agree, or two rejections of which the same is seen. -/
inductive Alike {α : Type} (view : Rejection → ρ) (Q : α → α → Prop) :
    Except Rejection α → Except Rejection α → Prop
  | ok {a a' : α} : Q a a' → Alike view Q (.ok a) (.ok a')
  | error {r r' : Rejection} : view r' = view r → Alike view Q (.error r) (.error r')

theorem Alike.refl {α : Type} {view : Rejection → ρ} {Q : α → α → Prop} (hQ : ∀ a, Q a a)
    (x : Except Rejection α) : Alike view Q x x := by
  cases x with
  | error r => exact .error rfl
  | ok a => exact .ok (hQ a)

theorem Alike.bind {α β : Type} {view : Rejection → ρ} {Q : α → α → Prop} {Q' : β → β → Prop}
    {x x' : Except Rejection α} {f f' : α → Except Rejection β} (h : Alike view Q x x')
    (hf : ∀ a a', Q a a' → Alike view Q' (f a) (f' a')) : Alike view Q' (x >>= f) (x' >>= f') := by
  cases h with
  | ok hq => exact hf _ _ hq
  | error hr => exact .error hr

variable {R : String → List (String × Json) → List (String × Json) → Prop}
  {view : Rejection → ρ} {c : RunContext} {p : Program}

/-- Whether arguments that are allowed instead of others bind the same, or fail alike. -/
def BindsAlike (c : RunContext) (view : Rejection → ρ)
    (R : String → List (String × Json) → List (String × Json) → Prop) : Prop :=
  ∀ {callee d arguments arguments'}, c.program.find? callee = some d →
    R callee arguments arguments' → ∀ scope, Alike view Scope.Same
      (bindArguments c.limits scope callee (askedArguments d arguments))
      (bindArguments c.limits scope callee (askedArguments d arguments'))

/-- A call enters the steps that come from those it entered, in a scope that binds alike. -/
theorem enterCall_varied (hp : c.program.Varied R p) (hR : BindsAlike c view R)
    {scope scope' : Scope} (hs : scope.Same scope') {callee : String}
    {arguments arguments' : List (String × Json)}
    (ha : arguments' = arguments ∨ R callee arguments arguments') :
    Alike view (fun e e' => Varied R e.1 e'.1 ∧ e.2.Same e'.2)
      (enterCall c scope callee arguments)
      (enterCall (c.withProgram p) scope' callee arguments') := by
  have hrel : Option.Rel (Definition.Varied R) (c.program.find? callee)
      ((c.withProgram p).program.find? callee) :=
    find?_forall₂ Definition.Varied.name hp.definitions callee
  generalize hd : c.program.find? callee = found at hrel
  generalize hd' : (c.withProgram p).program.find? callee = found' at hrel
  cases hrel with
  | none =>
    unfold enterCall
    rw [hd, hd']
    exact .error rfl
  | @some d d' hv =>
    have hasked : askedArguments d' arguments' = askedArguments d arguments' := by
      unfold askedArguments
      rw [hv.parameters]
    have hbound : Alike view Scope.Same
        (bindArguments c.limits scope callee (askedArguments d arguments))
        (bindArguments c.limits scope callee (askedArguments d arguments')) := by
      rcases ha with rfl | ha
      · exact Alike.refl Scope.Same.refl _
      · exact hR hd ha scope
    rw [enterCall_of_find? hd, enterCall_of_find? hd', RunContext.limits_withProgram, hasked,
      bindArguments_same hs]
    exact hbound.bind fun _ _ hb => .ok ⟨hv.steps, hb.append hs⟩

/-- Whether of two executors the same is seen, if the other one is given other arguments and a
scope that binds alike. -/
def Executor.VariedBy (R : String → List (String × Json) → List (String × Json) → Prop)
    (view : Rejection → ρ) (inner inner' : Executor) : Prop :=
  ∀ {steps steps' scope scope'}, Varied R steps steps' → scope.Same scope' → ∀ s,
    seen view (inner' steps' scope' s) = seen view (inner steps scope s)

variable {inner inner' : Executor} {scope scope' : Scope}

theorem iterate_varied (hi : Executor.VariedBy R view inner inner') (hs : scope.Same scope')
    {counter : String} {stride : Int} {body body' : List Step} (hb : Varied R body body') :
    ∀ (count : Nat) (value : Int) (s : RunState),
      seen view (iterate (c.withProgram p) inner' scope' counter stride body' count value s) =
        seen view (iterate c inner scope counter stride body count value s)
  | 0, _, _ => rfl
  | count + 1, value, s => by
    rw [iterate_succ, iterate_succ]
    refine seen_then (hi hb (hs.bind counter (.int value)) s.countIteration) fun t => ?_
    rw [RunContext.limits_withProgram]
    split
    · rfl
    · exact iterate_varied hi hs hb count (value + stride) t

theorem runLoop_varied (hi : Executor.VariedBy R view inner inner') (hs : scope.Same scope')
    {counter : String} {start stop stride : Json} {body body' : List Step}
    (hb : Varied R body body') (s : RunState) :
    seen view (runLoop (c.withProgram p) inner' scope' counter start stop stride body' s) =
      seen view (runLoop c inner scope counter start stop stride body s) := by
  rw [runLoop_apply, runLoop_apply, RunContext.limits_withProgram, loopRange_same hs, hb.isEmpty]
  cases loopRange c.limits scope start stop stride with
  | error r => rfl
  | ok range =>
    obtain ⟨first, last, stride⟩ := range
    simp only
    split
    · rfl
    · exact iterate_varied hi hs hb _ first s

theorem runCall_varied (hp : c.program.Varied R p) (hR : BindsAlike c view R)
    (hi : Executor.VariedBy R view inner inner') (hs : scope.Same scope') {callee : String}
    {arguments arguments' : List (String × Json)}
    (ha : arguments' = arguments ∨ R callee arguments arguments') (s : RunState) :
    seen view (runCall (c.withProgram p) inner' scope' callee arguments' s) =
      seen view (runCall c inner scope callee arguments s) := by
  have henter := enterCall_varied hp hR hs ha
  rw [runCall_apply, runCall_apply, RunContext.limits_withProgram]
  split
  · rfl
  · generalize enterCall c scope callee arguments = entered at henter ⊢
    generalize enterCall (c.withProgram p) scope' callee arguments' = entered' at henter ⊢
    cases henter with
    | error hr => exact congrArg (EStateM.Result.error · s.countCall) hr
    | ok hentered => exact hi hentered.1 hentered.2 s.countCall

/-- A step that is kept does the same. -/
theorem runStep_varied (hp : c.program.Varied R p) (hR : BindsAlike c view R)
    (hi : Executor.VariedBy R view inner inner') (hs : scope.Same scope') (step : Step)
    (s : RunState) : seen view (runStep (c.withProgram p) inner' scope' step s) =
      seen view (runStep c inner scope step s) := by
  cases step with
  | place x y z blockType =>
    rw [runStep, runStep, runPlace, runPlace, ofExcept_bind_apply, ofExcept_bind_apply,
      RunContext.limits_withProgram, coordinatesAt_same hs]
    cases coordinatesAt c.limits scope [.field "place"] x y z with
    | error r => rfl
    | ok p => exact congrArg (EStateM.Result.ok ()) (place_same hs c _ _ _ blockType s)
  | loop counter start stop stride body => exact runLoop_varied hi hs (.refl body) s
  | call callee arguments => exact runCall_varied hp hR hi hs (.inl rfl) s
  | invalid m => rfl

/-- What is seen of a step and of the steps after it is what is seen of all of them. -/
theorem runSteps_cons_varied {step step' : Step} {steps steps' : List Step}
    (hstep : ∀ s, seen view (runStep (c.withProgram p) inner' scope' step' s) =
      seen view (runStep c inner scope step s))
    (hsteps : ∀ s, seen view (runSteps (c.withProgram p) inner' scope' steps' s) =
      seen view (runSteps c inner scope steps s)) (s : RunState) :
    seen view (runSteps (c.withProgram p) inner' scope' (step' :: steps') s) =
      seen view (runSteps c inner scope (step :: steps) s) := by
  rw [runSteps_cons, runSteps_cons, RunContext.limits_withProgram]
  split
  · rfl
  · split
    · rfl
    · exact seen_then (hstep s.countStep) hsteps

/-- **Of steps with other arguments the same is seen.** -/
theorem runSteps_varied (hp : c.program.Varied R p) (hR : BindsAlike c view R)
    (hi : Executor.VariedBy R view inner inner') (hs : scope.Same scope')
    {steps steps' : List Step} (h : Varied R steps steps') :
    ∀ s, seen view (runSteps (c.withProgram p) inner' scope' steps' s) =
      seen view (runSteps c inner scope steps s) := by
  induction h with
  | nil => exact fun _ => rfl
  | keep step _ ih => exact runSteps_cons_varied (runStep_varied hp hR hi hs step) ih
  | loop counter start stop stride hb _ _ ih =>
    exact runSteps_cons_varied (fun s => runLoop_varied hi hs hb s) ih
  | call callee ha _ ih =>
    exact runSteps_cons_varied (fun s => runCall_varied hp hR hi hs (.inr ha) s) ih

/-- Executors that go the same number of levels down do the same. -/
theorem execute_varied (hp : c.program.Varied R p) (hR : BindsAlike c view R) :
    ∀ room, Executor.VariedBy R view (execute c room) (execute (c.withProgram p) room)
  | 0 => fun _ _ _ => rfl
  | room + 1 => fun h hs s =>
    runSteps_varied hp hR (execute_varied hp hR room) hs h (s.countLevels (c.maxLevels - room))

/-- Of a program with other arguments the same is seen, from any state on. -/
theorem runProgram_varied (hp : c.program.Varied R p) (hR : BindsAlike c view R) (s : RunState) :
    seen view (runProgram (c.withProgram p) s) = seen view (runProgram c s) := by
  rw [runProgram_apply, runProgram_apply]
  exact seen_then (execute_varied hp hR c.maxLevels hp.steps (.refl []) s) fun _ => rfl

end Execution

/-! ### Arguments that are left out or reordered -/

namespace Program

/-- Whether arguments come from those of a call by leaving some out that the definition does not
declare, although it declares parameters. -/
def Trims (p : Program) (callee : String) (arguments kept : List (String × Json)) : Prop :=
  ∃ d, p.find? callee = some d ∧ d.parameters ≠ [] ∧ ∃ keep : String × Json → Bool,
    (∀ argument ∈ arguments, argument.1 ∈ d.parameters → keep argument = true) ∧
      kept = arguments.filter keep

/-- Whether arguments come from those of a call, which have different names as the keys of an object
do, by leaving out some in this way, or none, and by reordering the rest. -/
def Rearranges (p : Program) (callee : String) (arguments arguments' : List (String × Json)) :
    Prop :=
  (arguments.map (·.1)).Nodup ∧
    ∃ kept, (kept = arguments ∨ p.Trims callee arguments kept) ∧ kept.Perm arguments'

variable {p : Program} {callee : String} {d : Definition}
  {arguments arguments' : List (String × Json)}

theorem askedArguments_congr (hd : d.parameters ≠ [])
    (h : ∀ name ∈ d.parameters, arguments'.lookup name = arguments.lookup name) :
    askedArguments d arguments' = askedArguments d arguments := by
  rw [askedArguments_of_declared hd, askedArguments_of_declared hd]
  refine List.map_congr_left fun name hname => ?_
  rw [h name hname]

/-- What is left out is not asked for. -/
theorem Trims.asked (h : p.Trims callee arguments arguments') (hd : p.find? callee = some d) :
    d.parameters ≠ [] ∧ askedArguments d arguments' = askedArguments d arguments := by
  obtain ⟨d', hd', hne, keep, hkeep, rfl⟩ := h
  obtain rfl : d' = d := Option.some.inj (hd'.symm.trans hd)
  refine ⟨hne, askedArguments_congr hne fun name hname => ?_⟩
  exact lookup_filter_keep fun entry he hn => hkeep entry he (hn ▸ hname)

theorem Trims.nodup (h : p.Trims callee arguments arguments')
    (hn : (arguments.map (·.1)).Nodup) : (arguments'.map (·.1)).Nodup := by
  obtain ⟨d, -, -, keep, -, rfl⟩ := h
  exact hn.sublist (List.filter_sublist.map _)

/-- Arguments that are left out make no difference. -/
theorem bindsAlike_trims {ρ : Type} (c : RunContext) (view : Rejection → ρ) :
    BindsAlike c view c.program.Trims := by
  intro callee d arguments arguments' hd h scope
  rw [(h.asked hd).2]
  exact Alike.refl Scope.Same.refl _

/-- Arguments that are reordered bind the same, or fail. -/
theorem bindsAlike_perm {limits : Limits} {scope : Scope} {ρ : Type} {view : Rejection → ρ}
    (hview : ∀ r r', view r' = view r) {asked asked' : List (String × Option Json)}
    (hn : (asked.map (·.1)).Nodup) (h : asked.Perm asked') :
    Alike view Scope.Same (bindArguments limits scope callee asked)
      (bindArguments limits scope callee asked') := by
  cases hb : bindArguments limits scope callee asked with
  | ok bindings =>
    obtain ⟨bindings', hb', hperm⟩ := bindArguments_perm h hb
    rw [hb']
    exact .ok (Scope.same_of_perm hperm (by rwa [names_bindArguments hb]))
  | error r =>
    cases hb' : bindArguments limits scope callee asked' with
    | error r' => exact .error (hview r r')
    | ok bindings' =>
      obtain ⟨bindings, hok, -⟩ := bindArguments_perm h.symm hb'
      rw [hb] at hok
      cases hok

theorem bindsAlike_rearranges {ρ : Type} (c : RunContext) {view : Rejection → ρ}
    (hview : ∀ r r', view r' = view r) : BindsAlike c view c.program.Rearranges := by
  intro callee d arguments arguments' hd ⟨hn, kept, hkept, hperm⟩ scope
  have hnkept : (kept.map (·.1)).Nodup := by
    rcases hkept with rfl | htrim
    · exact hn
    · exact htrim.nodup hn
  have hasked : askedArguments d kept = askedArguments d arguments := by
    rcases hkept with rfl | htrim
    · rfl
    · exact (htrim.asked hd).2
  rw [← hasked]
  by_cases hempty : d.parameters = []
  · -- everything in the call is bound, in the order in which it is written
    have hall (entries : List (String × Json)) :
        askedArguments d entries = entries.map fun entry => (entry.1, some entry.2) := by
      simp [askedArguments, hempty]
    rw [hall, hall]
    refine bindsAlike_perm hview ?_ (hperm.map _)
    rw [List.map_map]
    exact hnkept
  · rw [askedArguments_congr hempty fun name _ => lookup_perm hperm hnkept name]
    exact Alike.refl Scope.Same.refl _

/-- **Arguments are bound by their names alone.** With every catalog and all limits,

* a program in whose calls, wherever they are, arguments are left out that a definition with
  declared parameters does not declare, and arguments are reordered, ends well if and only if the
  program ends well, and then in the same state, with the same blocks, work and events;
* if arguments are only left out, whatever they are, the program ends in the same way also if it is
  rejected: for the same cause at the same place, with the same blocks and work until then. -/
theorem arguments_bound_by_name (p p' : Program) (limits : Limits) (ledger : Ledger) :
    (p.Varied p.Rearranges p' →
      ∀ s, p'.run limits ledger = .ok () s ↔ p.run limits ledger = .ok () s) ∧
    (p.Varied p.Trims p' → p'.run limits ledger = p.run limits ledger ∧
      p'.expand limits ledger = p.expand limits ledger) := by
  constructor
  · intro hp s
    have h : seen (fun _ => ()) (p'.run limits ledger) = seen (fun _ => ()) (p.run limits ledger) :=
      runProgram_varied (c := p.context limits ledger.store.current) hp
        (bindsAlike_rearranges _ fun _ _ => rfl) { ledger }
    have hok (x : EStateM.Result Rejection RunState Unit) :
        x = .ok () s ↔ seen (fun _ => ()) x = .ok () s := by
      cases x with
      | ok _ t => exact ⟨fun h => by cases h; rfl, fun h => by cases h; rfl⟩
      | error r t => exact ⟨nofun, nofun⟩
    rw [hok, h, ← hok]
  · intro hp
    have h : seen id (p'.run limits ledger) = seen id (p.run limits ledger) :=
      runProgram_varied (c := p.context limits ledger.store.current) hp
        (bindsAlike_trims _ id) { ledger }
    have hall (x : EStateM.Result Rejection RunState Unit) : seen id x = x := by
      cases x <;> rfl
    rw [hall, hall] at h
    exact ⟨h, by rw [expand_eq, expand_eq, h]⟩

/-- A program that calls one definition with a declared parameter and one without. -/
def paddock (fence gate : List (String × Json)) : Program :=
  { steps :=
      [.loop "i" (.int 0) (.int 1) (.int 1) [.call "fence" fence], .call "gate" gate]
    definitions :=
      [{ name := "fence", parameters := ["x"]
         steps := [.place (.str "x") (.int 0) (.int 0) (.str "a")] },
       { name := "gate", steps := [.place (.str "p") (.str "q") (.int 0) (.str "a")] }] }

/-- An argument that cannot be passed is left out, and two arguments change places. -/
theorem arguments_bound_by_name_paddock :
    (∃ s, (paddock [("x", .str "i")] [("q", .int 6), ("p", .int 5)]).run {} quarry = .ok () s ∧
      s.output =
        #[⟨0, 0, 0, "minecraft:a"⟩, ⟨1, 0, 0, "minecraft:a"⟩, ⟨5, 6, 0, "minecraft:a"⟩]) ∧
    (paddock [("x", .str "i")] []).run {} quarry =
      (paddock [("y", .arr []), ("x", .str "i")] []).run {} quarry := by
  have hfence (gate : List (String × Json)) :
      (paddock [("y", .arr []), ("x", .str "i")] gate).Trims "fence"
        [("y", .arr []), ("x", .str "i")] [("x", .str "i")] :=
    ⟨_, rfl, by simp, fun argument => argument.1 = "x", by simp, by simp⟩
  have hdefinitions (R : String → List (String × Json) → List (String × Json) → Prop) :
      List.Forall₂ (Definition.Varied R) (paddock [] []).definitions (paddock [] []).definitions :=
    .cons ⟨rfl, rfl, .refl _⟩ (.cons ⟨rfl, rfl, .refl _⟩ .nil)
  have hr : (paddock [("y", .arr []), ("x", .str "i")] [("p", .int 5), ("q", .int 6)]).run {}
      quarry = .ok ()
        { ledger := quarry.record (.programRun 3 7 3)
          output :=
            #[⟨0, 0, 0, "minecraft:a"⟩, ⟨1, 0, 0, "minecraft:a"⟩, ⟨5, 6, 0, "minecraft:a"⟩]
          work := { steps := 7, calls := 3, iterations := 2, levels := 3 } } := by decide +kernel
  obtain ⟨hreordered, -⟩ := arguments_bound_by_name
    (paddock [("y", .arr []), ("x", .str "i")] [("p", .int 5), ("q", .int 6)])
    (paddock [("x", .str "i")] [("q", .int 6), ("p", .int 5)]) {} quarry
  obtain ⟨-, htrimmed⟩ := arguments_bound_by_name (paddock [("y", .arr []), ("x", .str "i")] [])
    (paddock [("x", .str "i")] []) {} quarry
  constructor
  · refine ⟨_, (hreordered ⟨?_, hdefinitions _⟩ _).mpr hr, rfl⟩
    refine .loop _ _ _ _ (.call _ ⟨by simp, _, .inr (hfence _), .refl _⟩ .nil) ?_
    exact .call _ ⟨by simp, _, .inl rfl, .swap _ _ _⟩ .nil
  · refine (htrimmed ⟨?_, hdefinitions _⟩).1
    exact .loop _ _ _ _ (.call _ (hfence _) .nil) (.keep _ .nil)

end Program
end VoxelBlueprint
