/-
# Arguments that are passed on

A definition passes a parameter on by a call with the name of the parameter as an argument. The
name refers to its binding, and the binding is passed on as it is: it is neither evaluated again nor
looked up again, also if it is a string that is the name of another binding. So at the end of a
chain of such calls, however long it is, the parameter is bound to what the first argument stood for
in the scope of the first caller, whatever else is bound on the way. Only a loop over the name of
the parameter itself would hide it.

Key definitions: `LoopsTo`, `RunContext.Calls`, `RunContext.Chain`.
Key theorems: `find?_bindArguments`, `RunContext.Calls.enters`, `RunContext.Chain.find?`,
`RunContext.arguments_pass_through`.
-/
import VoxelBlueprint.Proofs.Execution.Arguments
import VoxelBlueprint.Proofs.Execution.Ranges
import VoxelBlueprint.Proofs.Expression.Names

namespace VoxelBlueprint

open Effects

/-! ### Parameters and their values -/

section Parameters

variable {limits : Limits} {scope : Scope} {arguments : List (String × Json)} {callee : String}

theorem argumentAt_eq_ok {path : Path} {raw value : Json} :
    argumentAt limits scope path raw = .ok value ↔
      Expression.coerceArgument scope limits.maxExpressionDepth raw = .ok value := by
  unfold argumentAt
  cases Expression.coerceArgument scope limits.maxExpressionDepth raw <;> simp [Except.mapError]

/-- A declared parameter is bound to what its argument stands for in the scope of the caller. -/
theorem find?_bindArguments {name : String} : ∀ {parameters : List String} {bindings : Scope},
    bindArguments limits scope callee
      (parameters.map fun name => (name, arguments.lookup name)) = .ok bindings →
    name ∈ parameters → ∃ raw value, arguments.lookup name = some raw ∧
      Expression.coerceArgument scope limits.maxExpressionDepth raw = .ok value ∧
      bindings.find? name = some value
  | parameter :: parameters, _, h, hm => by
    obtain ⟨raw, value, rest, hraw, hvalue, hrest, rfl⟩ := bindArguments_cons_eq_ok.mp h
    by_cases hn : name = parameter
    · subst hn
      exact ⟨raw, value, hraw, argumentAt_eq_ok.mp hvalue, List.lookup_cons_self⟩
    · have hm := (List.mem_cons.mp hm).resolve_left hn
      obtain ⟨raw', value', hraw', hvalue', hfind⟩ := find?_bindArguments hrest hm
      refine ⟨raw', value', hraw', hvalue', ?_⟩
      rw [Scope.find?, List.lookup_cons, beq_eq_false_iff_ne.mpr hn]
      exact hfind

/-- Parameters are bound if every one of them has an argument that stands for something. -/
theorem exists_bindArguments : ∀ {parameters : List String},
    (∀ name ∈ parameters, ∃ raw value, arguments.lookup name = some raw ∧
      Expression.coerceArgument scope limits.maxExpressionDepth raw = .ok value) →
    ∃ bindings, bindArguments limits scope callee
      (parameters.map fun name => (name, arguments.lookup name)) = .ok bindings
  | [], _ => ⟨[], rfl⟩
  | parameter :: parameters, h => by
    obtain ⟨hfirst, hrest⟩ := List.forall_mem_cons.mp h
    obtain ⟨raw, value, hraw, hvalue⟩ := hfirst
    obtain ⟨bindings, hb⟩ := exists_bindArguments hrest
    exact ⟨_, bindArguments_cons_eq_ok.mpr
      ⟨raw, value, bindings, hraw, argumentAt_eq_ok.mpr hvalue, hb, rfl⟩⟩

end Parameters

/-! ### Chains of calls -/

/-- The lists of steps that are opened from a list in a scope through loops, none of them over the
given name, each with a scope in which it is opened. -/
inductive LoopsTo (name : String) (steps : List Step) (scope : Scope) :
    List Step → Scope → Prop
  | here : LoopsTo name steps scope steps scope
  | loop {inner body : List Step} {u : Scope} {counter : String} {start stop stride : Json}
    (n : Int) : LoopsTo name steps scope inner u →
    .loop counter start stop stride body ∈ inner → counter ≠ name →
    LoopsTo name steps scope body (u.bind counter (.int n))

/-- Loops over other names do not hide a binding. -/
theorem LoopsTo.find? {name : String} {steps steps' : List Step} {scope u : Scope}
    (h : LoopsTo name steps scope steps' u) : u.find? name = scope.find? name := by
  induction h with
  | here => rfl
  | loop n _ _ hne ih =>
    rw [Scope.find?, Scope.bind, List.lookup_cons, beq_eq_false_iff_ne.mpr hne.symm]
    exact ih

namespace RunContext

variable {c : RunContext}

/-- Whether a call in a scope is one of the given definition and passes the given value for a
parameter of it, while its other arguments stand for something. -/
structure Calls (c : RunContext) (scope : Scope) (callee : String)
    (arguments : List (String × Json)) (d : Definition) (parameter : String) (raw : Json) :
    Prop where
  found : c.program.find? callee = some d
  name : Expression.IsName parameter
  declared : parameter ∈ d.parameters
  passed : arguments.lookup parameter = some raw
  others : ∀ name ∈ d.parameters, name ≠ parameter → ∃ raw value,
    arguments.lookup name = some raw ∧
      Expression.coerceArgument scope c.limits.maxExpressionDepth raw = .ok value

/-- Whether a value that is passed in a scope to a definition is passed on, from parameter to
parameter, up to a parameter of a definition whose steps are opened in a scope. -/
inductive Chain (c : RunContext) (s : Scope) (v : Json) : Definition → String → Scope → Prop
  | first {callee : String} {arguments : List (String × Json)} {d : Definition}
    {parameter : String} {t : Scope} : c.Calls s callee arguments d parameter v →
    enterCall c s callee arguments = .ok (d.steps, t) → Chain c s v d parameter t
  | next {d d' : Definition} {parameter parameter' callee : String} {t t' u : Scope}
    {steps : List Step} {arguments : List (String × Json)} : Chain c s v d parameter t →
    LoopsTo parameter d.steps t steps u → .call callee arguments ∈ steps →
    c.Calls u callee arguments d' parameter' (.str parameter) →
    enterCall c u callee arguments = .ok (d'.steps, t') → Chain c s v d' parameter' t'

section Calls

variable {scope t : Scope} {callee parameter : String} {arguments : List (String × Json)}
  {d : Definition} {raw value : Json}

/-- A call whose arguments all stand for something is entered. -/
theorem Calls.enters (h : c.Calls scope callee arguments d parameter raw)
    (hv : Expression.coerceArgument scope c.limits.maxExpressionDepth raw = .ok value) :
    ∃ t, enterCall c scope callee arguments = .ok (d.steps, t) := by
  have hall : ∀ name ∈ d.parameters, ∃ raw value, arguments.lookup name = some raw ∧
      Expression.coerceArgument scope c.limits.maxExpressionDepth raw = .ok value := by
    intro name hname
    by_cases hn : name = parameter
    · exact ⟨raw, value, hn ▸ h.passed, hv⟩
    · exact h.others name hname hn
  obtain ⟨bindings, hb⟩ : ∃ bindings, bindArguments c.limits scope callee
      (d.parameters.map fun name => (name, arguments.lookup name)) = .ok bindings :=
    exists_bindArguments hall
  refine ⟨bindings ++ scope, ?_⟩
  rw [enterCall_of_find? h.found, askedArguments_of_declared (List.ne_nil_of_mem h.declared), hb]
  rfl

/-- It binds the parameter to what is passed for it. -/
theorem Calls.find? (h : c.Calls scope callee arguments d parameter raw)
    (hv : Expression.coerceArgument scope c.limits.maxExpressionDepth raw = .ok value)
    (ht : enterCall c scope callee arguments = .ok (d.steps, t)) :
    t.find? parameter = some value := by
  rw [enterCall_of_find? h.found, askedArguments_of_declared (List.ne_nil_of_mem h.declared)] at ht
  obtain ⟨bindings, hb, ht⟩ := bind_eq_ok ht
  cases ht
  obtain ⟨raw', value', hraw', hvalue', hfind⟩ := find?_bindArguments hb h.declared
  obtain rfl : raw' = raw := Option.some.inj (hraw'.symm.trans h.passed)
  obtain rfl : value' = value := Except.ok.inj (hvalue'.symm.trans hv)
  unfold Scope.find? at hfind ⊢
  rw [List.lookup_append, hfind]
  rfl

/-- What a call does that is entered, if one more is allowed. -/
theorem runCall_of_enterCall (ht : enterCall c scope callee arguments = .ok (d.steps, t))
    (inner : Executor) {st : RunState} (hst : st.work.calls + 1 ≤ c.limits.maxCalls) :
    runCall c inner scope callee arguments st = inner d.steps t st.countCall := by
  have hcalls : ¬ c.limits.maxCalls < st.countCall.work.calls := Int.not_lt.mpr hst
  rw [runCall_apply, if_neg hcalls, ht]

end Calls

section Chain

variable {s t u : Scope} {v value : Json} {d : Definition} {parameter : String}
  {steps : List Step}

theorem Chain.name (h : c.Chain s v d parameter t) : Expression.IsName parameter := by
  cases h with
  | first hcall => exact hcall.name
  | next _ _ _ hcall => exact hcall.name

/-- The name of a parameter stands for its binding. -/
theorem coerceArgument_name {scope : Scope} (h : Expression.IsName parameter)
    (hf : scope.find? parameter = some value) (limit : Int) :
    Expression.coerceArgument scope limit (.str parameter) = .ok value := by
  rw [Expression.coerceArgument, h.reference?, hf]

/-- **A value is passed on unchanged** along a chain of calls. -/
theorem Chain.find? (hv : Expression.coerceArgument s c.limits.maxExpressionDepth v = .ok value)
    (h : c.Chain s v d parameter t) : t.find? parameter = some value := by
  induction h with
  | first hcall ht => exact hcall.find? hv ht
  | next hchain hloops _ hcall ht ih =>
    refine hcall.find? ?_ ht
    exact coerceArgument_name hchain.name (hloops.find?.trans ih) _

/-- As a coordinate, the name of a parameter that is bound to an integer yields this. -/
theorem integerAt_name {scope : Scope} (h : Expression.IsName parameter) {n : Int}
    (hf : scope.find? parameter = some (.int n)) (hn : Expression.InRange n) {limits : Limits}
    (hl : 0 < limits.maxExpressionDepth) (path : Path) :
    integerAt limits scope path (.str parameter) = .ok n := by
  have hvalue : Expression.evaluate scope limits.maxExpressionDepth parameter = .ok n := by
    rw [h.evaluate hl hf]
    exact Expression.checked_eq_ok.mpr ⟨hn, rfl⟩
  rw [integerAt, Expression.coerce, hvalue]
  rfl

/-- As a block type, the name of a parameter asks for the block for which a string asks that was
passed, unless this has a value as an expression. -/
theorem requestedId_name {scope : Scope} (h : Expression.IsName parameter) {text : String}
    {limit : Int} (hv : Expression.coerceArgument s limit (.str text) = .ok value)
    (hne : ∀ n, Expression.evaluate s limit text ≠ .ok n)
    (hf : scope.find? parameter = some value) :
    Catalog.requestedId scope (.str parameter) = Catalog.requestedId s (.str text) := by
  have hvalue : value = (s.reference? text).getD (.str text) := by
    rw [Expression.coerceArgument] at hv
    cases hr : s.reference? text with
    | some bound =>
      rw [hr] at hv
      exact (Except.ok.inj hv).symm
    | none =>
      rw [hr] at hv
      cases he : Expression.evaluate s limit text with
      | ok n => exact absurd he (hne n)
      | error fault =>
        rw [he] at hv
        exact (Except.ok.inj hv).symm
  rw [Catalog.requestedId, Catalog.requestedId, h.reference?, hf, ← hvalue]
  rfl

/-- **Arguments are passed on unchanged through chains of calls.** Let a value stand for another
one as an argument in a scope.

* A call with it, or a call with the name of a parameter to which it was passed, be it directly or
  in a loop over other names, is entered if the other arguments stand for something, and if one more
  call is allowed it does what the steps of the definition do in the scope that it enters.
* There, also in loops over other names, the parameter is bound to what the value stood for in the
  first scope.
* As a coordinate the parameter yields this if it is an integer in range, as it is if the integers
  in the first scope are, and they are at every stage of a run.
* As a block type it asks for the block for which the value itself asks in the first scope, if the
  value is a string and has no value as an expression there. -/
theorem arguments_pass_through
    (hv : Expression.coerceArgument s c.limits.maxExpressionDepth v = .ok value) :
    (∀ callee arguments d parameter, c.Calls s callee arguments d parameter v →
      ∃ t, c.Chain s v d parameter t ∧ ∀ inner st, st.work.calls + 1 ≤ c.limits.maxCalls →
        runCall c inner s callee arguments st = inner d.steps t st.countCall) ∧
    (∀ d parameter t steps u, c.Chain s v d parameter t → LoopsTo parameter d.steps t steps u →
      (∀ callee arguments d' parameter', .call callee arguments ∈ steps →
        c.Calls u callee arguments d' parameter' (.str parameter) →
        ∃ t', c.Chain s v d' parameter' t' ∧
          ∀ inner st, st.work.calls + 1 ≤ c.limits.maxCalls →
            runCall c inner u callee arguments st = inner d'.steps t' st.countCall) ∧
      u.find? parameter = some value ∧
      (∀ n, value = .int n → Expression.InRange n → 0 < c.limits.maxExpressionDepth →
        ∀ path, integerAt c.limits u path (.str parameter) = .ok n) ∧
      (∀ text, v = .str text →
        (∀ n, Expression.evaluate s c.limits.maxExpressionDepth text ≠ .ok n) →
        ∀ snapshot (ledger : Ledger), ledger.blockFor snapshot u (.str parameter) =
          ledger.blockFor snapshot s v)) ∧
    (s.InRange → ∀ n, value = .int n → Expression.InRange n) := by
  refine ⟨fun callee arguments d parameter hcall => ?_,
    fun d parameter t steps u hchain hloops => ?_, fun hs n hn => ?_⟩
  · obtain ⟨t, ht⟩ := hcall.enters hv
    exact ⟨t, .first hcall ht, fun inner st hst => runCall_of_enterCall ht inner hst⟩
  · have hf : u.find? parameter = some value := hloops.find?.trans (hchain.find? hv)
    refine ⟨fun callee arguments d' parameter' hmem hcall => ?_, hf, fun n hn hr hl path => ?_,
      fun text htext hne snapshot ledger => ?_⟩
    · obtain ⟨t', ht'⟩ := hcall.enters (coerceArgument_name hchain.name hf _)
      exact ⟨t', .next hchain hloops hmem hcall ht',
        fun inner st hst => runCall_of_enterCall ht' inner hst⟩
    · subst hn
      exact integerAt_name hchain.name hf hr hl path
    · subst htext
      unfold Ledger.blockFor
      rw [requestedId_name hchain.name hv hne hf]
  · subst hn
    exact Expression.inRange_of_coerceArgument hs hv

end Chain

/-- A definition that places a block of the type, and at the height, that it is given. -/
def cell : Definition :=
  { name := "cell", parameters := ["i", "b"]
    steps := [.place (.str "i") (.str "b") (.int 0) (.str "b")] }

/-- A definition that passes its parameter on to this one in a loop. -/
def row : Definition :=
  { name := "row", parameters := ["w"]
    steps := [.loop "i" (.int 0) (.int 1) (.int 1)
      [.call "cell" [("b", .str "w"), ("i", .str "i")]]] }

/-- A program of these two definitions. -/
def relay : RunContext :=
  { program := { definitions := [row, cell] } }

/-- What is passed on is a height in one scope and a block type in another one. -/
theorem arguments_pass_through_relay :
    (∃ t, relay.Chain [("b", .int 9), ("h", .int 5)] (.str "h") cell "b" t ∧
      integerAt relay.limits t [] (.str "b") = .ok 5) ∧
    ∃ t, relay.Chain [("h", .str "Oak Log")] (.str "h") cell "b" t ∧
      quarry.blockFor quarry.store.current t (.str "b") =
        quarry.blockFor quarry.store.current [("h", .str "Oak Log")] (.str "h") := by
  have hw : Expression.IsName "w" := ⟨'w', [], by decide, by decide, nofun⟩
  have hb : Expression.IsName "b" := ⟨'b', [], by decide, by decide, nofun⟩
  have hi : Expression.IsName "i" := ⟨'i', [], by decide, by decide, nofun⟩
  have hh : Expression.IsName "h" := ⟨'h', [], by decide, by decide, nofun⟩
  have hrow (s : Scope) :
      relay.Calls s "row" [("w", .str "h")] row "w" (.str "h") :=
    ⟨rfl, hw, List.mem_singleton_self _, rfl, fun name hm hne =>
      absurd (List.mem_singleton.mp hm) hne⟩
  have hcell (t : Scope) : relay.Calls (t.bind "i" (.int 0)) "cell"
      [("b", .str "w"), ("i", .str "i")] cell "b" (.str "w") := by
    refine ⟨rfl, hb, by decide, rfl, fun name hm hne => ?_⟩
    obtain rfl : name = "i" := by simpa [cell, hne] using hm
    exact ⟨.str "i", .int 0, rfl, coerceArgument_name hi rfl _⟩
  have hchain (s : Scope) (value : Json) (hs : s.find? "h" = some value) :
      ∃ t, relay.Chain s (.str "h") cell "b" t := by
    obtain ⟨hfirst, hnext, -⟩ := arguments_pass_through (c := relay) (coerceArgument_name hh hs _)
    obtain ⟨t, ht, -⟩ := hfirst _ _ _ _ (hrow s)
    obtain ⟨hcalls, -⟩ := hnext _ _ t _ _ ht
      (.loop 0 .here (List.mem_singleton_self _) (by decide))
    obtain ⟨t', ht', -⟩ := hcalls _ _ _ _ (List.mem_singleton_self _) (hcell t)
    exact ⟨t', ht'⟩
  constructor
  · obtain ⟨t, ht⟩ := hchain [("b", .int 9), ("h", .int 5)] (.int 5) rfl
    obtain ⟨-, hpassed, -⟩ := arguments_pass_through (c := relay)
      (s := [("b", .int 9), ("h", .int 5)]) (coerceArgument_name hh rfl _)
    obtain ⟨-, -, hcoordinate, -⟩ := hpassed cell "b" t _ t ht .here
    exact ⟨t, ht, hcoordinate 5 rfl (by decide +kernel) (by decide) []⟩
  · obtain ⟨t, ht⟩ := hchain [("h", .str "Oak Log")] (.str "Oak Log") rfl
    obtain ⟨-, hpassed, -⟩ := arguments_pass_through (c := relay)
      (s := [("h", .str "Oak Log")]) (coerceArgument_name hh rfl _)
    obtain ⟨-, -, -, hblock⟩ := hpassed cell "b" t _ t ht .here
    refine ⟨t, ht, hblock "h" rfl (fun n hn => ?_) _ _⟩
    rw [hh.evaluate (by decide) rfl] at hn
    cases hn

end RunContext
end VoxelBlueprint
