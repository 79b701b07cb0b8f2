/-
# Changes of one step

A document in which one raw step is replaced is read as the program that was read before, but for
what was read from this step. The loops that enclose the step keep everything except their bodies,
and a step that lies apart from it, in the same list, in another list or in another definition,
stays where and what it was. Where lists are nested too deeply no step is read, so there nothing
changes at all.

Key definitions: `amendAt`, `Place.Within`, `Program.Amended`.
Key theorems: `exists_amendAt`, `stepAt?_amendAt_of_apart`, `stepAt?_amendAt_of_prefix`,
`Program.exists_amended`, `Program.step_addresses_true`.
-/
import VoxelBlueprint.Proofs.Program.Addresses

namespace VoxelBlueprint

/-! ### Changes in a list -/

section Lists

variable {α β : Type} {xs : List α} {k : Nat} {g : α → α} {f : β → β}

/-- What is made of a list in which one item is changed, if the change shows in what is made of
the item. -/
theorem mapIdx_modify {F : Nat → α → β} (h : ∀ x, xs[k]? = some x → F k (g x) = f (F k x)) :
    (xs.modify k g).mapIdx F = (xs.mapIdx F).modify k f := by
  refine List.ext_getElem? fun j => ?_
  by_cases hj : k = j
  · subst hj
    rw [List.getElem?_mapIdx, List.getElem?_modify_eq, List.getElem?_modify_eq,
      List.getElem?_mapIdx]
    cases hx : xs[k]? with
    | none => rfl
    | some x => exact congrArg some (h x hx)
  · rw [List.getElem?_mapIdx, List.getElem?_modify_ne _ _ hj, List.getElem?_modify_ne _ _ hj,
      List.getElem?_mapIdx]

theorem map_modify {F : α → β} (h : ∀ x, xs[k]? = some x → F (g x) = f (F x)) :
    (xs.modify k g).map F = (xs.map F).modify k f := by
  have hmap (ys : List α) : ys.map F = ys.mapIdx fun _ => F :=
    List.ext_getElem? fun j => by rw [List.getElem?_map, List.getElem?_mapIdx]
  rw [hmap, hmap, mapIdx_modify h]

/-- A change that does not show. -/
theorem map_modify_of_eq {F : α → β} (h : ∀ x, xs[k]? = some x → F (g x) = F x) :
    (xs.modify k g).map F = xs.map F :=
  (map_modify (f := id) h).trans (List.modify_id k _)

end Lists

/-! ### Changes in a list of steps -/

/-- The steps with one step changed, to which a way through the bodies of loops leads. -/
def amendAt (f : Step → Step) (i : Nat) : Route → List Step → List Step
  | [], steps => steps.modify i f
  | k :: route, steps => steps.modify k (Step.mapBody (amendAt f i route))

/-- The step at an index of the list to which a way leads. -/
def stepAt? (route : Route) (i : Nat) (steps : List Step) : Option Step :=
  (bodyAt? route steps).bind (·[i]?)

theorem Step.body?_mapBody (g : List Step → List Step) (step : Step) :
    (step.mapBody g).body? = step.body?.map g := by
  cases step <;> rfl

theorem Step.mapBody_id (step : Step) : step.mapBody id = step := by
  cases step <;> rfl

theorem amendAt_id (i : Nat) : ∀ (route : Route) (steps : List Step),
    amendAt id i route steps = steps
  | [], steps => List.modify_id i steps
  | k :: route, steps => by
    have ih : amendAt id i route = id := funext (amendAt_id i route)
    have hmap : Step.mapBody id = id := funext Step.mapBody_id
    rw [amendAt, ih, hmap, List.modify_id]

section Amending

variable {f : Step → Step} {i j k : Nat} {route route' : Route} {steps : List Step}

theorem stepAt?_cons : stepAt? (k :: route) j steps =
    (steps[k]?.bind Step.body?).bind (stepAt? route j) := by
  rw [stepAt?, bodyAt?, Option.bind_assoc]
  rfl

/-- Behind the first index of its way the change is one in the body there. -/
theorem bind_body?_amendAt : (amendAt f i (k :: route) steps)[k]?.bind Step.body? =
    (steps[k]?.bind Step.body?).map (amendAt f i route) := by
  rw [amendAt, List.getElem?_modify_eq]
  cases steps[k]? with
  | none => rfl
  | some step => exact step.body?_mapBody _

theorem getElem?_amendAt_ne (h : i ≠ j) : (amendAt f i [] steps)[j]? = steps[j]? := by
  rw [amendAt, List.getElem?_modify_ne _ _ h]

theorem getElem?_amendAt_cons_ne (h : k ≠ j) :
    (amendAt f i (k :: route) steps)[j]? = steps[j]? := by
  rw [amendAt, List.getElem?_modify_ne _ _ h]

/-- **A step apart from the changed one is not touched.** -/
theorem stepAt?_amendAt_of_apart : ∀ {route route' : Route} {steps : List Step},
    ¬ route ++ [i] <+: route' ++ [j] → ¬ route' ++ [j] <+: route ++ [i] →
      stepAt? route' j (amendAt f i route steps) = stepAt? route' j steps
  | [], [], steps, h, _ => by
    have hne : i ≠ j := by simpa using h
    exact getElem?_amendAt_ne hne
  | [], k :: route', steps, h, _ => by
    have hne : i ≠ k := by simpa using h
    rw [stepAt?_cons, stepAt?_cons, getElem?_amendAt_ne hne]
  | k :: route, [], steps, _, h => by
    have hne : k ≠ j := by simpa [eq_comm] using h
    exact getElem?_amendAt_cons_ne hne
  | k :: route, k' :: route', steps, h, h' => by
    rw [stepAt?_cons, stepAt?_cons]
    by_cases hk : k = k'
    · subst hk
      rw [bind_body?_amendAt]
      cases steps[k]?.bind Step.body? with
      | none => rfl
      | some body =>
        have hapart : ¬ route ++ [i] <+: route' ++ [j] := by simpa using h
        have hapart' : ¬ route' ++ [j] <+: route ++ [i] := by simpa using h'
        exact stepAt?_amendAt_of_apart hapart hapart'
    · rw [getElem?_amendAt_cons_ne hk]

/-- **A loop around the changed step keeps all but its body.** -/
theorem stepAt?_amendAt_of_prefix : ∀ {route route' : Route} {steps : List Step} {step : Step},
    route' ++ [j] <+: route → stepAt? route' j steps = some step →
      ∃ body, stepAt? route' j (amendAt f i route steps) = some (step.mapBody fun _ => body)
  | [], route', _, _, h, _ => by simp at h
  | k :: route, [], steps, step, h, hstep => by
    have hk : j = k := by simpa using h
    subst hk
    have hstep : steps[j]? = some step := hstep
    have hnew : stepAt? [] j (amendAt f i (j :: route) steps) =
        some (step.mapBody (amendAt f i route)) := by
      show (amendAt f i (j :: route) steps)[j]? = _
      rw [amendAt, List.getElem?_modify_eq, hstep]
      rfl
    rw [hnew]
    cases step with
    | loop counter start stop stride body => exact ⟨amendAt f i route body, rfl⟩
    | _ => exact ⟨[], rfl⟩
  | k :: route, k' :: route', steps, step, h, hstep => by
    obtain ⟨hk, hprefix⟩ := List.cons_prefix_cons.mp h
    subst hk
    rw [stepAt?_cons] at hstep
    obtain ⟨body, hbody, hstep⟩ := Option.bind_eq_some_iff.mp hstep
    rw [stepAt?_cons, bind_body?_amendAt, hbody]
    exact stepAt?_amendAt_of_prefix hprefix hstep

end Amending

/-! ### What is read from a document with a change -/

section Reading

variable {readBody : StepsReader} {path : Path} {raw raw' : Json} {inside inside' : List Json}

/-- A step with other steps inside is read with another body. -/
theorem Step.ofJson_sameBut (h : raw.SameBut "steps" raw') (hraw : raw.field "steps" = .arr inside)
    (hraw' : raw'.field "steps" = .arr inside') {g : List Step → List Step}
    (hg : readBody (path ++ [.field "steps"]) inside' =
      g (readBody (path ++ [.field "steps"]) inside)) :
    Step.ofJson readBody path raw' = (Step.ofJson readBody path raw).mapBody g := by
  have hfield (other : String) (hne : other ≠ "steps") : raw'.field other = raw.field other :=
    h.field other hne
  have hloop : readLoop readBody path raw' = (readLoop readBody path raw).mapBody g := by
    unfold readLoop
    rw [hraw, hraw', hfield "var" (by decide), hfield "from" (by decide), hfield "to" (by decide),
      hfield "step" (by decide)]
    cases nameOf? (raw.field "var") with
    | none => rfl
    | some counter => exact congrArg (Step.loop counter _ _ _) hg
  have hcall : readCall path raw' = (readCall path raw).mapBody g := by
    unfold readCall
    rw [hfield "name" (by decide), hfield "args" (by decide)]
    split <;> rfl
  have hobject := h.isObject
  have hobject' := h.isObject'
  unfold Step.ofJson
  cases raw with
  | obj fields =>
    cases raw' with
    | obj fields' =>
      simp only
      rw [hfield "op" (by decide), hfield "x" (by decide), hfield "y" (by decide),
        hfield "z" (by decide), hfield "blockType" (by decide)]
      cases Op.ofJson? (Json.field "op" (.obj fields)) with
      | none => rfl
      | some op =>
        cases op with
        | place => rfl
        | loop => exact hloop
        | call => exact hcall
    | _ => cases hobject'
  | _ => cases hobject

/-- A definition with other steps is read with other steps. -/
theorem Definition.ofJson_sameBut (h : raw.SameBut "steps" raw')
    (hraw' : raw'.field "steps" = .arr inside') {d : Definition}
    (hd : ofJson readBody path raw = .ok d) :
    ofJson readBody path raw' =
      .ok { d with steps := readBody (path ++ [.field "steps"]) inside' } := by
  obtain ⟨-, hname, hparameters, -⟩ := ofJson_eq_ok hd
  have hname' : nameOf? (raw'.field "name") = some d.name := by
    rw [h.field "name" (by decide)]
    exact hname
  unfold ofJson
  simp only [h.isObject', hname', hraw', h.field "params" (by decide), hparameters]
  rfl

/-- Where an item is found the value is an array. -/
theorem Json.at?_hops {route : Route} {i : Nat} {value old : Json}
    (h : Json.at? (hops route ++ [.index i]) value = some old) : ∃ items, value = .arr items := by
  cases route with
  | nil =>
    obtain ⟨items, -, rfl, -⟩ := Json.at?_index.mp h
    exact ⟨items, rfl⟩
  | cons k route =>
    obtain ⟨items, -, rfl, -⟩ := Json.at?_index.mp h
    exact ⟨items, rfl⟩

/-- **A list with one raw step replaced is read as before with one step changed**, and it is not
changed at all where the step lies so deep that it is not read. -/
theorem exists_amendAt (new : Json) {i : Nat} : ∀ {route : Route} {raws : List Json} {old : Json},
    Json.at? (hops route ++ [.index i]) (.arr raws) = some old →
      ∃ raws', Json.put new (hops route ++ [.index i]) (.arr raws) = .arr raws' ∧
        ∀ (levels : Nat) (path : Path), ∃ f : Step → Step,
          (levels ≤ route.length → f = id) ∧
          readSteps levels path raws' = amendAt f i route (readSteps levels path raws)
  | [], raws, old, _ => by
    refine ⟨raws.modify i fun _ => new, rfl, fun levels path => ?_⟩
    cases levels with
    | zero => exact ⟨id, fun _ => rfl, (amendAt_id i [] _).symm⟩
    | succ levels =>
      refine ⟨fun _ => Step.ofJson (readSteps levels) (path ++ [.index i]) new,
        fun h => absurd h (Nat.not_succ_le_zero levels), ?_⟩
      exact mapIdx_modify fun _ _ => rfl
  | k :: route, raws, old, h => by
    have hhops : hops (k :: route) ++ [.index i] =
        .index k :: .field "steps" :: (hops route ++ [.index i]) := rfl
    rw [hhops] at h
    obtain ⟨items, raw, hitems, hraw, h⟩ := Json.at?_index.mp h
    cases hitems
    obtain ⟨value, hvalue, h⟩ := Json.at?_field.mp h
    obtain ⟨inside, rfl⟩ := Json.at?_hops h
    obtain ⟨inside', hinside, hread⟩ := exists_amendAt new h
    obtain ⟨hbut, hfield'⟩ := Json.put_field new (hops route ++ [.index i]) hvalue
    rw [hinside] at hfield'
    refine ⟨_, by rw [hhops]; rfl, fun levels path => ?_⟩
    cases levels with
    | zero =>
      refine ⟨id, fun _ => rfl, ?_⟩
      rw [amendAt_id]
      rfl
    | succ levels =>
      obtain ⟨f, hf, hsteps⟩ := hread levels (path ++ [.index k] ++ [.field "steps"])
      refine ⟨f, fun hle => hf (Nat.le_of_succ_le_succ hle), mapIdx_modify fun x hx => ?_⟩
      obtain rfl : raw = x := Option.some.inj (hraw.symm.trans hx)
      exact Step.ofJson_sameBut hbut (Json.field_of_field? hvalue) (Json.field_of_field? hfield')
        hsteps

end Reading

/-! ### What is read from a document with a change in a definition -/

section Definitions

variable {readBody : StepsReader} {raws : List Json} {ds : List Definition} {n : Nat}
  {raw : Json} {d d' : Definition} {g : Json → Json}

/-- With one raw definition replaced, the definitions are read as before but for this one. -/
theorem readDefinitions_modify (h : readDefinitions readBody 0 raws = .ok ds)
    (hraw : raws[n]? = some raw)
    (hd' : Definition.ofJson readBody [.field "defs", .index n] (g raw) = .ok d') :
    readDefinitions readBody 0 (raws.modify n g) = .ok (ds.modify n fun _ => d') := by
  have hread := readDefinitions_eq_ok.mp h
  refine readDefinitions_eq_ok.mpr ?_
  rw [mapIdx_modify (f := fun _ => .ok d') fun x hx => ?_, ← hread]
  · exact map_modify fun _ _ => rfl
  · obtain rfl : raw = x := Option.some.inj (hraw.symm.trans hx)
    rw [Nat.zero_add]
    exact hd'

/-- Which raw definition is the last one of its name, the names tell. -/
theorem Program.LastOfName.congr {raws' : List Json}
    (hnames : raws'.map definedName? = raws.map definedName?) {name : String} {i : Nat}
    {raw raw' : Json} (h : LastOfName raws name i raw) (hraw' : raws'[i]? = some raw') :
    LastOfName raws' name i raw' := by
  have hname (j : Nat) : raws'[j]?.map definedName? = raws[j]?.map definedName? := by
    rw [← List.getElem?_map, ← List.getElem?_map, hnames]
  refine ⟨hraw', ?_, fun j raw'' hj hraw'' hnamed => ?_⟩
  · have hi := hname i
    rw [hraw', h.here] at hi
    rw [Option.some.inj hi, h.named]
  · have hj' := hname j
    rw [hraw''] at hj'
    obtain ⟨old, hold, hsame⟩ := Option.map_eq_some_iff.mp hj'.symm
    exact h.last j old hj hold (hsame.trans hnamed)

/-- The last one of a name stays so with one raw definition replaced, if the names stay. -/
theorem Program.LastOfName.modify
    (hnames : (raws.modify n g).map definedName? = raws.map definedName?) {name : String} {i : Nat}
    (h : LastOfName raws name i raw) :
    LastOfName (raws.modify n g) name i (if n = i then g raw else raw) := by
  refine h.congr hnames ?_
  rw [List.getElem?_modify, h.here]
  rfl

theorem Program.LastOfName.exists_of_names {raws' : List Json}
    (hnames : raws'.map definedName? = raws.map definedName?) {name : String} {i : Nat}
    {raw' : Json} (h : LastOfName raws' name i raw') : ∃ raw, LastOfName raws name i raw := by
  have hi := congrArg (·[i]?) hnames
  simp only [List.getElem?_map, h.here, Option.map_some] at hi
  obtain ⟨raw, hraw, -⟩ := Option.map_eq_some_iff.mp hi.symm
  exact ⟨raw, h.congr hnames.symm hraw⟩

end Definitions

/-! ### Programs with a change -/

namespace Place

/-- The way to the step from the list at the start. -/
def way (place : Place) : Route :=
  place.route ++ [place.index]

/-- Whether a place lies in the step at another one. -/
def Within (place place' : Place) : Prop :=
  place.home = place'.home ∧ place'.way <+: place.way

theorem address_eq (place : Place) :
    place.address = place.home ++ (hops place.route ++ [.index place.index]) :=
  List.append_assoc _ _ _

end Place

namespace Program

/-- Where names are found with the same parameters, whatever the steps are. -/
theorem find?_foldl_define_congr {ds ds' : List Definition}
    (h : ds'.map (fun d => (d.name, d.parameters)) = ds.map fun d => (d.name, d.parameters))
    (name : String) : ((ds'.foldl define {}).find? name).map (·.parameters) =
      ((ds.foldl define {}).find? name).map (·.parameters) := by
  have hfind (ds : List Definition) : ((ds.foldl define {}).find? name).map (·.parameters) =
      ((ds.map fun d => (d.name, d.parameters)).reverse.find? (·.1 = name)).map (·.2) := by
    rw [find?_foldl_define_eq, ← List.map_reverse, List.find?_map, Option.map_map]
    rfl
  rw [hfind, hfind, h]

/-- Whether a program is read from a document that is another one read before, but for a change of
the step at a place. -/
structure Amended (place : Place) (f : Step → Step) (document : Json) (p : Program)
    (document' : Json) (p' : Program) : Prop where
  read : Program.read document' = .ok p'
  redefined : p'.redefined = p.redefined
  names : p'.definitions.map (·.name) = p.definitions.map (·.name)
  parameters : ∀ name, (p'.find? name).map (·.parameters) = (p.find? name).map (·.parameters)
  home : ∀ {home : Path} {steps : List Step}, p.Home document home steps →
    p'.Home document' home
      (if home = place.home then amendAt f place.index place.route steps else steps)
  written : ∀ {home : Path} {steps' : List Step}, p'.Home document' home steps' →
    ∃ steps, p.Home document home steps

variable {document : Json} {p : Program}

/-- A change in the steps of the program. -/
theorem exists_amended_steps (h : Program.read document = .ok p) (new : Json) {route : Route}
    {i : Nat} {old : Json}
    (hat : Json.at? (.field "steps" :: (hops route ++ [.index i])) document = some old) :
    ∃ f p', (maxStepNesting + 1 ≤ route.length → f = id) ∧
      Amended ⟨[.field "steps"], route, i⟩ f document p
        (Json.put new (.field "steps" :: (hops route ++ [.index i])) document) p' := by
  obtain ⟨-, hdefs, ds, raws, hds, hsteps, rfl⟩ := readBy_eq_ok.mp h
  obtain ⟨value, hvalue, hat⟩ := Json.at?_field.mp hat
  obtain rfl : value = .arr raws := (Json.field_of_field? hvalue).symm.trans hsteps
  obtain ⟨raws', hraws', hread⟩ := exists_amendAt new hat
  obtain ⟨hbut, hfield'⟩ := Json.put_field new (hops route ++ [.index i]) hvalue
  rw [hraws'] at hfield'
  obtain ⟨f, hf, hamend⟩ := hread (maxStepNesting + 1) [.field "steps"]
  generalize Json.put new (.field "steps" :: (hops route ++ [.index i])) document = document' at *
  have hdefs' : document'.field "defs" = document.field "defs" := hbut.field "defs" (by decide)
  have hraw : rawDefinitions document' = rawDefinitions document := by
    unfold rawDefinitions
    rw [hdefs']
  have hread' : readBy (readSteps (maxStepNesting + 1)) document' =
      .ok { ds.foldl define {} with
        steps := readSteps (maxStepNesting + 1) [.field "steps"] raws' } :=
    readBy_eq_ok.mpr ⟨hbut.isObject', hdefs' ▸ hdefs, ds, raws', hraw ▸ hds,
      Json.field_of_field? hfield', rfl⟩
  refine ⟨f, _, hf, hread', rfl, rfl, fun _ => rfl, ?_, ?_⟩
  · intro home steps hhome
    cases hhome with
    | program =>
      rw [if_pos rfl, ← hamend]
      exact .program
    | definition hd hlast =>
      rw [if_neg (by simp)]
      exact .definition hd (hraw ▸ hlast)
  · intro home steps' hhome
    cases hhome with
    | program => exact ⟨_, .program⟩
    | definition hd hlast => exact ⟨_, .definition hd (hraw ▸ hlast)⟩

/-- A change in one raw definition, of which the name stays. -/
theorem exists_amended_raw (h : Program.read document = .ok p) {document' : Json} {raws : List Json}
    {n : Nat} {raw : Json} {g : Json → Json} {f : Step → Step} {i : Nat} {route : Route}
    (hbut : document.SameBut "defs" document') (hdefs : document.field "defs" = .arr raws)
    (hdefs' : document'.field "defs" = .arr (raws.modify n g)) (hraw : raws[n]? = some raw)
    (hname : definedName? (g raw) = definedName? raw)
    (hg : ∀ d, Definition.ofJson (readSteps (maxStepNesting + 1)) [.field "defs", .index n] raw =
      .ok d → Definition.ofJson (readSteps (maxStepNesting + 1)) [.field "defs", .index n] (g raw) =
      .ok { d with steps := amendAt f i route d.steps }) :
    ∃ p', Amended ⟨[.field "defs", .index n, .field "steps"], route, i⟩ f document p document'
      p' := by
  obtain ⟨-, -, ds, top, hds, htop, hp⟩ := readBy_eq_ok.mp h
  have hraws : rawDefinitions document = raws := by
    rw [rawDefinitions, hdefs]
    rfl
  have hraws' : rawDefinitions document' = raws.modify n g := by
    rw [rawDefinitions, hdefs']
    rfl
  rw [hraws] at hds
  obtain ⟨d, hd, hof⟩ := exists_of_readDefinitions hds hraw
  have hof' := hg d hof
  have hds' := readDefinitions_modify hds hraw hof'
  have hread' := readBy_eq_ok.mpr ⟨hbut.isObject', .inr (by rw [hdefs']; rfl), _, top,
    hraws'.symm ▸ hds', (hbut.field "steps" (by decide)).trans htop, rfl⟩
  have hnames : (raws.modify n g).map definedName? = raws.map definedName? := by
    refine map_modify_of_eq fun x hx => ?_
    obtain rfl : raw = x := Option.some.inj (hraw.symm.trans hx)
    exact hname
  have hheader {β : Type} (header : Definition → β)
      (hsame : header { d with steps := amendAt f i route d.steps } = header d) :
      (ds.modify n fun _ => { d with steps := amendAt f i route d.steps }).map header =
        ds.map header := by
    refine map_modify_of_eq fun x hx => ?_
    obtain rfl : d = x := Option.some.inj (hd.symm.trans hx)
    exact hsame
  have hname' := hheader (·.name) rfl
  refine ⟨_, hread', ?_, ?_, ?_, fun {home steps} hhome => ?_, fun {home steps'} hhome => ?_⟩
  · subst hp
    calc _ = repetitions _ := redefined_foldl_define _
      _ = repetitions _ := congrArg repetitions hname'
      _ = _ := (redefined_foldl_define ds).symm
  · subst hp
    calc _ = List.eraseDups _ := names_foldl_define _
      _ = List.eraseDups _ := congrArg List.eraseDups hname'
      _ = _ := (names_foldl_define ds).symm
  · subst hp
    exact find?_foldl_define_congr (hheader _ rfl)
  · refine (home_iff hread').mpr ?_
    rcases (home_iff h).mp hhome with ⟨rfl, hsteps⟩ | ⟨j, name, raw', e, rfl, hlast, he, rfl⟩
    · rw [if_neg (by simp), hsteps, hp]
      exact .inl ⟨rfl, rfl⟩
    · right
      have hlast' := (hraws ▸ hlast).modify hnames
      rw [hraws']
      by_cases hj : n = j
      · subst hj
        obtain rfl : raw = raw' := Option.some.inj (hraw.symm.trans (hraws ▸ hlast).here)
        rw [if_pos rfl] at hlast' ⊢
        exact ⟨n, name, g raw, _, rfl, hlast', hg e he, rfl⟩
      · rw [if_neg hj] at hlast'
        rw [if_neg (by simpa [eq_comm] using hj)]
        exact ⟨j, name, raw', e, rfl, hlast', he, rfl⟩
  · rcases (home_iff hread').mp hhome with ⟨rfl, -⟩ | ⟨j, name, raw', -, rfl, hlast', -⟩
    · exact ⟨_, .program⟩
    · obtain ⟨old, hlast⟩ := (hraws' ▸ hlast').exists_of_names hnames
      obtain ⟨e, he, -⟩ := find?_of_lastOfName hds hlast
      exact ⟨_, (home_iff h).mpr (.inr ⟨j, name, old, e, rfl, hraws.symm ▸ hlast, he, rfl⟩)⟩

/-- A change in the steps of a definition. -/
theorem exists_amended_definition (h : Program.read document = .ok p) (new : Json) {n : Nat}
    {route : Route} {i : Nat} {old : Json}
    (hat : Json.at? (.field "defs" :: .index n :: .field "steps" :: (hops route ++ [.index i]))
      document = some old) :
    ∃ f p', (maxStepNesting + 1 ≤ route.length → f = id) ∧
      Amended ⟨[.field "defs", .index n, .field "steps"], route, i⟩ f document p
        (Json.put new
          (.field "defs" :: .index n :: .field "steps" :: (hops route ++ [.index i])) document)
        p' := by
  obtain ⟨value, hvalue, hat⟩ := Json.at?_field.mp hat
  obtain ⟨raws, raw, rfl, hraw, hat⟩ := Json.at?_index.mp hat
  obtain ⟨value, hinside, hat⟩ := Json.at?_field.mp hat
  obtain ⟨inside, rfl⟩ := Json.at?_hops hat
  obtain ⟨inside', hinside', hamend⟩ := exists_amendAt new hat
  obtain ⟨hraw', hfield'⟩ := Json.put_field new (hops route ++ [.index i]) hinside
  rw [hinside'] at hfield'
  obtain ⟨hbut, hdefs'⟩ := Json.put_field new
    (.index n :: .field "steps" :: (hops route ++ [.index i])) hvalue
  obtain ⟨f, hf, hsteps⟩ :=
    hamend (maxStepNesting + 1) ([.field "defs", .index n] ++ [.field "steps"])
  have hname : definedName? (Json.put new (.field "steps" :: (hops route ++ [.index i])) raw) =
      definedName? raw := congrArg nameOf? (hraw'.field "name" (by decide))
  have hsteps' (d : Definition)
      (hd : Definition.ofJson (readSteps (maxStepNesting + 1)) [.field "defs", .index n] raw =
        .ok d) :
      Definition.ofJson (readSteps (maxStepNesting + 1)) [.field "defs", .index n]
        (Json.put new (.field "steps" :: (hops route ++ [.index i])) raw) =
        .ok { d with steps := amendAt f i route d.steps } := by
    obtain ⟨-, -, -, items, hitems, hread⟩ := Definition.ofJson_eq_ok hd
    obtain rfl : inside = items := Json.arr.inj ((Json.field_of_field? hinside).symm.trans hitems)
    rw [Definition.ofJson_sameBut hraw' (Json.field_of_field? hfield') hd, hread, hsteps]
  obtain ⟨p', hp'⟩ := exists_amended_raw h hbut (Json.field_of_field? hvalue)
    (Json.field_of_field? hdefs') hraw hname hsteps'
  exact ⟨f, p', hf, hp'⟩

/-- **A document with one raw step replaced is read as the program that was read before, with one
step changed.** -/
theorem exists_amended (h : Program.read document = .ok p) (new : Json) {place : Place}
    (hhome : IsHome place.home) {old : Json} (hat : Json.at? place.address document = some old) :
    ∃ f p', (maxStepNesting + 1 ≤ place.route.length → f = id) ∧
      Amended place f document p (Json.put new place.address document) p' := by
  obtain ⟨home, route, i⟩ := place
  rw [Place.address_eq] at hat ⊢
  cases hhome with
  | program => exact exists_amended_steps h new hat
  | definition n => exact exists_amended_definition h new hat

theorem stepAt_iff {place : Place} {step : Step} : p.StepAt document place step ↔
    ∃ top, p.Home document place.home top ∧ stepAt? place.route place.index top = some step := by
  constructor
  · rintro ⟨steps, ⟨top, hhome, hbody⟩, hindex⟩
    exact ⟨top, hhome, Option.bind_eq_some_iff.mpr ⟨steps, hbody, hindex⟩⟩
  · rintro ⟨top, hhome, hstep⟩
    obtain ⟨steps, hbody, hindex⟩ := Option.bind_eq_some_iff.mp hstep
    exact ⟨steps, ⟨top, hhome, hbody⟩, hindex⟩

namespace Amended

variable {place place' : Place} {f : Step → Step} {document' : Json} {p' : Program} {step : Step}

/-- What stands at a place after the change. -/
theorem stepAt_iff (ha : Amended place f document p document' p') :
    p'.StepAt document' place' step ↔ ∃ top, p.Home document place'.home top ∧
      stepAt? place'.route place'.index
        (if place'.home = place.home then amendAt f place.index place.route top else top) =
          some step := by
  rw [Program.stepAt_iff]
  constructor
  · rintro ⟨top', hhome', hstep⟩
    obtain ⟨top, hhome⟩ := ha.written hhome'
    rw [hhome'.unique ha.read (ha.home hhome)] at hstep
    exact ⟨top, hhome, hstep⟩
  · rintro ⟨top, hhome, hstep⟩
    exact ⟨_, ha.home hhome, hstep⟩

/-- A step apart from the change is not touched. -/
theorem stepAt_of_apart (ha : Amended place f document p document' p')
    (h : ¬ place'.Within place) (h' : ¬ place.Within place') :
    p'.StepAt document' place' step ↔ p.StepAt document place' step := by
  rw [ha.stepAt_iff, Program.stepAt_iff]
  by_cases hhome : place'.home = place.home
  · have hapart : ¬ place.route ++ [place.index] <+: place'.route ++ [place'.index] :=
      fun hp => h ⟨hhome, hp⟩
    have hapart' : ¬ place'.route ++ [place'.index] <+: place.route ++ [place.index] :=
      fun hp => h' ⟨hhome.symm, hp⟩
    simp only [if_pos hhome, stepAt?_amendAt_of_apart hapart hapart']
  · simp only [if_neg hhome]

/-- A loop around the change keeps all but its body. -/
theorem stepAt_of_within (ha : Amended place f document p document' p')
    (h : place.Within place') (hne : place ≠ place') (hstep : p.StepAt document place' step) :
    ∃ body, p'.StepAt document' place' (step.mapBody fun _ => body) := by
  obtain ⟨top, htop, hstep⟩ := Program.stepAt_iff.mp hstep
  have hprefix : place'.route ++ [place'.index] <+: place.route := by
    rcases List.prefix_concat_iff.mp h.2 with hway | hprefix
    · obtain ⟨hroute, hindex⟩ := List.append_inj' hway rfl
      have hindex : place'.index = place.index := by simpa using hindex
      refine absurd ?_ hne
      cases place
      cases place'
      simp_all [Place.Within]
    · exact hprefix
  obtain ⟨body, hbody⟩ := stepAt?_amendAt_of_prefix (f := f) (i := place.index) hprefix hstep
  refine ⟨body, ha.stepAt_iff.mpr ⟨top, htop, ?_⟩⟩
  rw [if_pos h.1.symm]
  exact hbody

/-- Where no step is read nothing changes. -/
theorem stepAt_of_id (ha : Amended place id document p document' p') :
    p'.StepAt document' place' step ↔ p.StepAt document place' step := by
  rw [ha.stepAt_iff, Program.stepAt_iff]
  simp only [amendAt_id, ite_self]

end Amended

/-! ### The addresses that are told -/

/-- A list that is read has the steps of the raw list, one for each and in their order. -/
theorem ListAt.exists_raws (h : Program.read document = .ok p) {home : Path} {route : Route}
    {steps : List Step} (hlist : p.ListAt document home route steps)
    (hdeep : route.length ≤ maxStepNesting) :
    ∃ raws, Json.at? (home ++ hops route) document = some (.arr raws) ∧
      steps.length = raws.length ∧ ∀ i : Nat, steps[i]? = raws[i]?.map
        (Step.ofJson (readSteps (maxStepNesting - route.length))
          (home ++ hops route ++ [.index i])) := by
  obtain ⟨raws, hat, -, rfl⟩ := hlist.exists_raw h
  have hlevels : maxStepNesting + 1 - route.length = maxStepNesting - route.length + 1 := by omega
  rw [hlevels]
  exact ⟨raws, hat, by rw [readSteps, List.length_mapIdx], fun i => getElem?_readSteps _ _ raws i⟩

/-- **The address of a step is where it was read from.** In a program that is read from a document

* the steps of every definition are written at a place of the document, and so is, through the
  loops, every list of steps;
* a step that could not be read tells its address, as it is written, where a value stands that
  cannot be read on its own, wherever it stands; or the lists are nested too deeply there, and it
  tells the address of the list that was not read;
* two such steps at different places tell different addresses;
* a list that is not nested too deeply has the steps of the list in the document, each read from
  the value at its index;
* and with one raw step replaced, wherever it stands, the document is still read, with the same
  definitions, names and parameters. A step that neither lies in the one that is replaced nor
  around it is the same as before, one around it is the same but for its body, and where lists are
  nested too deeply nothing changes. -/
theorem step_addresses_true (h : Program.read document = .ok p) :
    (∀ d ∈ p.definitions, ∃ home, p.Home document home d.steps) ∧
    (∀ place m, p.StepAt document place (.invalid m) →
      Path.ofText? m.path.text = some m.path ∧
      ((m.fault ≠ .stepsNestedTooDeeply ∧ m.path = place.address ∧
        ∃ raw, Json.at? m.path document = some raw ∧
          ∀ readBody path, Step.ofJson readBody path raw = .invalid ⟨m.fault, path⟩) ∨
      (m.fault = .stepsNestedTooDeeply ∧ m.path = place.list ∧
        place.route.length = maxStepNesting + 1 ∧ place.index = 0 ∧
        ∃ raws, Json.at? m.path document = some (.arr raws)))) ∧
    (∀ place place' m m', p.StepAt document place (.invalid m) →
      p.StepAt document place' (.invalid m') → m.path.text = m'.path.text →
      place = place' ∧ m = m') ∧
    (∀ home route steps, p.ListAt document home route steps → route.length ≤ maxStepNesting →
      ∃ raws, Json.at? (home ++ hops route) document = some (.arr raws) ∧
        steps.length = raws.length ∧ ∀ i : Nat, steps[i]? = raws[i]?.map
          (Step.ofJson (readSteps (maxStepNesting - route.length))
            (home ++ hops route ++ [.index i]))) ∧
    ∀ place old new, IsHome place.home → Json.at? place.address document = some old →
      ∃ p', Program.read (Json.put new place.address document) = .ok p' ∧
        p'.redefined = p.redefined ∧
        p'.definitions.map (·.name) = p.definitions.map (·.name) ∧
        (∀ name, (p'.find? name).map (·.parameters) = (p.find? name).map (·.parameters)) ∧
        (∀ place' step,
          (¬ place'.Within place ∧ ¬ place.Within place') ∨ maxStepNesting < place.route.length →
          (p'.StepAt (Json.put new place.address document) place' step ↔
            p.StepAt document place' step)) ∧
        ∀ place' step, place.Within place' → place ≠ place' → p.StepAt document place' step →
          ∃ body, p'.StepAt (Json.put new place.address document) place'
            (step.mapBody fun _ => body) := by
  refine ⟨fun d hd => exists_home h hd, fun place m hstep => ⟨hstep.ofText?_path h,
    hstep.malformation h⟩, fun place place' m m' hstep hstep' htext => ?_,
    fun home route steps hlist hdeep => hlist.exists_raws h hdeep,
    fun place old new hhome hat => ?_⟩
  · have hpath : m.path = m'.path := by
      have hread := hstep.ofText?_path h
      rw [htext, hstep'.ofText?_path h] at hread
      exact (Option.some.inj hread).symm
    obtain rfl := hstep.path_injective h hstep' hpath
    exact ⟨rfl, Step.invalid.inj (hstep.unique h hstep')⟩
  · obtain ⟨f, p', hf, ha⟩ := exists_amended h new hhome hat
    refine ⟨p', ha.read, ha.redefined, ha.names, ha.parameters, fun place' step hcase => ?_,
      fun place' step hwithin hne hstep => ha.stepAt_of_within hwithin hne hstep⟩
    rcases hcase with ⟨hout, hout'⟩ | hdeep
    · exact ha.stepAt_of_apart hout hout'
    · rw [hf hdeep] at ha
      exact ha.stepAt_of_id

/-- A definition with a loop in which a step cannot be read. -/
def fence : Json :=
  .obj
    [("name", .str " fence "),
     ("steps", .arr
      [.obj
        [("op", .str "for"), ("var", .str "i"), ("from", .int 0), ("to", .int 2),
         ("steps", .arr [.str "post", .obj [("op", .str "place")]])]])]

/-- A document in which this definition replaces another. -/
def fences : Json :=
  .obj
    [("defs", .arr [.obj [("name", .str "fence"), ("steps", .arr [])], fence]),
     ("steps", .arr [])]

/-- The steps in the loop. -/
def post (index : Nat) : Place :=
  ⟨[.field "defs", .index 1, .field "steps"], [0], index⟩

/-- What is put in the place of the step that cannot be read. -/
def gate : Json :=
  .obj [("op", .str "call"), ("name", .str "gate")]

theorem step_addresses_true_fences : ∃ p m, read fences = .ok p ∧
    p.StepAt fences (post 0) (.invalid m) ∧ m.path.text = "defs[1].steps[0].steps[0]" ∧
    Path.ofText? m.path.text = some m.path ∧ Json.at? m.path fences = some (.str "post") ∧
    ∃ p', read (Json.put gate (post 0).address fences) = .ok p' ∧
      (p'.find? "fence").map (·.parameters) = some [] ∧
      p'.StepAt (Json.put gate (post 0).address fences) (post 1)
        (.place .null .null .null .null) := by
  obtain ⟨p, hp⟩ : ∃ p, read fences = .ok p := ⟨_, rfl⟩
  obtain ⟨-, hinvalid, -, -, hchange⟩ := step_addresses_true hp
  have hlast : LastOfName (rawDefinitions fences) "fence" 1 fence := by
    refine ⟨rfl, by decide, fun j raw hj hraw => ?_⟩
    have hshort := (List.getElem?_eq_some_iff.mp hraw).1
    have hlength : (rawDefinitions fences).length = 2 := rfl
    omega
  have hposts : p.ListAt fences (post 0).home [0]
      [.invalid ⟨.stepNotObject, (post 0).address⟩, .place .null .null .null .null] := by
    cases hp
    exact ⟨_, .definition (List.mem_singleton.mpr rfl) hlast, rfl⟩
  have hbroken : p.StepAt fences (post 0) (.invalid ⟨.stepNotObject, (post 0).address⟩) :=
    ⟨_, hposts, rfl⟩
  have hnext : p.StepAt fences (post 1) (.place .null .null .null .null) := ⟨_, hposts, rfl⟩
  obtain ⟨p', hp', -, -, hparameters, hsame, -⟩ :=
    hchange (post 0) (.str "post") gate (.definition 1) rfl
  refine ⟨p, _, hp, hbroken, by decide +kernel, (hinvalid _ _ hbroken).1, rfl, p', hp', ?_, ?_⟩
  · rw [hparameters]
    cases hp
    rfl
  · refine (hsame _ _ (.inl ⟨fun h => ?_, fun h => ?_⟩)).mpr hnext
    · exact absurd h.2 (by decide)
    · exact absurd h.2 (by decide)

end Program
end VoxelBlueprint
