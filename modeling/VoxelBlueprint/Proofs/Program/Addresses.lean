/-
# The addresses of steps

Every step of a program has a place in the document that the program was read from: the list of
steps at which its way starts, be it the one of the program or that of a definition, the loops
through the bodies of which the way leads, and an index in the last list. At this place stands the
value that the step was read from. A step that could not be read tells its place, so what is told
is a true address; only where lists are nested too deeply it is the list that is told and not a
step of it, since a single step stands for the whole list.

Key definitions: `hops`, `bodyAt?`, `Place`, `Program.Home`, `Program.ListAt`, `Program.StepAt`.
Key theorems: `Step.ofJson_eq_loop`, `Step.ofJson_eq_invalid`, `bodyAt?_readSteps`,
`Program.ListAt.exists_raw`, `Program.StepAt.malformation`, `Place.address_injective`,
`Program.StepAt.path_injective`.
-/
import VoxelBlueprint.Proofs.Json.Paths
import VoxelBlueprint.Proofs.Json.Updates
import VoxelBlueprint.Proofs.Program.Definitions
import VoxelBlueprint.Proofs.Program.Findings

namespace VoxelBlueprint

open Effects

/-! ### Ways through lists of steps -/

/-- The way that a route takes in a document: from a list of steps to the lists inside. -/
def hops (route : Route) : Path :=
  route.flatMap fun i => [.index i, .field "steps"]

/-- The body of a loop. -/
def Step.body? : Step → Option (List Step)
  | .loop _ _ _ _ body => some body
  | _ => none

/-- The list of steps to which a route leads, through the bodies of loops. -/
def bodyAt? : Route → List Step → Option (List Step)
  | [], steps => some steps
  | i :: route, steps => (steps[i]?.bind Step.body?).bind (bodyAt? route)

/-- A step of a list of steps that may be reached through other lists. -/
structure Place where
  /-- Where the way starts in the document. -/
  home : Path
  route : Route
  index : Nat

namespace Place

/-- The address of the list. -/
def list (place : Place) : Path :=
  place.home ++ hops place.route

/-- The address of the step. -/
def address (place : Place) : Path :=
  place.list ++ [.index place.index]

end Place

/-! ### What steps are read from -/

section Reading

variable {readBody : StepsReader} {path : Path} {raw : Json}

/-- The body of a loop is read from the array in the field `steps`. -/
theorem Step.ofJson_eq_loop {body : List Step}
    (h : (Step.ofJson readBody path raw).body? = some body) :
    ∃ raws, raw.field? "steps" = some (.arr raws) ∧
      body = readBody (path ++ [.field "steps"]) raws := by
  have hloop (h : (readLoop readBody path raw).body? = some body) :
      ∃ raws, raw.field? "steps" = some (.arr raws) ∧
        body = readBody (path ++ [.field "steps"]) raws := by
    unfold readLoop at h
    split at h
    · cases h
    · rename_i raws _ hraws
      cases h
      exact ⟨raws, Json.field?_of_field hraws (by simp), rfl⟩
    · cases h
  have hcall (h : (readCall path raw).body? = some body) : False := by
    unfold readCall at h
    split at h <;> cases h
  unfold Step.ofJson at h
  cases raw with
  | obj fields =>
    cases hop : Op.ofJson? (Json.field "op" (.obj fields)) with
    | none => simp [hop, body?] at h
    | some op =>
      simp only [hop] at h
      cases op with
      | place => cases h
      | loop => exact hloop h
      | call => exact (hcall h).elim
  | _ => cases h

/-- A step that cannot be read tells its own place, and what is wrong with it does not depend on
where it stands or how the lists inside are read. -/
theorem Step.ofJson_eq_invalid {m : Malformation} (h : Step.ofJson readBody path raw = .invalid m) :
    m.path = path ∧ m.fault ≠ .stepsNestedTooDeeply ∧
      ∀ readBody' path', Step.ofJson readBody' path' raw = .invalid ⟨m.fault, path'⟩ := by
  have hloop (h : readLoop readBody path raw = .invalid m) :
      m.path = path ∧ m.fault ≠ .stepsNestedTooDeeply ∧
        ∀ readBody' path', readLoop readBody' path' raw = .invalid ⟨m.fault, path'⟩ := by
    unfold readLoop at h ⊢
    cases hname : nameOf? (raw.field "var") with
    | none =>
      simp only [hname, Step.invalid.injEq] at h ⊢
      subst h
      simp
    | some counter =>
      cases hsteps : raw.field "steps" with
      | arr raws => simp [hname, hsteps] at h
      | _ =>
        simp only [hname, hsteps, Step.invalid.injEq] at h ⊢
        subst h
        simp
  have hcall (h : readCall path raw = .invalid m) :
      m.path = path ∧ m.fault ≠ .stepsNestedTooDeeply ∧
        ∀ path', readCall path' raw = .invalid ⟨m.fault, path'⟩ := by
    unfold readCall at h ⊢
    cases hname : nameOf? (raw.field "name") with
    | none =>
      simp only [hname, Step.invalid.injEq] at h ⊢
      subst h
      simp
    | some callee =>
      cases hargs : raw.field "args" with
      | null => simp [hname, hargs] at h
      | obj arguments => simp [hname, hargs] at h
      | _ =>
        simp only [hname, hargs, Step.invalid.injEq] at h ⊢
        subst h
        simp
  unfold Step.ofJson at h ⊢
  cases raw with
  | obj fields =>
    cases hop : Op.ofJson? (Json.field "op" (.obj fields)) with
    | none =>
      simp only [hop, Step.invalid.injEq] at h ⊢
      subst h
      simp
    | some op =>
      simp only [hop] at h ⊢
      cases op with
      | place => cases h
      | loop => exact hloop h
      | call =>
        obtain ⟨hpath, hfault, hown⟩ := hcall h
        exact ⟨hpath, hfault, fun _ => hown⟩
  | _ =>
    cases h
    exact ⟨rfl, by simp, fun _ _ => rfl⟩

end Reading

/-- Each step of a list is read from the value at its index. -/
theorem getElem?_readSteps (levels : Nat) (path : Path) (raws : List Json) (i : Nat) :
    (readSteps (levels + 1) path raws)[i]? =
      raws[i]?.map (Step.ofJson (readSteps levels) (path ++ [.index i])) := by
  rw [readSteps, List.getElem?_mapIdx]

/-- **A list inside is read from the list to which the same way leads in the document**, with as
many levels less as there are loops on the way. -/
theorem bodyAt?_readSteps : ∀ {route : Route} {levels : Nat} {path : Path} {raws : List Json}
    {steps : List Step}, bodyAt? route (readSteps levels path raws) = some steps →
      ∃ raws', Json.at? (hops route) (.arr raws) = some (.arr raws') ∧ route.length ≤ levels ∧
        steps = readSteps (levels - route.length) (path ++ hops route) raws'
  | [], levels, path, raws, steps, h => by
    cases h
    exact ⟨raws, rfl, Nat.zero_le _, by simp [hops]⟩
  | i :: route, 0, path, raws, steps, h => by
    cases i <;> simp [bodyAt?, readSteps, Step.body?] at h
  | i :: route, levels + 1, path, raws, steps, h => by
    obtain ⟨body, hbody, h⟩ := Option.bind_eq_some_iff.mp h
    rw [getElem?_readSteps] at hbody
    obtain ⟨step, hstep, hbody⟩ := Option.bind_eq_some_iff.mp hbody
    obtain ⟨raw, hraw, rfl⟩ := Option.map_eq_some_iff.mp hstep
    obtain ⟨inside, hinside, rfl⟩ := Step.ofJson_eq_loop hbody
    obtain ⟨raws', hat, hlength, hsteps⟩ := bodyAt?_readSteps h
    have hhops : hops (i :: route) = .index i :: .field "steps" :: hops route := rfl
    refine ⟨raws', ?_, Nat.succ_le_succ hlength, ?_⟩
    · rw [hhops]
      exact Json.at?_index.mpr ⟨raws, raw, rfl, hraw, Json.at?_field.mpr ⟨_, hinside, hat⟩⟩
    · rw [hsteps, hhops, List.length_cons, Nat.add_sub_add_right]
      simp

/-! ### Where ways start -/

namespace Program

/-- Where in a document a list of steps is written that the program has: its own, or that of a
definition, which is written in the last definition of the name. -/
inductive Home (document : Json) (p : Program) : Path → List Step → Prop
  | program : Home document p [.field "steps"] p.steps
  | definition {d : Definition} {i : Nat} {raw : Json} : d ∈ p.definitions →
    LastOfName (rawDefinitions document) d.name i raw →
    Home document p [.field "defs", .index i, .field "steps"] d.steps

/-- Whether a route from there leads to a list of steps. -/
def ListAt (document : Json) (p : Program) (home : Path) (route : Route) (steps : List Step) :
    Prop :=
  ∃ top, p.Home document home top ∧ bodyAt? route top = some steps

/-- Whether a step stands at a place. -/
def StepAt (document : Json) (p : Program) (place : Place) (step : Step) : Prop :=
  ∃ steps, p.ListAt document place.home place.route steps ∧ steps[place.index]? = some step

variable {document : Json} {p : Program}

/-- The raw definitions of a document stand in the array of them. -/
theorem field?_defs {i : Nat} {raw : Json} (h : (rawDefinitions document)[i]? = some raw) :
    document.field? "defs" = some (.arr (rawDefinitions document)) := by
  have hdefs : document.field "defs" = .arr (rawDefinitions document) := by
    unfold rawDefinitions at h ⊢
    cases hd : document.field "defs" with
    | arr raws => rfl
    | _ =>
      rw [hd] at h
      cases h
  exact Json.field?_of_field hdefs (by simp)

/-- Where lists of steps are written: the steps of a definition that replaces others stand in the
last definition of its name. -/
theorem home_iff (h : read document = .ok p) {home : Path} {steps : List Step} :
    p.Home document home steps ↔
      (home = [.field "steps"] ∧ steps = p.steps) ∨
      ∃ i name raw d, home = [.field "defs", .index i, .field "steps"] ∧
        LastOfName (rawDefinitions document) name i raw ∧
        Definition.ofJson (readSteps (maxStepNesting + 1)) [.field "defs", .index i] raw = .ok d ∧
        steps = d.steps := by
  constructor
  · intro hhome
    cases hhome with
    | program => exact .inl ⟨rfl, rfl⟩
    | @definition d i raw hd hlast =>
      obtain ⟨e, he, hfind⟩ := find?_of_readBy h hlast
      have hed : e = d := Option.some.inj (hfind.symm.trans ((mem_definitions_iff h).mp hd))
      exact .inr ⟨i, d.name, raw, d, rfl, hlast, hed ▸ he, rfl⟩
  · rintro (⟨rfl, rfl⟩ | ⟨i, name, raw, d, rfl, hlast, hd, rfl⟩)
    · exact .program
    · obtain ⟨e, he, hfind⟩ := find?_of_readBy h hlast
      have hed : e = d := Except.ok.inj (he.symm.trans hd)
      subst hed
      have hname : e.name = name := by simpa using List.find?_some hfind
      exact .definition (List.mem_of_find?_eq_some hfind) (hname ▸ hlast)

/-- The steps of every definition are written somewhere. -/
theorem exists_home (h : read document = .ok p) {d : Definition} (hd : d ∈ p.definitions) :
    ∃ home, p.Home document home d.steps := by
  obtain ⟨-, -, ds, raws, hds, -, rfl⟩ := readBy_eq_ok.mp h
  have hname : d.name ∈ (ds.foldl define {}).definitions.map (·.name) := List.mem_map_of_mem hd
  rw [names_foldl_define, List.mem_eraseDups, ← names_of_readDefinitions hds] at hname
  obtain ⟨i, raw, hlast⟩ := exists_lastOfName hname
  exact ⟨_, .definition hd hlast⟩

/-- One list of steps is written at a place. -/
theorem Home.unique (h : read document = .ok p) {home : Path} {steps steps' : List Step}
    (hhome : p.Home document home steps) (hhome' : p.Home document home steps') :
    steps = steps' := by
  rcases (home_iff h).mp hhome with ⟨rfl, rfl⟩ | ⟨i, name, raw, d, rfl, hlast, hd, rfl⟩ <;>
    rcases (home_iff h).mp hhome' with
      ⟨hpath, hsteps⟩ | ⟨i', name', raw', d', hpath, hlast', hd', hsteps⟩
  · exact hsteps.symm
  · simp at hpath
  · simp at hpath
  · have hi : i = i' := by simpa using hpath
    subst hi
    have hraw : raw = raw' := Option.some.inj (hlast.here.symm.trans hlast'.here)
    subst hraw
    rw [hsteps, Except.ok.inj (hd.symm.trans hd')]

/-- The list at the start of a way is read from the list that is written there. -/
theorem Home.exists_raw (h : read document = .ok p) {home : Path} {steps : List Step}
    (hhome : p.Home document home steps) :
    ∃ raws, Json.at? home document = some (.arr raws) ∧
      steps = readSteps (maxStepNesting + 1) home raws := by
  rcases (home_iff h).mp hhome with ⟨rfl, rfl⟩ | ⟨i, name, raw, d, rfl, hlast, hd, rfl⟩
  · obtain ⟨-, -, ds, raws, -, hsteps, rfl⟩ := readBy_eq_ok.mp h
    have hfield := Json.field?_of_field hsteps (by simp)
    exact ⟨raws, Json.at?_field.mpr ⟨_, hfield, rfl⟩, rfl⟩
  · obtain ⟨-, -, -, raws, hraws, hread⟩ := Definition.ofJson_eq_ok hd
    have hfield := Json.field?_of_field hraws (by simp)
    exact ⟨raws, Json.at?_field.mpr ⟨_, field?_defs hlast.here, Json.at?_index.mpr
      ⟨_, raw, rfl, hlast.here, Json.at?_field.mpr ⟨_, hfield, rfl⟩⟩⟩, hread⟩

/-- **Every list of steps is read from the list that is written at its address.** -/
theorem ListAt.exists_raw (h : read document = .ok p) {home : Path} {route : Route}
    {steps : List Step} (hlist : p.ListAt document home route steps) :
    ∃ raws, Json.at? (home ++ hops route) document = some (.arr raws) ∧
      route.length ≤ maxStepNesting + 1 ∧
      steps = readSteps (maxStepNesting + 1 - route.length) (home ++ hops route) raws := by
  obtain ⟨top, hhome, hbody⟩ := hlist
  obtain ⟨raws, hraws, rfl⟩ := hhome.exists_raw h
  obtain ⟨raws', hat, hlength, hsteps⟩ := bodyAt?_readSteps hbody
  refine ⟨raws', ?_, hlength, hsteps⟩
  rw [Json.at?_append, hraws]
  exact hat

/-- **A step that could not be read tells its address**, where a value stands that cannot be read
on its own; or lists are nested too deeply there, and it is the only step of its list and tells the
address of the list. -/
theorem StepAt.malformation (h : read document = .ok p) {place : Place} {m : Malformation}
    (hstep : p.StepAt document place (.invalid m)) :
    (m.fault ≠ .stepsNestedTooDeeply ∧ m.path = place.address ∧
      ∃ raw, Json.at? m.path document = some raw ∧
        ∀ readBody path, Step.ofJson readBody path raw = .invalid ⟨m.fault, path⟩) ∨
    (m.fault = .stepsNestedTooDeeply ∧ m.path = place.list ∧
      place.route.length = maxStepNesting + 1 ∧ place.index = 0 ∧
      ∃ raws, Json.at? m.path document = some (.arr raws)) := by
  obtain ⟨steps, hlist, hindex⟩ := hstep
  obtain ⟨raws, hraws, hlength, rfl⟩ := hlist.exists_raw h
  obtain ⟨levels, hlevels⟩ : ∃ levels, maxStepNesting + 1 - place.route.length = levels := ⟨_, rfl⟩
  rw [hlevels] at hindex
  cases levels with
  | zero =>
    have hzero : place.index = 0 ∧ m = ⟨.stepsNestedTooDeeply, place.list⟩ := by
      cases hi : place.index with
      | zero =>
        rw [hi] at hindex
        cases hindex
        exact ⟨rfl, rfl⟩
      | succ i =>
        rw [hi] at hindex
        cases hindex
    obtain ⟨hi, rfl⟩ := hzero
    exact .inr ⟨rfl, rfl, by omega, hi, raws, hraws⟩
  | succ levels =>
    rw [getElem?_readSteps] at hindex
    obtain ⟨raw, hraw, hread⟩ := Option.map_eq_some_iff.mp hindex
    obtain ⟨hpath, hfault, hown⟩ := Step.ofJson_eq_invalid hread
    refine .inl ⟨hfault, hpath, raw, ?_, hown⟩
    rw [hpath, Json.at?_append, hraws]
    exact Json.at?_index.mpr ⟨raws, raw, rfl, hraw, rfl⟩

end Program

/-! ### Different places have different addresses -/

/-- Whether ways through a document may start there. -/
inductive IsHome : Path → Prop
  | program : IsHome [.field "steps"]
  | definition (i : Nat) : IsHome [.field "defs", .index i, .field "steps"]

theorem Program.Home.isHome {document : Json} {p : Program} {home : Path} {steps : List Step}
    (h : p.Home document home steps) : IsHome home := by
  cases h with
  | program => exact .program
  | definition => exact .definition _

theorem hops_injective : ∀ {route route' : Route}, hops route = hops route' → route = route'
  | [], [], _ => rfl
  | [], _ :: _, h => by simp [hops] at h
  | _ :: _, [], h => by simp [hops] at h
  | i :: route, j :: route', h => by
    have hcons (k : Nat) (r : Route) : hops (k :: r) = .index k :: .field "steps" :: hops r := rfl
    simp only [hcons, List.cons.injEq, Segment.index.injEq, true_and] at h
    rw [h.1, hops_injective h.2]

/-- Different ways lead to different lists. -/
theorem IsHome.list_injective {home home' : Path} (hhome : IsHome home) (hhome' : IsHome home')
    {route route' : Route} (h : home ++ hops route = home' ++ hops route') :
    home = home' ∧ route = route' := by
  cases hhome <;> cases hhome' <;> simp at h
  · exact ⟨rfl, hops_injective h⟩
  · exact ⟨by rw [h.1], hops_injective h.2⟩

/-- The address of a list ends with the name of a field. -/
theorem IsHome.getLast?_list {home : Path} (hhome : IsHome home) (route : Route) :
    (home ++ hops route).getLast? = some (.field "steps") := by
  induction route using List.reverseRecOn with
  | nil => cases hhome <;> rfl
  | append_singleton route i _ => simp [hops]

/-- An address of a step or a list is written so that it can be read. -/
theorem IsHome.isPlain {home : Path} (hhome : IsHome home) (route : Route) :
    ∀ segment ∈ home ++ hops route, segment.IsPlain := by
  have hsteps : (Segment.field "steps").IsPlain := ⟨by decide, List.all_eq_true.mp rfl⟩
  have hdefs : (Segment.field "defs").IsPlain := ⟨by decide, List.all_eq_true.mp rfl⟩
  intro segment hsegment
  rcases List.mem_append.mp hsegment with hm | hm
  · cases hhome with
    | program =>
      rw [List.mem_singleton.mp hm]
      exact hsteps
    | definition i =>
      simp only [List.mem_cons, List.not_mem_nil, or_false] at hm
      rcases hm with rfl | rfl | rfl
      · exact hdefs
      · trivial
      · exact hsteps
  · obtain ⟨i, -, hi⟩ := List.mem_flatMap.mp hm
    simp only [List.mem_cons, List.not_mem_nil, or_false] at hi
    rcases hi with rfl | rfl
    · trivial
    · exact hsteps

namespace Place

variable {place place' : Place}

theorem address_injective (hhome : IsHome place.home) (hhome' : IsHome place'.home)
    (h : place.address = place'.address) : place = place' := by
  obtain ⟨hlist, hindex⟩ := List.append_inj' h rfl
  obtain ⟨hhomes, hroutes⟩ := hhome.list_injective hhome' hlist
  cases place
  cases place'
  simp_all

/-- No step has the address of a list. -/
theorem address_ne_list (hhome' : IsHome place'.home) : place.address ≠ place'.list := by
  intro h
  have hlast := hhome'.getLast?_list place'.route
  have hend : place.address.getLast? = some (.index place.index) := by simp [address]
  rw [h] at hend
  cases hend.symm.trans hlast

end Place

namespace Program

variable {document : Json} {p : Program}

/-- One step stands at a place. -/
theorem StepAt.unique (h : read document = .ok p) {place : Place} {step step' : Step}
    (hstep : p.StepAt document place step) (hstep' : p.StepAt document place step') :
    step = step' := by
  obtain ⟨steps, ⟨top, hhome, hbody⟩, hindex⟩ := hstep
  obtain ⟨steps', ⟨top', hhome', hbody'⟩, hindex'⟩ := hstep'
  have htop : top = top' := hhome.unique h hhome'
  subst htop
  have hsteps : steps = steps' := Option.some.inj (hbody.symm.trans hbody')
  subst hsteps
  exact Option.some.inj (hindex.symm.trans hindex')

theorem StepAt.isHome {place : Place} {step : Step} (h : p.StepAt document place step) :
    IsHome place.home := by
  obtain ⟨_, ⟨_, hhome, -⟩, -⟩ := h
  exact hhome.isHome

/-- The place that is told is written as its address. -/
theorem StepAt.ofText?_path (h : read document = .ok p) {place : Place} {m : Malformation}
    (hstep : p.StepAt document place (.invalid m)) :
    Path.ofText? m.path.text = some m.path := by
  have hplain := hstep.isHome.isPlain place.route
  apply Path.ofText?_text
  rcases hstep.malformation h with ⟨-, hpath, -⟩ | ⟨-, hpath, -⟩
  · rw [hpath]
    refine List.forall_mem_append.mpr ⟨hplain, ?_⟩
    exact List.forall_mem_singleton.mpr trivial
  · rw [hpath]
    exact hplain

/-- **Steps that could not be read tell different places if they stand at different ones.** -/
theorem StepAt.path_injective (h : read document = .ok p) {place place' : Place}
    {m m' : Malformation} (hstep : p.StepAt document place (.invalid m))
    (hstep' : p.StepAt document place' (.invalid m')) (hpath : m.path = m'.path) :
    place = place' := by
  have hhome := hstep.isHome
  have hhome' := hstep'.isHome
  rcases hstep.malformation h with ⟨-, ha, -⟩ | ⟨-, ha, -, hi, -⟩ <;>
    rcases hstep'.malformation h with ⟨-, hb, -⟩ | ⟨-, hb, -, hj, -⟩
  · exact Place.address_injective hhome hhome' (by rw [← ha, hpath, hb])
  · have hlist : place.address = place'.list := by rw [← ha, hpath, hb]
    exact absurd hlist (Place.address_ne_list hhome')
  · have hlist : place'.address = place.list := by rw [← ha, hpath, hb]
    exact absurd hlist (Place.address_ne_list hhome)
  · have hlist : place.list = place'.list := by rw [← ha, hpath, hb]
    obtain ⟨hhomes, hroutes⟩ := hhome.list_injective hhome' hlist
    cases place
    cases place'
    simp_all

end Program
end VoxelBlueprint
