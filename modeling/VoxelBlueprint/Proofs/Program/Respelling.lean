/-
# Documents that are spelled differently

A document can be written in many ways that come to the same program. The tag of a step may be in
capitals, have blanks around it, or be `block` for `place`; a name may have blanks around it; a
field may be null or not be there; entries that name nothing may stand between the parameters of a
definition; and there may be fields that nothing reads. `SameDocument` says that two documents
differ in nothing else, at any place and at any depth: a field that is read is compared by its
value, where a field that is not there counts as null, and what is read of no step of its kind is
not compared at all.

A reader of steps that does not see such differences in the lists that it is given does not see
them in the steps around these lists either (`Step.ofJson_congr`). So nothing of a program depends
on them, faults and their places included.

Key definitions: `SameTag`, `SameName`, `SameEntries`, `SameStep`, `SameDefinition`,
`SameDocument`.
Key theorems: `SameTag.ofTag?_eq`, `SameEntries.parametersOf_eq`, `Step.ofJson_congr`,
`readSteps_congr`, `Program.read_congr`.
-/
import Mathlib.Data.List.Forall2
import VoxelBlueprint.Program.Reader
import VoxelBlueprint.Proofs.Text.AsciiCase
import VoxelBlueprint.Proofs.Text.Strip

namespace VoxelBlueprint

open Text

/-! ### Tags and names -/

/-- Whether two tags of steps differ only in the case of ASCII letters, in the blanks around them,
or by one being `block` and the other one `place`. -/
inductive SameTag : String → String → Prop
  | respelled {tag tag' : String} :
    foldCase (strip tag.toList) = foldCase (strip tag'.toList) → SameTag tag tag'
  | block : SameTag "place" "block"
  | symm {tag tag' : String} : SameTag tag tag' → SameTag tag' tag
  | trans {tag tag' tag'' : String} : SameTag tag tag' → SameTag tag' tag'' → SameTag tag tag''

/-- Whether two values are the same, or strings that differ only in the blanks around them. -/
inductive SameName : Json → Json → Prop
  | refl (value : Json) : SameName value value
  | respaced {name name' : String} : strip name.toList = strip name'.toList →
    SameName (.str name) (.str name')

/-- Whether two lists name the same parameters, but for entries that name nothing: those that are
no strings, or blank ones. -/
inductive SameEntries : List Json → List Json → Prop
  | nil : SameEntries [] []
  | cons {entry entry' : Json} {entries entries' : List Json} : SameName entry entry' →
    SameEntries entries entries' → SameEntries (entry :: entries) (entry' :: entries')
  | left {entry : Json} {entries entries' : List Json} :
    (∀ name, entry = .str name → isAllBlank name = true) →
    SameEntries entries entries' → SameEntries (entry :: entries) entries'
  | right {entry : Json} {entries entries' : List Json} :
    (∀ name, entry = .str name → isAllBlank name = true) →
    SameEntries entries entries' → SameEntries entries (entry :: entries')

/-- Whether two values declare the same parameters. -/
inductive SameParameters : Json → Json → Prop
  | refl (value : Json) : SameParameters value value
  | entries {entries entries' : List Json} : SameEntries entries entries' →
    SameParameters (.arr entries) (.arr entries')

/-! ### Steps, definitions and documents -/

/-- Whether two objects have the same values in some of their fields. A field that is not there
counts as null. -/
def SameFields (names : List String) (raw raw' : Json) : Prop :=
  ∀ name ∈ names, raw.field name = raw'.field name

/-- Whether two objects are steps of the same kind, the tags of which differ only in how they are
spelled. -/
def SameOp (op : Op) (raw raw' : Json) : Prop :=
  ∃ tag tag', raw.field "op" = .str tag ∧ raw'.field "op" = .str tag' ∧
    Op.ofTag? tag = some op ∧ SameTag tag tag'

mutual

/-- Whether two raw steps are the same, but for how they are spelled. -/
inductive SameStep : Json → Json → Prop
  | refl (raw : Json) : SameStep raw raw
  | place {raw raw' : Json} : SameOp .place raw raw' →
    SameFields ["x", "y", "z", "blockType"] raw raw' → SameStep raw raw'
  | loop {raw raw' : Json} : SameOp .loop raw raw' →
    SameName (raw.field "var") (raw'.field "var") → SameFields ["from", "to", "step"] raw raw' →
    SameSteps (raw.field "steps") (raw'.field "steps") → SameStep raw raw'
  | call {raw raw' : Json} : SameOp .call raw raw' →
    SameName (raw.field "name") (raw'.field "name") → SameFields ["args"] raw raw' →
    SameStep raw raw'
  | unknown {fields fields' : List (String × Json)} :
    SameFields ["op"] (.obj fields) (.obj fields') →
    Op.ofJson? (Json.field "op" (.obj fields)) = none → SameStep (.obj fields) (.obj fields')

/-- Whether two values are the same, or arrays of steps that are. -/
inductive SameSteps : Json → Json → Prop
  | refl (value : Json) : SameSteps value value
  | steps {raws raws' : List Json} : List.Forall₂ SameStep raws raws' →
    SameSteps (.arr raws) (.arr raws')

end

/-- Whether two raw definitions are the same, but for how they are spelled. -/
inductive SameDefinition : Json → Json → Prop
  | refl (raw : Json) : SameDefinition raw raw
  | fields {fields fields' : List (String × Json)} :
    SameName (Json.field "name" (.obj fields)) (Json.field "name" (.obj fields')) →
    SameParameters (Json.field "params" (.obj fields)) (Json.field "params" (.obj fields')) →
    SameSteps (Json.field "steps" (.obj fields)) (Json.field "steps" (.obj fields')) →
    SameDefinition (.obj fields) (.obj fields')

/-- Whether two values are the same, or arrays of definitions that are. -/
inductive SameDefinitions : Json → Json → Prop
  | refl (value : Json) : SameDefinitions value value
  | definitions {raws raws' : List Json} : List.Forall₂ SameDefinition raws raws' →
    SameDefinitions (.arr raws) (.arr raws')

/-- Whether two documents are the same, but for how they are spelled. -/
inductive SameDocument : Json → Json → Prop
  | refl (document : Json) : SameDocument document document
  | fields {fields fields' : List (String × Json)} :
    SameDefinitions (Json.field "defs" (.obj fields)) (Json.field "defs" (.obj fields')) →
    SameSteps (Json.field "steps" (.obj fields)) (Json.field "steps" (.obj fields')) →
    SameDocument (.obj fields) (.obj fields')

/-! ### What is read of tags and names -/

theorem SameTag.ofTag?_eq {tag tag' : String} (h : SameTag tag tag') :
    Op.ofTag? tag = Op.ofTag? tag' := by
  induction h with
  | @respelled tag tag' h =>
    have hlower : lowered (stripped tag) = lowered (stripped tag') := by
      rw [lowered, lowered, stripped, stripped, String.toList_ofList, String.toList_ofList,
        ← lower_foldCase, h, lower_foldCase]
    rw [Op.ofTag?, Op.ofTag?, hlower]
  | block => decide +kernel
  | symm _ ih => exact ih.symm
  | trans _ _ ih ih' => exact ih.trans ih'

theorem SameName.nameOf?_eq {value value' : Json} (h : SameName value value') :
    nameOf? value = nameOf? value' := by
  cases h with
  | refl => rfl
  | @respaced name name' h =>
    have hstripped : stripped name = stripped name' := congrArg String.ofList h
    show (if stripped name = "" then none else some (stripped name)) = _
    rw [hstripped]
    rfl

/-- An entry that is no string, or a blank one, names nothing. -/
theorem nameOf?_eq_none {entry : Json} (h : ∀ name, entry = .str name → isAllBlank name = true) :
    nameOf? entry = none := by
  cases entry with
  | str name =>
    have hstripped : stripped name = "" := by
      rw [stripped, strip_eq_nil.mpr (h name rfl)]
    exact if_pos hstripped
  | _ => rfl

theorem SameEntries.filterMap_eq {entries entries' : List Json} (h : SameEntries entries entries') :
    entries.filterMap nameOf? = entries'.filterMap nameOf? := by
  induction h with
  | nil => rfl
  | cons h _ ih => rw [List.filterMap_cons, List.filterMap_cons, h.nameOf?_eq, ih]
  | left h _ ih => rw [List.filterMap_cons_none (nameOf?_eq_none h), ih]
  | right h _ ih => rw [List.filterMap_cons_none (nameOf?_eq_none h), ih]

theorem SameParameters.parametersOf_eq {value value' : Json} (h : SameParameters value value') :
    parametersOf value = parametersOf value' := by
  cases h with
  | refl => rfl
  | entries h => exact h.filterMap_eq

/-! ### What is read of steps -/

section Steps

variable {readBody : StepsReader} {raw raw' : Json} {op : Op}

theorem ofJson?_str (tag : String) : Op.ofJson? (.str tag) = Op.ofTag? tag := by
  rw [Op.ofJson?, Json.text?, Option.bind_some]

theorem SameOp.ofJson?_eq (h : SameOp op raw raw') :
    Op.ofJson? (raw.field "op") = some op ∧ Op.ofJson? (raw'.field "op") = some op := by
  obtain ⟨tag, tag', htag, htag', hop, hsame⟩ := h
  rw [htag, htag', ofJson?_str, ofJson?_str, ← hsame.ofTag?_eq]
  exact ⟨hop, hop⟩

/-- A step is read as its kind has it. -/
theorem Step.ofJson_of_op (h : Op.ofJson? (raw.field "op") = some op) (path : Path) :
    Step.ofJson readBody path raw =
      match op with
      | .place =>
        .place (raw.field "x") (raw.field "y") (raw.field "z") (raw.field "blockType")
      | .loop => readLoop readBody path raw
      | .call => readCall path raw := by
  cases raw with
  | obj fields =>
    rw [Step.ofJson]
    simp only [h]
    cases op <;> rfl
  | _ => cases h

theorem readLoop_congr
    (hbody : ∀ path {raws raws' : List Json}, List.Forall₂ SameStep raws raws' →
      readBody path raws = readBody path raws')
    (hvar : SameName (raw.field "var") (raw'.field "var"))
    (hfields : SameFields ["from", "to", "step"] raw raw')
    (hsteps : SameSteps (raw.field "steps") (raw'.field "steps")) (path : Path) :
    readLoop readBody path raw = readLoop readBody path raw' := by
  unfold readLoop
  rw [hvar.nameOf?_eq, hfields "from" (by decide), hfields "to" (by decide),
    hfields "step" (by decide)]
  generalize raw.field "steps" = steps at hsteps
  generalize raw'.field "steps" = steps' at hsteps
  cases hsteps with
  | refl => rfl
  | steps h =>
    cases nameOf? (raw'.field "var") with
    | none => rfl
    | some counter => exact congrArg (Step.loop counter _ _ _) (hbody _ h)

theorem readCall_congr (hname : SameName (raw.field "name") (raw'.field "name"))
    (hfields : SameFields ["args"] raw raw') (path : Path) :
    readCall path raw = readCall path raw' := by
  unfold readCall
  rw [hname.nameOf?_eq, hfields "args" (by decide)]

/-- **A step is read the same however it is spelled**, if the reader of the lists inside it reads
these the same. -/
theorem Step.ofJson_congr
    (hbody : ∀ path {raws raws' : List Json}, List.Forall₂ SameStep raws raws' →
      readBody path raws = readBody path raws')
    (h : SameStep raw raw') (path : Path) :
    Step.ofJson readBody path raw = Step.ofJson readBody path raw' := by
  cases h with
  | refl => rfl
  | place hop hfields =>
    rw [Step.ofJson_of_op hop.ofJson?_eq.1, Step.ofJson_of_op hop.ofJson?_eq.2]
    simp only [hfields "x" (by decide), hfields "y" (by decide), hfields "z" (by decide),
      hfields "blockType" (by decide)]
  | loop hop hvar hfields hsteps =>
    rw [Step.ofJson_of_op hop.ofJson?_eq.1, Step.ofJson_of_op hop.ofJson?_eq.2]
    exact readLoop_congr hbody hvar hfields hsteps path
  | call hop hname hfields =>
    rw [Step.ofJson_of_op hop.ofJson?_eq.1, Step.ofJson_of_op hop.ofJson?_eq.2]
    exact readCall_congr hname hfields path
  | @unknown fields fields' hfields hnone =>
    have hop := hfields "op" (by decide)
    unfold Step.ofJson
    simp only [← hop, hnone]

theorem mapIdx_congr_of_forall₂ {α β : Type} {R : α → α → Prop} {xs ys : List α}
    (h : List.Forall₂ R xs ys) : ∀ {F : Nat → α → β}, (∀ i {x y : α}, R x y → F i x = F i y) →
      xs.mapIdx F = ys.mapIdx F := by
  induction h with
  | nil => exact fun _ => rfl
  | cons hxy _ ih =>
    intro F hF
    rw [List.mapIdx_cons, List.mapIdx_cons, hF 0 hxy, ih fun i => hF (i + 1)]

/-- **Lists of steps are read the same however their steps are spelled**, at every depth. -/
theorem readSteps_congr : ∀ (levels : Nat) (path : Path) {raws raws' : List Json},
    List.Forall₂ SameStep raws raws' → readSteps levels path raws = readSteps levels path raws'
  | 0, _, _, _, _ => rfl
  | levels + 1, path, _, _, h =>
    mapIdx_congr_of_forall₂ h fun i _ _ hstep =>
      Step.ofJson_congr (readSteps_congr levels) hstep (path ++ [.index i])

end Steps

/-! ### What is read of definitions and documents -/

section Documents

variable {readBody : StepsReader}
  (hbody : ∀ path {raws raws' : List Json}, List.Forall₂ SameStep raws raws' →
    readBody path raws = readBody path raws')

include hbody

theorem Definition.ofJson_congr {raw raw' : Json} (h : SameDefinition raw raw') (path : Path) :
    Definition.ofJson readBody path raw = Definition.ofJson readBody path raw' := by
  cases h with
  | refl => rfl
  | @fields fields fields' hname hparams hsteps =>
    unfold Definition.ofJson
    rw [hname.nameOf?_eq, hparams.parametersOf_eq]
    generalize Json.field "steps" (.obj fields) = steps at hsteps
    generalize Json.field "steps" (.obj fields') = steps' at hsteps
    cases hsteps with
    | refl => rfl
    | steps h =>
      cases nameOf? (Json.field "name" (.obj fields')) with
      | none => rfl
      | some name =>
        exact congrArg (fun steps => Except.ok (Definition.mk name _ steps)) (hbody _ h)

theorem readDefinitions_congr {raws raws' : List Json}
    (h : List.Forall₂ SameDefinition raws raws') : ∀ i : Nat,
      readDefinitions readBody i raws = readDefinitions readBody i raws' := by
  induction h with
  | nil => exact fun _ => rfl
  | cons hraw _ ih =>
    intro i
    rw [readDefinitions, readDefinitions, Definition.ofJson_congr hbody hraw, ih]

end Documents

namespace Program

/-- **Documents that differ only in how they are spelled are read as the same program**, or are
refused for the same reason at the same place. -/
theorem read_congr {document document' : Json} (h : SameDocument document document') :
    Program.read document = Program.read document' := by
  cases h with
  | refl => rfl
  | @fields fields fields' hdefs hsteps =>
    have hbody : ∀ path {raws raws' : List Json}, List.Forall₂ SameStep raws raws' →
        readSteps (maxStepNesting + 1) path raws = readSteps (maxStepNesting + 1) path raws' :=
      readSteps_congr (maxStepNesting + 1)
    unfold Program.read Program.readWithin
    generalize readSteps (maxStepNesting + 1) = readBody at hbody
    generalize Json.field "steps" (.obj fields) = steps at hsteps
    generalize Json.field "steps" (.obj fields') = steps' at hsteps
    generalize Json.field "defs" (.obj fields) = defs at hdefs
    generalize Json.field "defs" (.obj fields') = defs' at hdefs
    cases hdefs with
    | refl =>
      cases hsteps with
      | refl => rfl
      | steps h => simp only [hbody _ h]; rfl
    | definitions hd =>
      cases hsteps with
      | refl => simp only [readDefinitions_congr hbody hd]; rfl
      | steps h => simp only [hbody _ h, readDefinitions_congr hbody hd]; rfl

/-- A document with a loop in a definition, one step of which cannot be read. -/
def plainPosts : Json :=
  .obj
    [("defs", .arr
      [.obj
        [("name", .str "post"), ("params", .arr [.str "height"]),
         ("steps", .arr
          [.obj
            [("op", .str "for"), ("var", .str "i"), ("from", .int 1), ("to", .str "height"),
             ("steps", .arr
              [.obj [("op", .str "place"), ("y", .str "i")], .obj [("op", .str "dig")],
               .obj [("op", .str "for"), ("var", .str " ")]])]])]]),
     ("steps", .arr [.obj [("op", .str "call"), ("name", .str "post")]])]

/-- This document, spelled differently. -/
def respelledPosts : Json :=
  .obj
    [("note", .bool true), ("defs", .arr
      [.obj
        [("params", .arr [.int 3, .str " height", .str ""]), ("name", .str " post\n"),
         ("steps", .arr
          [.obj
            [("op", .str "For "), ("var", .str "\ti"), ("step", .null), ("from", .int 1),
             ("to", .str "height"),
             ("steps", .arr
              [.obj [("op", .str " BLOCK"), ("x", .null), ("y", .str "i"), ("name", .int 7)],
               .obj [("depth", .int 2), ("op", .str "dig")],
               .obj [("op", .str "FOR"), ("var", .str "")]])]])]]),
     ("steps", .arr
      [.obj [("op", .str "Call"), ("name", .str "post "), ("args", .null)]])]

theorem read_congr_posts : SameDocument plainPosts respelledPosts ∧
    Program.read plainPosts = Program.read respelledPosts := by
  have hplace : SameStep (.obj [("op", .str "place"), ("y", .str "i")])
      (.obj [("op", .str " BLOCK"), ("x", .null), ("y", .str "i"), ("name", .int 7)]) :=
    .place ⟨_, _, rfl, rfl, by decide +kernel, .trans .block (.respelled (by decide +kernel))⟩
      (List.map_inj_left.mp rfl)
  have hunknown : SameStep (.obj [("op", .str "dig")])
      (.obj [("depth", .int 2), ("op", .str "dig")]) :=
    .unknown (List.map_inj_left.mp rfl) (by decide +kernel)
  have hinner : SameStep (.obj [("op", .str "for"), ("var", .str " ")])
      (.obj [("op", .str "FOR"), ("var", .str "")]) :=
    .loop ⟨_, _, rfl, rfl, by decide +kernel, .respelled (by decide +kernel)⟩
      (.respaced (by decide +kernel)) (List.map_inj_left.mp rfl) (.refl .null)
  have hposts : SameDocument plainPosts respelledPosts := by
    refine .fields (.definitions (.cons (.fields ?name ?params ?body) .nil))
      (.steps (.cons ?call .nil))
    case name => exact .respaced (by decide +kernel)
    case params =>
      exact .entries (.right (by simp) (.cons (.respaced (by decide +kernel))
        (.right (by simp [isAllBlank]) .nil)))
    case body =>
      have hlist : SameSteps (.arr _) (.arr _) :=
        .steps (.cons hplace (.cons hunknown (.cons hinner .nil)))
      exact .steps (.cons (.loop ⟨_, _, rfl, rfl, by decide +kernel,
        .respelled (by decide +kernel)⟩ (.respaced (by decide +kernel))
        (List.map_inj_left.mp rfl) hlist) .nil)
    case call =>
      exact .call ⟨_, _, rfl, rfl, by decide +kernel, .respelled (by decide +kernel)⟩
        (.respaced (by decide +kernel)) (List.map_inj_left.mp rfl)
  exact ⟨hposts, read_congr hposts⟩

end Program
end VoxelBlueprint
