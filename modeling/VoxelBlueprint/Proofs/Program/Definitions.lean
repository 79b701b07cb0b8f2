/-
# The definitions of a document

Definitions are read one after the other, each from its own place in the document, and the first
that is malformed ends the reading, whether a later one would have replaced it or not. What was
read is collected by name. A name keeps the place of its first definition and takes the content of
its last one, and each time that it comes again is recorded, so that of all the definitions in the
document none gets lost: it is either collected or recorded.

Key definitions: `rawDefinitions`, `Json.MalformsDefinition`, `Program.LastOfName`, `repetitions`.
Key theorems: `readDefinitions_eq_ok`, `readDefinitions_eq_error`, `Program.find?_foldl_define`,
`Program.names_foldl_define`, `Program.redefined_foldl_define`, `Program.readBy_eq_ok`,
`Program.definitions_accounted`.
-/
import Mathlib.Data.List.Induction
import Mathlib.Data.List.Nodup
import VoxelBlueprint.Proofs.Catalog.Snapshot
import VoxelBlueprint.Proofs.Program.Nesting

namespace VoxelBlueprint

open Effects

/-! ### Raw definitions -/

/-- The definitions in a document as they are written. -/
def rawDefinitions (document : Json) : List Json :=
  (document.field "defs").array?.getD []

/-- The name of a definition as it is written, without the blanks around it. -/
def definedName? (raw : Json) : Option String :=
  nameOf? (raw.field "name")

/-- The names of the definitions in a document, each as often as it comes. -/
def definedNames (document : Json) : List String :=
  (rawDefinitions document).filterMap definedName?

/-- What may be wrong with a definition as it is written. -/
inductive Json.MalformsDefinition : Json → ShapeFault → Prop
  | notObject {raw : Json} : (∀ fields, raw ≠ .obj fields) →
    MalformsDefinition raw .definitionNotObject
  | withoutName {fields : List (String × Json)} : definedName? (.obj fields) = none →
    MalformsDefinition (.obj fields) .definitionWithoutName
  | withoutSteps {fields : List (String × Json)} {name : String} :
    definedName? (.obj fields) = some name →
    (∀ steps, (Json.obj fields).field "steps" ≠ .arr steps) →
    MalformsDefinition (.obj fields) (.definitionWithoutSteps name)

section Reading

variable {readBody : StepsReader} {path : Path} {raw : Json}

/-- What is wrong with a definition is told at its place. -/
theorem Json.MalformsDefinition.ofJson {fault : ShapeFault} (h : raw.MalformsDefinition fault) :
    Definition.ofJson readBody path raw = .error ⟨fault, path⟩ := by
  cases h with
  | notObject h =>
    cases raw with
    | obj fields => exact absurd rfl (h fields)
    | _ => rfl
  | @withoutName fields h =>
    have h : nameOf? ((Json.obj fields).field "name") = none := h
    simp [Definition.ofJson, Json.isObject, h]
  | @withoutSteps fields name h hs =>
    have h : nameOf? ((Json.obj fields).field "name") = some name := h
    simp only [Definition.ofJson, Json.isObject, h]
    cases hr : (Json.obj fields).field "steps" with
    | arr steps => exact absurd hr (hs steps)
    | _ => rfl

/-- A definition with which nothing is wrong is read. -/
theorem Definition.exists_ofJson (h : ∀ fault, ¬ raw.MalformsDefinition fault)
    (readBody : StepsReader) (path : Path) :
    ∃ d, Definition.ofJson readBody path raw = .ok d := by
  by_cases ho : ∃ fields, raw = .obj fields
  · obtain ⟨fields, rfl⟩ := ho
    cases hn : nameOf? ((Json.obj fields).field "name") with
    | none => exact absurd (.withoutName hn) (h _)
    | some name =>
      by_cases hs : ∃ steps, (Json.obj fields).field "steps" = .arr steps
      · obtain ⟨steps, hs⟩ := hs
        exact ⟨_, by simp only [ofJson, Json.isObject, hn, hs]; rfl⟩
      · exact absurd (.withoutSteps hn fun steps he => hs ⟨steps, he⟩) (h _)
  · exact absurd (.notObject fun fields he => ho ⟨fields, he⟩) (h _)

/-- What a definition is read from. -/
theorem Definition.ofJson_eq_ok {d : Definition} (h : ofJson readBody path raw = .ok d) :
    raw.isObject = true ∧ definedName? raw = some d.name ∧
      d.parameters = parametersOf (raw.field "params") ∧
      ∃ steps, raw.field "steps" = .arr steps ∧
        d.steps = readBody (path ++ [.field "steps"]) steps := by
  unfold ofJson at h
  split at h
  · cases h
  · rename_i ho
    split at h
    · cases h
    · rename_i name steps hn hs
      cases h
      exact ⟨by simpa using ho, hn, rfl, steps, hs, rfl⟩
    · cases h

/-- The definitions that are read come from the raw ones, one by one and each from its place. -/
theorem readDefinitions_eq_ok : ∀ {k : Nat} {raws : List Json} {ds : List Definition},
    readDefinitions readBody k raws = .ok ds ↔ ds.map Except.ok = raws.mapIdx fun i raw =>
      Definition.ofJson readBody [.field "defs", .index (k + i)] raw
  | k, [], ds => by
    simp [readDefinitions, Except.ok.injEq, eq_comm]
  | k, raw :: raws, ds => by
    have hshift (i : Nat) : k + 1 + i = k + (i + 1) := by omega
    have ih := @readDefinitions_eq_ok (k + 1) raws
    simp only [hshift] at ih
    rw [readDefinitions, List.mapIdx_cons]
    constructor
    · intro h
      obtain ⟨d, hd, h⟩ := bind_eq_ok h
      obtain ⟨rest, hrest, h⟩ := bind_eq_ok h
      cases h
      rw [List.map_cons, ih.mp hrest]
      exact congrArg₂ List.cons hd.symm rfl
    · intro h
      obtain ⟨d, rest, rfl, hd, hrest⟩ := List.map_eq_cons_iff.mp h
      have hd : Definition.ofJson readBody [.field "defs", .index k] raw = .ok d := hd.symm
      rw [hd, ih.mpr hrest]
      rfl

/-- The first definition that is malformed ends the reading. -/
theorem readDefinitions_eq_error : ∀ {k i : Nat} {raws : List Json} {m : Malformation},
    raws[i]? = some raw →
    Definition.ofJson readBody [.field "defs", .index (k + i)] raw = .error m →
    (∀ j < i, ∀ raw', raws[j]? = some raw' →
      ∃ d, Definition.ofJson readBody [.field "defs", .index (k + j)] raw' = .ok d) →
    readDefinitions readBody k raws = .error m
  | _, _, [], _, hi, _, _ => by simp at hi
  | k, 0, raw' :: raws, m, hi, hm, _ => by
    cases hi
    have hm : Definition.ofJson readBody [.field "defs", .index k] raw = .error m := hm
    rw [readDefinitions, hm]
    rfl
  | k, i + 1, raw' :: raws, m, hi, hm, hbefore => by
    obtain ⟨d, hd⟩ := hbefore 0 (Nat.succ_pos i) raw' rfl
    have hd : Definition.ofJson readBody [.field "defs", .index k] raw' = .ok d := hd
    have hshift (j : Nat) : k + 1 + j = k + (j + 1) := by omega
    have ih := @readDefinitions_eq_error (k + 1) i raws m hi (by rw [hshift]; exact hm)
      fun j hj raw' hraw => by
        rw [hshift]
        exact hbefore (j + 1) (Nat.succ_lt_succ hj) raw' hraw
    rw [readDefinitions, hd, ih]
    rfl

section Read

variable {raws : List Json} {ds : List Definition}

/-- Each raw definition is the one that was read at its index. -/
theorem getElem?_of_readDefinitions (h : readDefinitions readBody 0 raws = .ok ds) {i : Nat} :
    ds[i]?.map Except.ok = raws[i]?.map fun raw =>
      Definition.ofJson readBody [.field "defs", .index i] raw := by
  have hlist := congrArg (·[i]?) (readDefinitions_eq_ok.mp h)
  simpa [List.getElem?_mapIdx] using hlist

theorem exists_of_readDefinitions (h : readDefinitions readBody 0 raws = .ok ds) {i : Nat}
    (hraw : raws[i]? = some raw) :
    ∃ d, ds[i]? = some d ∧ Definition.ofJson readBody [.field "defs", .index i] raw = .ok d := by
  have hi := getElem?_of_readDefinitions h (i := i)
  rw [hraw, Option.map_some] at hi
  obtain ⟨d, hd, he⟩ := Option.map_eq_some_iff.mp hi
  exact ⟨d, hd, he.symm⟩

theorem exists_raw_of_readDefinitions (h : readDefinitions readBody 0 raws = .ok ds) {i : Nat}
    {d : Definition} (hd : ds[i]? = some d) : ∃ raw, raws[i]? = some raw ∧
      Definition.ofJson readBody [.field "defs", .index i] raw = .ok d := by
  have hi := getElem?_of_readDefinitions h (i := i)
  rw [hd, Option.map_some] at hi
  obtain ⟨raw, hraw, he⟩ := Option.map_eq_some_iff.mp hi.symm
  exact ⟨raw, hraw, he⟩

/-- The definitions that are read have the names that are written. -/
theorem names_of_readDefinitions (h : readDefinitions readBody 0 raws = .ok ds) :
    raws.filterMap definedName? = ds.map (·.name) := by
  have hsome : raws.map definedName? = (ds.map (·.name)).map some := by
    refine List.ext_getElem? fun i => ?_
    rw [List.getElem?_map, List.getElem?_map, List.getElem?_map]
    cases hraw : raws[i]? with
    | none =>
      have hi := getElem?_of_readDefinitions h (i := i)
      rw [hraw, Option.map_none, Option.map_eq_none_iff] at hi
      rw [hi]
      rfl
    | some raw =>
      obtain ⟨d, hd, he⟩ := exists_of_readDefinitions h hraw
      rw [hd]
      exact congrArg some (Definition.ofJson_eq_ok he).2.1
  calc raws.filterMap definedName?
      = (raws.map definedName?).filterMap id := by rw [List.filterMap_map]; rfl
    _ = ds.map (·.name) := by rw [hsome, List.filterMap_map]; exact List.filterMap_some

end Read

end Reading

/-! ### Names that come again -/

/-- The names that come again, each time that they do. -/
def repetitions (names : List String) : List String :=
  (names.zipIdx.filter fun entry => entry.1 ∈ names.take entry.2).map (·.1)

theorem repetitions_concat (names : List String) (name : String) :
    repetitions (names ++ [name]) =
      if name ∈ names then repetitions names ++ [name] else repetitions names := by
  have hfront : (names.zipIdx.filter fun entry => entry.1 ∈ (names ++ [name]).take entry.2) =
      names.zipIdx.filter fun entry => entry.1 ∈ names.take entry.2 := by
    refine List.filter_congr fun entry he => ?_
    have hlt : entry.2 < names.length := (List.mem_zipIdx he).2.1.trans_eq (Nat.zero_add _)
    rw [List.take_append_of_le_length hlt.le]
  unfold repetitions
  rw [List.zipIdx_append, List.filter_append, hfront, List.map_append]
  by_cases h : name ∈ names <;> simp [h]

/-- A name comes again every time but the first. -/
theorem count_repetitions (names : List String) (name : String) :
    (repetitions names).count name = names.count name - 1 := by
  induction names using List.reverseRecOn with
  | nil => rfl
  | append_singleton names last ih =>
    rw [repetitions_concat, List.count_append, List.count_singleton]
    by_cases h : last ∈ names
    · rw [if_pos h, List.count_append, List.count_singleton, ih]
      by_cases he : last = name
      · have hpos : 0 < names.count name := List.count_pos_iff.mpr (he ▸ h)
        simp only [he, beq_self_eq_true, ite_true]
        omega
      · simp [he]
    · rw [if_neg h, ih]
      by_cases he : last = name
      · have hzero : names.count name = 0 := List.count_eq_zero.mpr (he ▸ h)
        simp [he, hzero]
      · simp [he]

/-- A name comes for the first time, or it comes again. -/
theorem length_repetitions (names : List String) :
    names.eraseDups.length + (repetitions names).length = names.length := by
  induction names using List.reverseRecOn with
  | nil => rfl
  | append_singleton names last ih =>
    rw [repetitions_concat, eraseDups_concat]
    by_cases h : last ∈ names
    · simp only [if_pos h, List.length_append, List.length_singleton]
      omega
    · simp only [if_neg h, List.length_append, List.length_singleton]
      omega

/-! ### Collecting definitions -/

namespace Program

variable {p : Program} {name : String}

theorem find?_putDefinition (d : Definition) : ∀ ds : List Definition,
    (putDefinition d ds).find? (·.name = name) =
      if d.name = name then some d else ds.find? (·.name = name)
  | [] => by by_cases h : d.name = name <;> simp [putDefinition, h]
  | e :: ds => by
    have ih := find?_putDefinition d ds
    unfold putDefinition
    by_cases he : e.name = d.name
    · by_cases h : d.name = name <;> simp [he, h]
    · by_cases h : e.name = name
      · have hd : d.name ≠ name := fun hd => he (h.trans hd.symm)
        rw [if_neg he, List.find?_cons_of_pos (by simpa using h), if_neg hd,
          List.find?_cons_of_pos (by simpa using h)]
      · rw [if_neg he, List.find?_cons_of_neg (by simpa using h), ih,
          List.find?_cons_of_neg (by simpa using h)]

theorem find?_define (p : Program) (d : Definition) :
    (p.define d).find? name = if d.name = name then some d else p.find? name :=
  find?_putDefinition d p.definitions

theorem redefined_define (p : Program) (d : Definition) : (p.define d).redefined =
    if (p.find? d.name).isSome then p.redefined ++ [d.name] else p.redefined := rfl

theorem names_putDefinition (d : Definition) : ∀ ds : List Definition,
    (putDefinition d ds).map (·.name) =
      if d.name ∈ ds.map (·.name) then ds.map (·.name) else ds.map (·.name) ++ [d.name]
  | [] => by simp [putDefinition]
  | e :: ds => by
    have ih := names_putDefinition d ds
    unfold putDefinition
    by_cases he : e.name = d.name
    · simp [he]
    · have hne : d.name ≠ e.name := fun h => he h.symm
      rw [if_neg he, List.map_cons, ih]
      by_cases h : d.name ∈ ds.map (·.name) <;> simp [h, hne]

/-- A name is found if it is the name of a definition. -/
theorem isSome_find? : (p.find? name).isSome = true ↔ name ∈ p.definitions.map (·.name) := by
  simp [find?, List.find?_isSome]

/-- The names of the definitions that are collected, in the order in which they first came. -/
theorem names_foldl_define (ds : List Definition) :
    (ds.foldl define {}).definitions.map (·.name) = (ds.map (·.name)).eraseDups := by
  induction ds using List.reverseRecOn with
  | nil => rfl
  | append_singleton ds d ih =>
    rw [List.foldl_concat, List.map_append, List.map_singleton, eraseDups_concat, ← ih]
    have hmem : d.name ∈ ds.map (·.name) ↔
        d.name ∈ (ds.foldl define {}).definitions.map (·.name) := by
      rw [ih, List.mem_eraseDups]
    simp only [hmem]
    exact names_putDefinition d _

/-- What is recorded is every name that came again. -/
theorem redefined_foldl_define (ds : List Definition) :
    (ds.foldl define {}).redefined = repetitions (ds.map (·.name)) := by
  induction ds using List.reverseRecOn with
  | nil => rfl
  | append_singleton ds d ih =>
    have hmem : ((ds.foldl define {}).find? d.name).isSome = true ↔ d.name ∈ ds.map (·.name) := by
      rw [isSome_find?, names_foldl_define, List.mem_eraseDups]
    rw [List.foldl_concat, redefined_define, List.map_append, List.map_singleton,
      repetitions_concat, ← ih]
    simp only [hmem]

/-- A name is found where it comes first from the end. -/
theorem find?_foldl_define_eq (name : String) (ds : List Definition) :
    (ds.foldl define {}).find? name = ds.reverse.find? (·.name = name) := by
  induction ds using List.reverseRecOn with
  | nil => rfl
  | append_singleton ds d ih =>
    rw [List.foldl_concat, find?_define, List.reverse_concat, ih]
    by_cases h : d.name = name <;> simp [h]

/-- A name is found with its last definition. -/
theorem find?_foldl_define {ds : List Definition} {i : Nat} {d : Definition}
    (hd : ds[i]? = some d) (hlast : ∀ j e, i < j → ds[j]? = some e → e.name ≠ d.name) :
    (ds.foldl define {}).find? d.name = some d := by
  obtain ⟨hi, rfl⟩ := List.getElem?_eq_some_iff.mp hd
  have hsplit : ds.reverse = (ds.drop (i + 1)).reverse ++ ds[i] :: (ds.take i).reverse := by
    rw [← List.reverse_concat, ← List.reverse_append, List.take_append_getElem hi,
      List.take_append_drop]
  rw [find?_foldl_define_eq, List.find?_eq_some_iff_append]
  refine ⟨by simp, _, _, hsplit, fun e he => ?_⟩
  obtain ⟨j, hj⟩ := List.mem_iff_getElem?.mp (List.mem_reverse.mp he)
  rw [List.getElem?_drop] at hj
  simpa using hlast (i + 1 + j) e (by omega) hj

/-! ### Programs that are read -/

/-- The program of some definitions and the steps of a document. -/
def assembled (readBody : StepsReader) (document : Json) (ds : List Definition) :
    Except Malformation Program :=
  match document.field "steps" with
  | .arr raws => .ok { ds.foldl define {} with steps := readBody [.field "steps"] raws }
  | _ => .error ⟨.programWithoutSteps, [.field "steps"]⟩

theorem assembled_eq_ok {readBody : StepsReader} {document : Json} {ds : List Definition} :
    assembled readBody document ds = .ok p ↔ ∃ raws, document.field "steps" = .arr raws ∧
      p = { ds.foldl define {} with steps := readBody [.field "steps"] raws } := by
  unfold assembled
  cases document.field "steps" with
  | arr raws => simp [eq_comm]
  | _ => simp

/-- When a program is read, and which one. -/
theorem readBy_eq_ok {readBody : StepsReader} {document : Json} :
    readBy readBody document = .ok p ↔ document.isObject = true ∧
      ((document.field "defs").isNull = true ∨ (document.field "defs").isArray = true) ∧
      ∃ ds raws, readDefinitions readBody 0 (rawDefinitions document) = .ok ds ∧
        document.field "steps" = .arr raws ∧
        p = { ds.foldl define {} with steps := readBody [.field "steps"] raws } := by
  have rest (read : Except Malformation (List Definition)) :
      (read >>= assembled readBody document) = .ok p ↔
        ∃ ds raws, read = .ok ds ∧ document.field "steps" = .arr raws ∧
          p = { ds.foldl define {} with steps := readBody [.field "steps"] raws } := by
    constructor
    · intro h
      obtain ⟨ds, hds, h⟩ := bind_eq_ok h
      obtain ⟨raws, hs, hp⟩ := assembled_eq_ok.mp h
      exact ⟨ds, raws, hds, hs, hp⟩
    · rintro ⟨ds, raws, rfl, hs, hp⟩
      exact assembled_eq_ok.mpr ⟨raws, hs, hp⟩
  unfold readBy rawDefinitions
  cases document.isObject with
  | false =>
    constructor
    · intro h
      cases h
    · rintro ⟨h, -⟩
      cases h
  | true =>
    cases document.field "defs" with
    | null => exact (rest (.ok [])).trans (by simp [Json.isNull, Json.array?, readDefinitions])
    | arr raws => exact (rest _).trans (by simp [Json.isArray, Json.array?])
    | _ =>
      constructor
      · intro h
        cases h
      · rintro ⟨-, h | h, -⟩ <;> cases h

/-- A malformed definition is what is wrong with the document, if none comes before it. -/
theorem readBy_eq_error {readBody : StepsReader} {document : Json}
    (ho : document.isObject = true) {m : Malformation}
    (h : readDefinitions readBody 0 (rawDefinitions document) = .error m) :
    readBy readBody document = .error m := by
  unfold readBy
  rw [ho]
  unfold rawDefinitions at h
  cases hd : document.field "defs" with
  | arr raws =>
    rw [hd] at h
    have h : readDefinitions readBody 0 raws = .error m := h
    simp only [Bool.not_true, Bool.false_eq_true, if_false, h]
    rfl
  | _ =>
    rw [hd] at h
    cases h

/-- Whether a raw definition is the last one of its name. -/
structure LastOfName (raws : List Json) (name : String) (i : Nat) (raw : Json) : Prop where
  here : raws[i]? = some raw
  named : definedName? raw = some name
  last : ∀ j raw', i < j → raws[j]? = some raw' → definedName? raw' ≠ some name

/-- A name is found with what is read from the last raw definition of this name. -/
theorem find?_of_lastOfName {readBody : StepsReader} {raws : List Json} {ds : List Definition}
    (h : readDefinitions readBody 0 raws = .ok ds) {i : Nat} {raw : Json}
    (hlast : LastOfName raws name i raw) :
    ∃ d, Definition.ofJson readBody [.field "defs", .index i] raw = .ok d ∧
      (ds.foldl define {}).find? name = some d := by
  obtain ⟨d, hd, he⟩ := exists_of_readDefinitions h hlast.here
  have hname : d.name = name :=
    Option.some.inj ((Definition.ofJson_eq_ok he).2.1.symm.trans hlast.named)
  refine ⟨d, he, hname ▸ find?_foldl_define hd fun j e hj hej hne => ?_⟩
  obtain ⟨raw', hraw', he'⟩ := exists_raw_of_readDefinitions h hej
  refine hlast.last j raw' hj hraw' ?_
  rw [(Definition.ofJson_eq_ok he').2.1, hne, hname]

/-- In a program that is read, a name is found with its last definition in the document. -/
theorem find?_of_readBy {readBody : StepsReader} {document : Json}
    (h : readBy readBody document = .ok p) {i : Nat} {raw : Json}
    (hlast : LastOfName (rawDefinitions document) name i raw) :
    ∃ d, Definition.ofJson readBody [.field "defs", .index i] raw = .ok d ∧
      p.find? name = some d := by
  obtain ⟨-, -, ds, raws, hds, -, rfl⟩ := readBy_eq_ok.mp h
  exact find?_of_lastOfName hds hlast

/-- A name that comes at all comes for the last time somewhere. -/
theorem exists_lastOfName {raws : List Json} (h : name ∈ raws.filterMap definedName?) :
    ∃ i raw, LastOfName raws name i raw := by
  induction raws using List.reverseRecOn with
  | nil => simp at h
  | append_singleton raws last ih =>
    by_cases hlast : definedName? last = some name
    · refine ⟨raws.length, last, List.getElem?_concat_length, hlast, fun j raw' hj hraw' => ?_⟩
      have hlt := (List.getElem?_eq_some_iff.mp hraw').1
      rw [List.length_append, List.length_singleton] at hlt
      omega
    · have hfront : name ∈ raws.filterMap definedName? := by
        simpa [hlast] using h
      obtain ⟨i, raw, hi⟩ := ih hfront
      have hlt := (List.getElem?_eq_some_iff.mp hi.here).1
      refine ⟨i, raw, by rw [List.getElem?_append_left hlt]; exact hi.here, hi.named, ?_⟩
      intro j raw' hj hraw'
      by_cases hend : j = raws.length
      · subst hend
        rw [List.getElem?_concat_length] at hraw'
        cases hraw'
        exact hlast
      · have hjlt := (List.getElem?_eq_some_iff.mp hraw').1
        rw [List.length_append, List.length_singleton] at hjlt
        rw [List.getElem?_append_left (by omega)] at hraw'
        exact hi.last j raw' hj hraw'

/-- A program that is read has one definition for a name. -/
theorem mem_definitions_iff {readBody : StepsReader} {document : Json}
    (h : readBy readBody document = .ok p) {d : Definition} :
    d ∈ p.definitions ↔ p.find? d.name = some d := by
  obtain ⟨-, -, ds, raws, -, -, rfl⟩ := readBy_eq_ok.mp h
  constructor
  · intro hd
    have hnodup : ((ds.foldl define {}).definitions.map (·.name)).Nodup := by
      rw [names_foldl_define]
      exact Catalog.nodup_eraseDups _
    obtain ⟨e, he⟩ := Option.isSome_iff_exists.mp (isSome_find?.mpr (List.mem_map_of_mem hd))
    have hname : e.name = d.name := by simpa using List.find?_some he
    have hmem : e ∈ (ds.foldl define {}).definitions := List.mem_of_find?_eq_some he
    rw [List.inj_on_of_nodup_map hnodup hmem hd hname] at he
    exact he
  · exact List.mem_of_find?_eq_some

/-- **No definition gets lost.** When a document is read as a program,

* a name is found with what is read from its last definition in the document, at its place, and is
  not found if there is none;
* the names of the definitions are those in the document, each once, in the order in which they
  first come there;
* the names that were defined again are recorded each time that they come again, which is once less
  than they come, so that the definitions and these records are as many as the definitions in the
  document.

And a document with a malformed definition is not read, wherever this stands and whatever comes
after it: the first one is reported. -/
theorem definitions_accounted (document : Json) :
    (∀ p, read document = .ok p →
      (∀ name i raw, LastOfName (rawDefinitions document) name i raw →
        ∃ d, Definition.ofJson (readSteps (maxStepNesting + 1)) [.field "defs", .index i] raw =
          .ok d ∧ p.find? name = some d) ∧
      (∀ name, name ∉ definedNames document → p.find? name = none) ∧
      p.definitions.map (·.name) = (definedNames document).eraseDups ∧
      p.redefined = repetitions (definedNames document) ∧
      (∀ name ∈ definedNames document,
        p.redefined.count name + 1 = (definedNames document).count name) ∧
      p.definitions.length + p.redefined.length = (rawDefinitions document).length) ∧
    (document.isObject = true → ∀ i raw fault, (rawDefinitions document)[i]? = some raw →
      raw.MalformsDefinition fault →
      (∀ j < i, ∀ raw', (rawDefinitions document)[j]? = some raw' →
        ∀ fault', ¬ raw'.MalformsDefinition fault') →
      read document = .error ⟨fault, [.field "defs", .index i]⟩) := by
  constructor
  · intro p hp
    have hfound (name : String) (i : Nat) (raw : Json)
        (hlast : LastOfName (rawDefinitions document) name i raw) := find?_of_readBy hp hlast
    obtain ⟨-, -, ds, raws, hds, -, rfl⟩ := readBy_eq_ok.mp hp
    have hnames : definedNames document = ds.map (·.name) := names_of_readDefinitions hds
    have hlength : ds.length = (rawDefinitions document).length := by
      have := congrArg List.length (readDefinitions_eq_ok.mp hds)
      rwa [List.length_map, List.length_mapIdx] at this
    refine ⟨hfound, fun name hname => ?_, ?_, ?_, ?_, ?_⟩
    · have hnone : ¬ ((ds.foldl define {}).find? name).isSome = true := by
        rw [isSome_find?, names_foldl_define, List.mem_eraseDups, ← hnames]
        exact hname
      exact Option.not_isSome_iff_eq_none.mp hnone
    · rw [hnames]
      exact names_foldl_define ds
    · rw [hnames]
      exact redefined_foldl_define ds
    · intro name hname
      have hpos : 0 < (definedNames document).count name := List.count_pos_iff.mpr hname
      have hcount := count_repetitions (definedNames document) name
      show (ds.foldl define {}).redefined.count name + 1 = _
      rw [redefined_foldl_define, ← hnames]
      omega
    · have hdefinitions := congrArg List.length (names_foldl_define ds)
      rw [List.length_map] at hdefinitions
      show (ds.foldl define {}).definitions.length + (ds.foldl define {}).redefined.length = _
      rw [hdefinitions, redefined_foldl_define, length_repetitions, List.length_map, hlength]
  · intro ho i raw fault hraw hm hbefore
    refine readBy_eq_error ho (readDefinitions_eq_error hraw ?_ fun j hj raw' hraw' => ?_)
    · rw [Nat.zero_add]
      exact hm.ofJson
    · exact Definition.exists_ofJson (hbefore j hj raw' hraw') _ _

/-- A document with a definition that is replaced, and another one after which comes `last`. -/
def walls (last : Json) : Json :=
  .obj
    [("defs", .arr
      [.obj [("name", .str " wall "), ("steps", .arr [])],
       .obj [("name", .str "roof"), ("steps", .arr [])],
       last]),
     ("steps", .arr [])]

/-- The last wall, with a parameter. -/
def highWall : Json :=
  .obj [("name", .str "wall"), ("params", .arr [.str " h "]), ("steps", .arr [])]

theorem definitions_accounted_walls :
    (∃ p, read (walls highWall) = .ok p ∧
      p.find? "wall" = some { name := "wall", parameters := ["h"] } ∧ p.find? " wall " = none ∧
      p.definitions.map (·.name) = ["wall", "roof"] ∧ p.redefined = ["wall"]) ∧
    read (walls (.obj [("name", .str "\t")])) =
      .error ⟨.definitionWithoutName, [.field "defs", .index 2]⟩ := by
  have hread : ∃ p, read (walls highWall) = .ok p := ⟨_, rfl⟩
  have hlast : LastOfName (rawDefinitions (walls highWall)) "wall" 2 highWall := by
    refine ⟨rfl, by decide, fun j raw hj hraw => ?_⟩
    have hshort := (List.getElem?_eq_some_iff.mp hraw).1
    have hlength : (rawDefinitions (walls highWall)).length = 3 := rfl
    omega
  have hnames : definedNames (walls highWall) = ["wall", "roof", "wall"] := by decide
  constructor
  · obtain ⟨p, hp⟩ := hread
    obtain ⟨hfound, hmissing, hdefinitions, hredefined, -, -⟩ :=
      (definitions_accounted (walls highWall)).1 p hp
    obtain ⟨d, hd, hwall⟩ := hfound "wall" 2 highWall hlast
    cases hd
    refine ⟨p, hp, hwall, hmissing " wall " ?_, ?_, ?_⟩
    · rw [hnames]
      decide
    · rw [hdefinitions, hnames]
      decide
    · rw [hredefined, hnames]
      decide
  · refine (definitions_accounted (walls (.obj [("name", .str "\t")]))).2 rfl 2 _ _ rfl
      (.withoutName (by decide)) fun j hj raw hraw fault hm => ?_
    have hok : ∃ d, Definition.ofJson (readSteps 1) [] raw = .ok d := by
      match j, hj with
      | 0, _ => cases hraw; exact ⟨_, rfl⟩
      | 1, _ => cases hraw; exact ⟨_, rfl⟩
    obtain ⟨d, hd⟩ := hok
    rw [hm.ofJson] at hd
    cases hd

end Program
end VoxelBlueprint
