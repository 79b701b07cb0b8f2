/-
# JSON is read as it is written

A value is writable within a depth if it has no float, no whole number with more digits than
may be read, no object with two fields of one name, and no deeper arrays and objects. A
writable value is read back as it is written, on one line or over several. The proof says of
each part of a text what it does to the reader wherever a value is expected, so that the text
of an array or object does the same if its parts do, whatever space is between them.

Key definitions: `Json.Writable`, `Json.Reader.State.Awaits`, `Json.Spells`.
Key theorems: `Json.spells_arr`, `Json.spells_obj`, `Json.spells_compact`,
`Json.spells_indentedBy`, `Json.read_compact`, `Json.read_indented`.
-/
import VoxelBlueprint.Json.Reader
import VoxelBlueprint.Proofs.Json.Scalars

namespace VoxelBlueprint
namespace Json

open Reader

/-- Whether the value is written so that it can be read back, with arrays and objects nested no
deeper than this. -/
inductive Writable : Nat → Json → Prop where
  | null (depth : Nat) : Writable depth .null
  | bool (depth : Nat) (value : Bool) : Writable depth (.bool value)
  | int (depth : Nat) {n : Int} (h : (toString n.natAbs).length ≤ Numeral.maxDigits) :
    Writable depth (.int n)
  | str (depth : Nat) (text : String) : Writable depth (.str text)
  | arr {depth : Nat} {items : List Json} (h : ∀ item ∈ items, Writable depth item) :
    Writable (depth + 1) (.arr items)
  | obj {depth : Nat} {fields : List (String × Json)} (hn : (fields.map Prod.fst).Nodup)
    (h : ∀ field ∈ fields, Writable depth field.2) : Writable (depth + 1) (.obj fields)

/-! ### Parts of a text -/

section Parts

variable {s s' : State} {rest : List Char}

/-- The characters of a lexeme that was taken are passed over. -/
theorem run_skip (s : State) (rest : List Char) : ∀ (cs : List Char) (position : Nat),
    run s cs.length position (cs ++ rest) = run s 0 (position + cs.length) rest
  | [], _ => rfl
  | c :: cs, position => by
    rw [List.length_cons, List.cons_append, run, run_skip s rest cs]
    congr 1
    omega

/-- Space between lexemes is passed over. -/
theorem run_space (s : State) (rest : List Char) : ∀ (cs : List Char) (position : Nat),
    (∀ c ∈ cs, isSpace c = true) →
      run s 0 position (cs ++ rest) = run s 0 (position + cs.length) rest
  | [], _, _ => rfl
  | c :: cs, position, h => by
    obtain ⟨hc, hcs⟩ := List.forall_mem_cons.mp h
    rw [List.cons_append, run, if_pos hc, run_space s rest cs _ hcs, List.length_cons]
    congr 1
    omega

/-- A lexeme that is taken leads to the next state. -/
theorem run_lexeme (cs : List Char) {c : Char} {position : Nat} {lexeme : Lexeme}
    (hc : isSpace c = false) (hl : Lexeme.read position c (cs ++ rest) = (lexeme, cs.length))
    (ht : s.take position lexeme = .ok s') :
    run s 0 position (c :: cs ++ rest) = run s' 0 (position + (c :: cs).length) rest := by
  rw [List.cons_append, run, if_neg (by simp [hc]), hl]
  simp only [ht]
  rw [run_skip, List.length_cons]
  congr 1
  omega

/-- A mark that is taken leads to the next state. -/
theorem run_mark (s' : State) (rest : List Char) {c : Char} {position : Nat} {mark : Mark}
    (hc : isSpace c = false) (hl : Lexeme.read position c rest = (.mark mark, 0))
    (ht : s.take position (.mark mark) = .ok s') :
    run s 0 position (c :: rest) = run s' 0 (position + 1) rest :=
  run_lexeme [] hc hl ht

end Parts

/-- Whether a value inside the given frames may come next. -/
inductive Reader.State.Awaits : State → List Frame → Prop where
  | value (frames : List Frame) : Awaits ⟨frames, .value⟩ frames
  | firstItem (frames : List Frame) : Awaits ⟨frames, .firstItem⟩ (.array [] :: frames)

/-- A lexeme that is not the end of an array is taken as a value, if one may come next. -/
theorem take_of_awaits {s : State} {frames : List Frame} (h : s.Awaits frames) (position : Nat)
    (lexeme : Lexeme) (hl : lexeme ≠ .mark .closeBracket) :
    s.take position lexeme = takeValue frames position lexeme := by
  cases h with
  | value => rfl
  | firstItem =>
    unfold State.take
    split
    all_goals simp_all

/-- An array or object is opened where a value may come next. -/
theorem take_open {s : State} {frames : List Frame} (h : s.Awaits frames)
    (hd : frames.length < maxNesting) (position : Nat) :
    s.take position (.mark .openBracket) = .ok ⟨frames, .firstItem⟩ ∧
      s.take position (.mark .openBrace) = .ok ⟨frames, .firstKey⟩ := by
  constructor
  · rw [take_of_awaits h position (.mark .openBracket) nofun, takeValue, enter,
      if_pos hd]
    rfl
  · rw [take_of_awaits h position (.mark .openBrace) nofun, takeValue, enter,
      if_pos hd]
    rfl

/-- Whether a text is read as a value, of arrays and objects nested no deeper than this, where
a value may come next. -/
def Spells (depth : Nat) (cs : List Char) (value : Json) : Prop :=
  ∀ (s : State) (frames : List Frame) (position : Nat) (rest : List Char), s.Awaits frames →
    frames.length + depth ≤ maxNesting → Closes rest →
      run s 0 position (cs ++ rest) = run (complete value frames) 0 (position + cs.length) rest

/-! ### Scalar values -/

/-- A lexeme that is a value is read as one. -/
theorem spells_of_lexeme (lexeme : Lexeme) {c : Char} {cs : List Char} {value : Json}
    (hc : isSpace c = false)
    (hl : ∀ position rest, Closes rest →
      Lexeme.read position c (cs ++ rest) = (lexeme, cs.length))
    (hm : lexeme ≠ .mark .closeBracket)
    (ht : ∀ frames position, takeValue frames position lexeme = .ok (complete value frames))
    (depth : Nat) : Spells depth (c :: cs) value := by
  intro s frames position rest ha _ hr
  exact run_lexeme cs hc (hl position rest hr)
    ((take_of_awaits ha position lexeme hm).trans (ht _ _))

theorem spells_str (depth : Nat) (text : String) :
    Spells depth (writtenText text).toList (.str text) := by
  rw [toList_writtenText]
  exact spells_of_lexeme (.text text) (by decide)
    (fun position rest _ => lexeme_writtenText position text rest) nofun (fun _ _ => rfl) depth

theorem isSpace_of_isDigit {c : Char} (h : c.isDigit = true) : isSpace c = false := by
  rw [Bool.eq_false_iff]
  intro hs
  simp only [isSpace, Bool.or_eq_true, decide_eq_true_eq] at hs
  rcases hs with ((rfl | rfl) | rfl) | rfl <;> simp at h

/-- What starts with a digit or a sign is read as a scalar value. -/
theorem lexeme_numeral {c : Char} (h : c.isDigit = true ∨ c = '-') (position : Nat)
    (rest : List Char) : Lexeme.read position c rest =
      ((readScalar (c :: rest)).1, (readScalar (c :: rest)).2 - 1) := by
  unfold Lexeme.read
  split
  all_goals first | rfl | simp at h

theorem spells_int (depth : Nat) {n : Int} (hn : (toString n.natAbs).length ≤ Numeral.maxDigits) :
    Spells depth (toString n).toList (.int n) := by
  obtain ⟨c, cs, hcs, hc⟩ : ∃ c cs, (toString n).toList = c :: cs ∧
      (c.isDigit = true ∨ c = '-') := by
    rw [toList_toString_int]
    by_cases hs : 0 ≤ n
    · obtain ⟨c, cs, hd⟩ := List.exists_cons_of_ne_nil
        (Nat.toDigits_ne_nil (n := n.natAbs) (b := 10))
      have hc : c.isDigit = true :=
        Nat.isDigit_of_mem_toDigits (by decide) (by decide) (hd ▸ List.mem_cons_self)
      exact ⟨c, cs, (if_pos hs).trans hd, .inl hc⟩
    · exact ⟨'-', _, if_neg hs, .inr rfl⟩
  rw [hcs]
  refine spells_of_lexeme (.scalar (.int n)) ?_ (fun position rest hr => ?_) nofun
    (fun _ _ => rfl) depth
  · rcases hc with hc | rfl
    · exact isSpace_of_isDigit hc
    · decide
  · have hread := readScalar_int hn hr
    rw [hcs, List.cons_append] at hread
    rw [lexeme_numeral hc, hread]
    rfl

theorem spells_null (depth : Nat) : Spells depth "null".toList .null :=
  spells_of_lexeme (.scalar .null) (by decide) (fun _ _ _ => rfl) nofun (fun _ _ => rfl)
    depth

theorem spells_bool (depth : Nat) (value : Bool) :
    Spells depth (compact (.bool value)).toList (.bool value) := by
  cases value with
  | false =>
    exact spells_of_lexeme (.scalar (.bool false)) (by decide) (fun _ _ _ => rfl) nofun
      (fun _ _ => rfl) depth
  | true =>
    exact spells_of_lexeme (.scalar (.bool true)) (by decide) (fun _ _ _ => rfl) nofun
      (fun _ _ => rfl) depth

/-! ### Arrays and objects -/

theorem closes_of_isSpace {c : Char} (h : isSpace c = true) (rest : List Char) :
    Closes (c :: rest) := by
  intro d hd
  cases hd
  simp only [isSpace, Bool.or_eq_true, decide_eq_true_eq] at h
  rcases h with ((rfl | rfl) | rfl) | rfl <;> decide

/-- Nothing is lengthened by space in front of what does not lengthen it. -/
theorem closes_append {space rest : List Char} (hs : ∀ c ∈ space, isSpace c = true)
    (hr : Closes rest) : Closes (space ++ rest) := by
  cases space with
  | nil => exact hr
  | cons c space => exact closes_of_isSpace (hs c List.mem_cons_self) _

theorem closes_mark {c : Char} (h : c ∈ [',', ']', '\x7d']) (rest : List Char) :
    Closes (c :: rest) := by
  intro d hd
  cases hd
  simp only [List.mem_cons, List.not_mem_nil, or_false] at h
  rcases h with rfl | rfl | rfl <;> decide

/-- Parts behind the first one, each behind a comma and space. -/
def furtherParts (space : List Char) (parts : List (List Char)) : List Char :=
  parts.flatMap fun part => ',' :: (space ++ part)

theorem intercalate_cons (space part : List Char) (parts : List (List Char)) :
    List.intercalate (',' :: space) (part :: parts) = part ++ furtherParts space parts := by
  induction parts generalizing part with
  | nil => rw [List.intercalate_singleton, furtherParts, List.flatMap_nil, List.append_nil]
  | cons next parts ih =>
    rw [List.intercalate_cons_cons, ih]
    simp [furtherParts]

/-- What follows a part starts with a comma, or ends the parts. -/
theorem closes_furtherParts (space : List Char) (parts : List (List Char)) {rest : List Char}
    (hr : Closes rest) : Closes (furtherParts space parts ++ rest) := by
  cases parts with
  | nil => exact hr
  | cons part parts => exact closes_mark (by simp) _

section Nested

variable {depth : Nat} (write : Json → List Char) {opening space closing : List Char}

/-- The further items of an array, up to its end. -/
theorem run_items {frames : List Frame} (hd : frames.length + 1 + depth ≤ maxNesting)
    (hs : ∀ c ∈ space, isSpace c = true) (hc : ∀ c ∈ closing, isSpace c = true)
    (rest : List Char) : ∀ (items before : List Json) (position : Nat),
    (∀ item ∈ items, Spells depth (write item) item) →
      run ⟨frames, .nextItem before⟩ 0 position
          (furtherParts space (items.map write) ++ (closing ++ ']' :: rest)) =
        run (complete (.arr (before.reverse ++ items)) frames) 0
          (position + (furtherParts space (items.map write)).length + closing.length + 1) rest
  | [], before, position, _ => by
    rw [List.map_nil, furtherParts, List.flatMap_nil, List.nil_append, run_space _ _ _ _ hc,
      List.append_nil]
    exact run_mark _ rest (by decide) rfl rfl
  | item :: items, before, position, h => by
    obtain ⟨hi, his⟩ := List.forall_mem_cons.mp h
    have hp : furtherParts space ((item :: items).map write) =
        ',' :: (space ++ (write item ++ furtherParts space (items.map write))) := by
      simp [furtherParts]
    have hcl : Closes (furtherParts space (items.map write) ++ (closing ++ ']' :: rest)) :=
      closes_furtherParts _ _ (closes_append hc (closes_mark (by simp) _))
    rw [hp, List.cons_append, List.append_assoc, List.append_assoc,
      run_mark ⟨.array before :: frames, .value⟩ _ (by decide) rfl rfl,
      run_space _ _ _ _ hs, hi _ (.array before :: frames) _ _ (.value _) hd hcl, complete,
      run_items hd hs hc rest items _ _ his, List.reverse_cons, List.append_assoc,
      List.singleton_append]
    refine congrArg (fun place => run _ 0 place rest) ?_
    simp only [List.length_cons, List.length_append]
    omega

/-- The text of an array with an item. -/
theorem spells_arr {item : Json} {items : List Json} (ho : ∀ c ∈ opening, isSpace c = true)
    (hs : ∀ c ∈ space, isSpace c = true) (hc : ∀ c ∈ closing, isSpace c = true)
    (h : ∀ i ∈ item :: items, Spells depth (write i) i) :
    Spells (depth + 1)
      ('[' :: (opening ++ (List.intercalate (',' :: space) ((item :: items).map write) ++
        (closing ++ [']'])))) (.arr (item :: items)) := by
  intro s frames position rest ha hd hr
  obtain ⟨hi, his⟩ := List.forall_mem_cons.mp h
  have henter := (take_open ha (by omega) position).1
  have hd' : frames.length + 1 + depth ≤ maxNesting := by omega
  have hcl : Closes (furtherParts space (items.map write) ++ (closing ++ ']' :: rest)) :=
    closes_furtherParts _ _ (closes_append hc (closes_mark (by simp) _))
  rw [List.map_cons, intercalate_cons, List.cons_append,
    run_mark ⟨frames, _⟩ _ (by decide) rfl henter, List.append_assoc, run_space _ _ _ _ ho,
    List.append_assoc, List.append_assoc, List.append_assoc, List.singleton_append,
    hi _ (.array [] :: frames) _ _ (.firstItem _) hd' hcl, complete,
    run_items write hd' hs hc rest items _ _ his]
  refine congrArg (fun place => run _ 0 place rest) ?_
  simp only [List.length_cons, List.length_append, List.length_nil]
  omega

theorem spells_arr_nil (depth : Nat) : Spells (depth + 1) "[]".toList (.arr []) := by
  intro s frames position rest ha hd hr
  have henter := (take_open ha (by omega) position).1
  exact (run_mark _ (']' :: rest) (by decide) rfl henter).trans
    (run_mark _ rest (by decide) rfl rfl)

/-! ### Objects -/

/-- The text of a field. -/
def fieldText (write : Json → List Char) (field : String × Json) : List Char :=
  (writtenText field.1).toList ++ ':' :: ' ' :: write field.2

/-- Whether the name of a field behind others may come next. -/
inductive AwaitsName : State → List Frame → List (String × Json) → Prop where
  | key (frames : List Frame) (before : List (String × Json)) :
    AwaitsName ⟨frames, .key before⟩ frames before
  | firstKey (frames : List Frame) : AwaitsName ⟨frames, .firstKey⟩ frames []

/-- A field with a new name goes to the end. -/
theorem setField_of_not_mem {name : String} (value : Json) : ∀ {fields : List (String × Json)},
    name ∉ fields.map Prod.fst → setField name value fields = fields ++ [(name, value)]
  | [], _ => rfl
  | (n, v) :: fields, h => by
    rw [List.map_cons, List.mem_cons, not_or] at h
    rw [setField, if_neg (Ne.symm h.1), setField_of_not_mem value h.2]
    rfl

/-- A field of an object. -/
theorem run_field {s : State} {frames : List Frame} {before : List (String × Json)}
    (ha : AwaitsName s frames before) (hd : frames.length + 1 + depth ≤ maxNesting)
    {field : String × Json} (h : Spells depth (write field.2) field.2)
    (hn : field.1 ∉ before.map Prod.fst) (position : Nat) {rest : List Char} (hr : Closes rest) :
    run s 0 position (fieldText write field ++ rest) =
      run ⟨frames, .nextKey (before ++ [field])⟩ 0
        (position + (fieldText write field).length) rest := by
  have hname : s.take position (.text field.1) = .ok ⟨frames, .colon before field.1⟩ := by
    cases ha <;> rfl
  have hsp : ∀ c ∈ [' '], isSpace c = true := List.all_eq_true.mp (by decide)
  have hval := h _ (.object before field.1 :: frames)
    (position + (writtenText field.1).toList.length + 1 + 1) rest (.value _) hd hr
  rw [complete, setField_of_not_mem _ hn] at hval
  rw [fieldText, List.append_assoc, toList_writtenText,
    run_lexeme _ (by decide) (lexeme_writtenText position field.1 _) hname, ← toList_writtenText,
    List.cons_append, List.cons_append,
    run_mark ⟨.object before field.1 :: frames, .value⟩ _ (by decide) rfl rfl]
  refine (run_space _ _ [' '] _ hsp).trans (hval.trans ?_)
  refine congrArg (fun place => run _ 0 place rest) ?_
  simp only [List.length_cons, List.length_append]
  omega

/-- The further fields of an object, up to its end. -/
theorem run_fields {frames : List Frame} (hd : frames.length + 1 + depth ≤ maxNesting)
    (hs : ∀ c ∈ space, isSpace c = true) (hc : ∀ c ∈ closing, isSpace c = true)
    (rest : List Char) : ∀ (fields before : List (String × Json)) (position : Nat),
    ((before ++ fields).map Prod.fst).Nodup →
    (∀ field ∈ fields, Spells depth (write field.2) field.2) →
      run ⟨frames, .nextKey before⟩ 0 position
          (furtherParts space (fields.map (fieldText write)) ++ (closing ++ '\x7d' :: rest)) =
        run (complete (.obj (before ++ fields)) frames) 0
          (position + (furtherParts space (fields.map (fieldText write))).length +
            closing.length + 1) rest
  | [], before, position, _, _ => by
    rw [List.map_nil, furtherParts, List.flatMap_nil, List.nil_append, run_space _ _ _ _ hc,
      List.append_nil]
    exact run_mark _ rest (by decide) rfl rfl
  | field :: fields, before, position, hn, h => by
    obtain ⟨hf, hfs⟩ := List.forall_mem_cons.mp h
    have hp : furtherParts space ((field :: fields).map (fieldText write)) =
        ',' :: (space ++
          (fieldText write field ++ furtherParts space (fields.map (fieldText write)))) := by
      simp [furtherParts]
    have hcl : Closes (furtherParts space (fields.map (fieldText write)) ++
        (closing ++ '\x7d' :: rest)) :=
      closes_furtherParts _ _ (closes_append hc (closes_mark (by simp) _))
    have hnew : field.1 ∉ before.map Prod.fst := by
      rw [List.map_append, List.map_cons, List.nodup_append] at hn
      exact fun hm => hn.2.2 _ hm _ List.mem_cons_self rfl
    have hn' : ((before ++ [field] ++ fields).map Prod.fst).Nodup := by
      rwa [List.append_assoc, List.singleton_append]
    rw [hp, List.cons_append, List.append_assoc, List.append_assoc,
      run_mark ⟨frames, .key before⟩ _ (by decide) rfl rfl, run_space _ _ _ _ hs,
      run_field write (.key _ _) hd hf hnew _ hcl, run_fields hd hs hc rest fields _ _ hn' hfs,
      List.append_assoc, List.singleton_append]
    refine congrArg (fun place => run _ 0 place rest) ?_
    simp only [List.length_cons, List.length_append]
    omega

/-- The text of an object with a field. -/
theorem spells_obj {field : String × Json} {fields : List (String × Json)}
    (hn : ((field :: fields).map Prod.fst).Nodup) (ho : ∀ c ∈ opening, isSpace c = true)
    (hs : ∀ c ∈ space, isSpace c = true) (hc : ∀ c ∈ closing, isSpace c = true)
    (h : ∀ f ∈ field :: fields, Spells depth (write f.2) f.2) :
    Spells (depth + 1)
      ('\x7b' :: (opening ++ (List.intercalate (',' :: space)
        ((field :: fields).map (fieldText write)) ++ (closing ++ ['\x7d']))))
      (.obj (field :: fields)) := by
  intro s frames position rest ha hd hr
  obtain ⟨hf, hfs⟩ := List.forall_mem_cons.mp h
  have henter := (take_open ha (by omega) position).2
  have hd' : frames.length + 1 + depth ≤ maxNesting := by omega
  have hcl : Closes (furtherParts space (fields.map (fieldText write)) ++
      (closing ++ '\x7d' :: rest)) :=
    closes_furtherParts _ _ (closes_append hc (closes_mark (by simp) _))
  rw [List.map_cons, intercalate_cons, List.cons_append,
    run_mark ⟨frames, _⟩ _ (by decide) rfl henter, List.append_assoc, run_space _ _ _ _ ho,
    List.append_assoc, List.append_assoc, List.append_assoc, List.singleton_append,
    run_field write (.firstKey _) hd' hf (by simp) _ hcl,
    run_fields write hd' hs hc rest fields _ _ hn hfs]
  refine congrArg (fun place => run _ 0 place rest) ?_
  simp only [List.length_cons, List.length_append, List.length_nil]
  omega

theorem spells_obj_nil (depth : Nat) : Spells (depth + 1) "\x7b\x7d".toList (.obj []) := by
  intro s frames position rest ha hd hr
  have henter := (take_open ha (by omega) position).2
  exact (run_mark _ ('\x7d' :: rest) (by decide) rfl henter).trans
    (run_mark _ rest (by decide) rfl rfl)

end Nested

/-! ### Values -/

theorem compactItems_eq_map (items : List Json) : compactItems items = items.map compact := by
  induction items with
  | nil => rfl
  | cons item items ih => rw [compactItems, ih, List.map_cons]

theorem compactFields_eq_map (fields : List (String × Json)) :
    compactFields fields =
      fields.map fun field => writtenText field.1 ++ ": " ++ compact field.2 := by
  induction fields with
  | nil => rfl
  | cons field fields ih => rw [compactFields, ih, List.map_cons]

theorem indentedItems_eq_map (margin : String) (items : List Json) :
    indentedItems margin items = items.map (indentedBy margin) := by
  induction items with
  | nil => rfl
  | cons item items ih => rw [indentedItems, ih, List.map_cons]

theorem indentedFields_eq_map (margin : String) (fields : List (String × Json)) :
    indentedFields margin fields =
      fields.map fun field => writtenText field.1 ++ ": " ++ indentedBy margin field.2 := by
  induction fields with
  | nil => rfl
  | cons field fields ih => rw [indentedFields, ih, List.map_cons]

theorem toList_comp_field (write : Json → String) :
    (String.toList ∘ fun field : String × Json => writtenText field.1 ++ ": " ++ write field.2) =
      fieldText (String.toList ∘ write) := by
  funext field
  simp [fieldText, String.toList_append]

/-- A writable value is read as it is written on one line. -/
theorem spells_compact {depth : Nat} {value : Json} (h : Writable depth value) :
    Spells depth (compact value).toList value := by
  have hnil : ∀ c ∈ ([] : List Char), isSpace c = true := nofun
  have hsp : ∀ c ∈ [' '], isSpace c = true := List.all_eq_true.mp (by decide)
  induction h with
  | null depth => exact spells_null depth
  | bool depth value => exact spells_bool depth value
  | int depth hn => exact spells_int depth hn
  | str depth text => exact spells_str depth text
  | @arr depth items h ih =>
    cases items with
    | nil => exact spells_arr_nil depth
    | cons item items =>
      have ht := spells_arr (String.toList ∘ compact) hnil hsp hnil ih
      rw [compact, compactItems_eq_map, String.toList_append, String.toList_append,
        String.toList_intercalate, List.map_map]
      exact ht
  | @obj depth fields hn h ih =>
    cases fields with
    | nil => exact spells_obj_nil depth
    | cons field fields =>
      have ht := spells_obj (String.toList ∘ compact) hn hnil hsp hnil ih
      rw [compact, compactFields_eq_map, String.toList_append, String.toList_append,
        String.toList_intercalate, List.map_map, toList_comp_field]
      exact ht

theorem toList_block (margin opening closing : String) {parts : List String} (h : parts ≠ []) :
    (block margin opening closing parts).toList =
      opening.toList ++ (('\n' :: (margin.toList ++ [' ', ' '])) ++
        (List.intercalate (',' :: '\n' :: (margin.toList ++ [' ', ' ']))
          (parts.map String.toList) ++ (('\n' :: margin.toList) ++ closing.toList))) := by
  cases parts with
  | nil => exact absurd rfl h
  | cons part parts => simp [block, String.toList_append, String.toList_intercalate]

/-- A writable value is read as it is written over several lines. -/
theorem spells_indentedBy {depth : Nat} {value : Json} (h : Writable depth value) :
    ∀ margin : String, (∀ c ∈ margin.toList, isSpace c = true) →
      Spells depth (indentedBy margin value).toList value := by
  have hspace {margin : String} (hm : ∀ c ∈ margin.toList, isSpace c = true) :
      (∀ c ∈ (margin ++ "  ").toList, isSpace c = true) ∧
        (∀ c ∈ '\n' :: margin.toList, isSpace c = true) ∧
        ∀ c ∈ '\n' :: (margin.toList ++ [' ', ' ']), isSpace c = true := by
    have h2 : ∀ c ∈ [' ', ' '], isSpace c = true := List.all_eq_true.mp (by decide)
    refine ⟨?_, List.forall_mem_cons.mpr ⟨by decide, hm⟩,
      List.forall_mem_cons.mpr ⟨by decide, List.forall_mem_append.mpr ⟨hm, h2⟩⟩⟩
    rw [String.toList_append]
    exact List.forall_mem_append.mpr ⟨hm, h2⟩
  induction h with
  | null depth => exact fun _ _ => spells_null depth
  | bool depth value => exact fun _ _ => spells_bool depth value
  | int depth hn => exact fun _ _ => spells_int depth hn
  | str depth text => exact fun _ _ => spells_str depth text
  | @arr depth items h ih =>
    intro margin hm
    cases items with
    | nil => exact spells_arr_nil depth
    | cons item items =>
      obtain ⟨hinner, hclose, hline⟩ := hspace hm
      have ht := spells_arr (String.toList ∘ indentedBy (margin ++ "  ")) hline hline
        hclose fun i hi => ih i hi _ hinner
      rw [indentedBy, indentedItems_eq_map, toList_block _ _ _ (by simp), List.map_map]
      exact ht
  | @obj depth fields hn h ih =>
    intro margin hm
    cases fields with
    | nil => exact spells_obj_nil depth
    | cons field fields =>
      obtain ⟨hinner, hclose, hline⟩ := hspace hm
      have ht := spells_obj (String.toList ∘ indentedBy (margin ++ "  ")) hn hline hline
        hclose fun f hf => ih f hf _ hinner
      rw [indentedBy, indentedFields_eq_map, toList_block _ _ _ (by simp), List.map_map,
        toList_comp_field]
      exact ht

/-- No value starts with a byte order mark. -/
theorem run_byteOrderMark (rest : List Char) :
    run .start 0 0 ('\uFEFF' :: rest) = .error (.grammar .noValue 0) := by
  have hl : Lexeme.read 0 '\uFEFF' rest = (.junk, 0) := by
    simp [Lexeme.read, readScalar, words, numberParts?, wholePart]
  rw [run, if_neg (by decide), hl]
  rfl

/-- What spells a value is read as this value, also with space behind it. -/
theorem read_of_spells {cs : List Char} {value : Json} (h : Spells maxNesting cs value)
    {closing : List Char} (hc : ∀ c ∈ closing, isSpace c = true) :
    read (cs ++ closing) = .ok value := by
  have hrun : run .start 0 0 (cs ++ closing) = .ok value := by
    have hcl : Closes closing := by
      have hnil : Closes [] := nofun
      have := closes_append hc hnil
      rwa [List.append_nil] at this
    have hend := run_space ⟨[], .nothing value⟩ [] closing (0 + cs.length) hc
    rw [List.append_nil] at hend
    have hread := h _ [] 0 closing (.value []) (Nat.le_of_eq (Nat.zero_add _)) hcl
    exact hread.trans (hend.trans rfl)
  have hb : (cs ++ closing).head? ≠ some '\uFEFF' := by
    intro hb
    obtain ⟨rest, hrest⟩ := List.head?_eq_some_iff.mp hb
    rw [hrest, run_byteOrderMark] at hrun
    cases hrun
  rw [read, if_neg hb, hrun]
  rfl

/-- **A writable value is read back from one line**, which may have space behind it. -/
theorem read_compact {value : Json} (h : Writable maxNesting value) (closing : List Char)
    (hc : ∀ c ∈ closing, isSpace c = true) : read ((compact value).toList ++ closing) = .ok value :=
  read_of_spells (spells_compact h) hc

/-- **A writable value is read back from several lines**, which may have space behind them. -/
theorem read_indented {value : Json} (h : Writable maxNesting value) (closing : List Char)
    (hc : ∀ c ∈ closing, isSpace c = true) :
    read ((indented value).toList ++ closing) = .ok value :=
  read_of_spells (spells_indentedBy h "" nofun) hc

end Json
end VoxelBlueprint
