/-
# Names for expressions

A name that is bound to the value of an expression stands for what the expression stands for. So
the expression may be written in the place of the name, between parentheses, whatever stands
around it: an operator of higher precedence, a sign, a divisor, or something that is no expression
at all. Both texts are read side by side. At the name, one of them looks up the value, and the
other one reads the parentheses and everything between them; there is room enough for this, since
reading a token never opens more than one factor.

Key definitions: `Expression.inlined`, `Expression.Inlines`, `Expression.ReadAlike`.
Key theorems: `Expression.chain_inlines`, `Expression.factor_inlines`,
`Expression.evaluateTokens_inlined`, `Expression.names_stand_for_values`.
-/
import VoxelBlueprint.Proofs.Expression.Layouts
import VoxelBlueprint.Proofs.Expression.Ranges

namespace VoxelBlueprint

namespace Scope

theorem find?_bind_self (scope : Scope) (name : String) (value : Json) :
    (scope.bind name value).find? name = some value :=
  List.lookup_cons_self

theorem find?_bind_ne (scope : Scope) {name other : String} (value : Json) (h : other ≠ name) :
    (scope.bind name value).find? other = scope.find? other := by
  unfold find? bind
  rw [List.lookup_cons, beq_eq_false_iff_ne.mpr h]

end Scope

namespace Expression

open Effects

/-- Tokens, with other tokens between parentheses in the place of a name. -/
def inlined (name : List Char) (inner atoms : List Atom) : List Atom :=
  atoms.flatMap fun atom =>
    if atom = .name name then .mark .opening :: inner ++ [.mark .closing] else [atom]

section Inlined

variable {name : List Char} {inner atoms : List Atom}

theorem inlined_cons_self : inlined name inner (.name name :: atoms) =
    .mark .opening :: (inner ++ .mark .closing :: inlined name inner atoms) := by
  simp [inlined]

theorem inlined_cons_ne {atom : Atom} (h : atom ≠ .name name) :
    inlined name inner (atom :: atoms) = atom :: inlined name inner atoms := by
  simp [inlined, h]

/-- What is inlined in lexemes are lexemes. -/
theorem isLexeme_inlined (hi : ∀ a ∈ inner, a.IsLexeme) (ha : ∀ a ∈ atoms, a.IsLexeme) :
    ∀ a ∈ inlined name inner atoms, a.IsLexeme := by
  intro a h
  obtain ⟨atom, hatom, h⟩ := List.mem_flatMap.mp h
  split at h
  · simp only [List.mem_append, List.mem_cons, List.not_mem_nil, or_false] at h
    obtain (rfl | h) | rfl := h
    · trivial
    · exact hi a h
    · trivial
  · rw [List.mem_singleton.mp h]
    exact ha atom hatom

end Inlined

/-- No more factors are open at once than there are tokens. -/
theorem Tree.openFactors_le : ∀ {phrase : Phrase} (tree : Tree phrase),
    tree.openFactors ≤ tree.atoms.length
  | _, single operand => operand.openFactors_le
  | _, link chain _ operand => by
    have := chain.openFactors_le
    have := operand.openFactors_le
    simp only [openFactors, atoms, List.length_append, List.length_cons]
    omega
  | _, signed _ factor => Nat.succ_le_succ factor.openFactors_le
  | _, number _ => le_rfl
  | _, name _ => le_rfl
  | _, paren sum => by
    have := sum.openFactors_le
    simp only [openFactors, atoms, List.length_append, List.length_cons]
    omega

/-! ### Two texts side by side -/

/-- Whether tokens are those of a text with other tokens inlined, where there is room for both. -/
structure Inlines (name : List Char) (inner : List Atom) (room : ℕ) (ts ts' : List Token) :
    Prop where
  atoms : ts'.map (·.atom) = inlined name inner (ts.map (·.atom))
  fits : ts.length + inner.length ≤ room

/-- Whether reading ends alike: with the same value, and with related tokens to go on with; or
both times with a fault. -/
inductive ReadAlike (R : List Token → List Token → Prop) :
    Except Fault (Int × List Token) → Except Fault (Int × List Token) → Prop
  | ok {v : Int} {rest rest' : List Token} : R rest rest' →
    ReadAlike R (.ok (v, rest)) (.ok (v, rest'))
  | error {fault fault' : Fault} : ReadAlike R (.error fault) (.error fault')

namespace ReadAlike

variable {R Q : List Token → List Token → Prop} {x x' : Except Fault (Int × List Token)}

theorem mono (h : ReadAlike R x x') (hq : ∀ rest rest', R rest rest' → Q rest rest') :
    ReadAlike Q x x' := by
  cases h with
  | ok hr => exact .ok (hq _ _ hr)
  | error => exact .error

theorem bind {f f' : Int × List Token → Except Fault (Int × List Token)} (h : ReadAlike R x x')
    (hf : ∀ v rest rest', R rest rest' → ReadAlike Q (f (v, rest)) (f' (v, rest'))) :
    ReadAlike Q (x >>= f) (x' >>= f') := by
  cases h with
  | ok hr => exact hf _ _ _ hr
  | error => exact .error

end ReadAlike

namespace Inlines

variable {name : List Char} {inner : List Atom} {room : ℕ} {ts ts' : List Token} {t : Token}

theorem nil (h : Inlines name inner room [] ts') : ts' = [] :=
  List.map_eq_nil_iff.mp h.atoms

/-- In the place of the name stand parentheses, with the other tokens between them. -/
theorem cons_self (h : Inlines name inner (room + 1) (t :: ts) ts') (ht : t.atom = .name name) :
    ∃ opening between closing rest, ts' = opening :: (between ++ closing :: rest) ∧
      opening.atom = .mark .opening ∧ between.map (·.atom) = inner ∧
      closing.atom = .mark .closing ∧ Inlines name inner room ts rest := by
  obtain ⟨ha, hf⟩ := h
  rw [List.map_cons, ht, inlined_cons_self] at ha
  obtain ⟨opening, tail, rfl, hopening, ha⟩ := List.map_eq_cons_iff.mp ha
  obtain ⟨between, tail, rfl, hbetween, ha⟩ := List.map_eq_append_iff.mp ha
  obtain ⟨closing, rest, rfl, hclosing, ha⟩ := List.map_eq_cons_iff.mp ha
  rw [List.length_cons] at hf
  exact ⟨opening, between, closing, rest, rfl, hopening, hbetween, hclosing, ha, by omega⟩

/-- Every other token stands as it is. -/
theorem cons_ne (h : Inlines name inner (room + 1) (t :: ts) ts') (ht : t.atom ≠ .name name) :
    ∃ t' rest, ts' = t' :: rest ∧ t'.atom = t.atom ∧ Inlines name inner room ts rest := by
  obtain ⟨ha, hf⟩ := h
  rw [List.map_cons, inlined_cons_ne ht] at ha
  obtain ⟨t', rest, rfl, ht', ha⟩ := List.map_eq_cons_iff.mp ha
  rw [List.length_cons] at hf
  exact ⟨t', rest, rfl, ht', ha, by omega⟩

theorem succ (h : Inlines name inner room ts ts') : Inlines name inner (room + 1) ts ts' :=
  ⟨h.atoms, Nat.le_succ_of_le h.fits⟩

/-- What comes first is the name and a parenthesis in its place, or the same token. -/
theorem head (h : Inlines name inner room (t :: ts) ts') : ∃ t' rest, ts' = t' :: rest ∧
    (t.atom = .name name ∧ t'.atom = .mark .opening ∨
      t'.atom = t.atom ∧ Inlines name inner room ts rest) := by
  obtain ⟨room, rfl⟩ : ∃ r, room = r + 1 := ⟨room - 1, by
    have := h.fits
    rw [List.length_cons] at this
    omega⟩
  by_cases ht : t.atom = .name name
  · obtain ⟨opening, between, closing, rest, rfl, ho, -⟩ := h.cons_self ht
    exact ⟨opening, _, rfl, .inl ⟨ht, ho⟩⟩
  · obtain ⟨t', rest, rfl, ht', hrest⟩ := h.cons_ne ht
    exact ⟨t', rest, rfl, .inr ⟨ht', hrest.succ⟩⟩

end Inlines

/-- Whether tokens are what may be left of others, with other tokens inlined in both. -/
structure Leaves (name : List Char) (inner : List Atom) (room : ℕ)
    (ts ts' rest rest' : List Token) : Prop where
  inlines : Inlines name inner room rest rest'
  length_le : rest.length ≤ ts.length
  length_le' : rest'.length ≤ ts'.length

/-- Whether a rule reads tokens as another one reads them with other tokens inlined. -/
def ReadsInlined (name : List Char) (inner : List Atom) (room : ℕ) (rule rule' : Rule) : Prop :=
  ∀ ts ts', Inlines name inner room ts ts' →
    ReadAlike (Leaves name inner room ts ts') (rule ts) (rule' ts')

/-! ### Chains -/

section Chains

variable {name : List Char} {inner : List Atom} {room : ℕ} {l : Level} {operand operand' : Rule}

/-- The name is no operator, and neither is the parenthesis in its place. -/
theorem Inlines.operator {t : Token} {ts ts' : List Token}
    (h : Inlines name inner room (t :: ts) ts') : ∃ t' rest, ts' = t' :: rest ∧
      l.operation? t'.atom = l.operation? t.atom ∧
      (l.operation? t.atom ≠ none → Inlines name inner room ts rest) := by
  obtain ⟨t', rest, rfl, ⟨ht, ht'⟩ | ⟨ht, hrest⟩⟩ := h.head
  · have hnone : l.operation? t.atom = none := by
      rw [ht]
      cases l <;> rfl
    refine ⟨t', rest, rfl, ?_, fun hop => absurd hnone hop⟩
    rw [ht', hnone]
    cases l <;> rfl
  · exact ⟨t', rest, rfl, by rw [ht], fun _ => hrest⟩

theorem chainFrom_inlines (h : ReadsInlined name inner room operand operand') :
    ∀ (links links' : ℕ) (v : Int) (ts ts' : List Token), Inlines name inner room ts ts' →
      ts.length ≤ links → ts'.length ≤ links' → ReadAlike (Leaves name inner room ts ts')
        (chainFrom l.operation? operand links v ts)
        (chainFrom l.operation? operand' links' v ts')
  | links, links', v, [], ts', hi, _, _ => by
    have hs : l.Stops [] := fun _ h => by cases h
    rw [hi.nil, chainFrom_stops hs, chainFrom_stops hs]
    exact .ok ⟨hi.nil ▸ hi, le_rfl, le_rfl⟩
  | links + 1, links', v, t :: ts, ts', hi, hl, hl' => by
    obtain ⟨t', rest, rfl, hop, hrest⟩ := hi.operator (l := l)
    obtain ⟨links', rfl⟩ : ∃ n, links' = n + 1 := ⟨links' - 1, by simp at hl'; omega⟩
    cases ho : l.operation? t.atom with
    | none =>
      rw [chainFrom_stops (l := l), chainFrom_stops (l := l)]
      · exact .ok ⟨hi, le_rfl, le_rfl⟩
      · intro x hx
        cases hx
        rw [hop, ho]
      · intro x hx
        cases hx
        exact ho
    | some operation =>
      rw [chainFrom, chainFrom, hop, ho]
      refine (h ts rest (hrest (by simp [ho]))).bind fun w back back' hb => ?_
      dsimp only
      cases operation v w with
      | error fault => exact .error
      | ok u =>
        obtain ⟨hinlines, hle, hle'⟩ := hb
        simp only [List.length_cons] at hl hl'
        refine (chainFrom_inlines h links links' u back back' hinlines (by omega)
          (by omega)).mono fun last last' hlast => ?_
        obtain ⟨hlast, hll, hll'⟩ := hlast
        exact ⟨hlast, by rw [List.length_cons]; omega, by rw [List.length_cons]; omega⟩

/-- A chain is read alike if its operands are. -/
theorem chain_inlines (h : ReadsInlined name inner room operand operand') :
    ReadsInlined name inner room (chain l.operation? operand) (chain l.operation? operand') := by
  intro ts ts' hi
  refine (h ts ts' hi).bind fun v rest rest' hr => ?_
  refine (chainFrom_inlines h _ _ v rest rest' hr.inlines le_rfl le_rfl).mono
    fun last last' hlast => ?_
  exact ⟨hlast.inlines, hlast.length_le.trans hr.length_le, hlast.length_le'.trans hr.length_le'⟩

theorem sum_inlines (h : ReadsInlined name inner room operand operand') :
    ReadsInlined name inner room (sum operand) (sum operand') :=
  chain_inlines (l := .sum) (chain_inlines (l := .product) h)

end Chains

/-! ### Factors -/

section Factors

variable {scope : Scope} {limit n : Int} {name : String} {tree : Tree (.chain .sum)}

/-- What is read behind one more token is what is left of all of them. -/
theorem Leaves.cons {name : List Char} {inner : List Atom} {room : ℕ}
    {ts ts' rest rest' : List Token} (h : Leaves name inner room ts ts' rest rest') (t t' : Token) :
    Leaves name inner (room + 1) (t :: ts) (t' :: ts') rest rest' :=
  ⟨h.inlines.succ, Nat.le_succ_of_le h.length_le, Nat.le_succ_of_le h.length_le'⟩

/-- Goes on behind the parenthesis that closes a sum. -/
def close (v : Int) : Rule
  | ⟨.mark .closing, _⟩ :: rest => .ok (v, rest)
  | _ => .error .unclosed

theorem factor_opening (room position : ℕ) (tokens : List Token) :
    factor scope limit (room + 1) (⟨.mark .opening, position⟩ :: tokens) =
      sum (factor scope limit room) tokens >>= fun read => close read.1 read.2 := by
  rw [factor]
  rfl

/-- The parenthesis that closes a sum stands in both texts or in neither. -/
theorem Leaves.close {name : List Char} {inner : List Atom} {room : ℕ}
    {ts ts' back back' : List Token} (h : Leaves name inner room ts ts' back back') (v : Int)
    (t t' : Token) : ReadAlike (Leaves name inner (room + 1) (t :: ts) (t' :: ts'))
      (Expression.close v back) (Expression.close v back') := by
  obtain ⟨hback, hle, hle'⟩ := h
  cases back with
  | nil =>
    rw [hback.nil]
    exact .error
  | cons u back =>
    obtain ⟨atom, position⟩ := u
    obtain ⟨⟨atom', position'⟩, back', rfl, ⟨hu, hu'⟩ | ⟨hu, hrest⟩⟩ := hback.head
    · cases hu
      cases hu'
      exact .error
    · cases hu
      rw [List.length_cons] at hle hle'
      cases atom with
      | number | name => exact .error
      | mark m =>
        cases m with
        | closing => exact .ok (.cons ⟨hrest, by omega, by omega⟩ _ _)
        | plus | minus | times | slash | opening => exact .error

/-- The parentheses in the place of a name, and what is between them, are read as its value. -/
theorem factor_parenthesized (he : tree.Evaluates scope n) {room : ℕ}
    (hroom : tree.atoms.length ≤ room) {between : List Token}
    (hb : between.map (·.atom) = tree.atoms) (position closing : ℕ) (rest : List Token) :
    factor scope limit (room + 1)
      (⟨.mark .opening, position⟩ :: (between ++ ⟨.mark .closing, closing⟩ :: rest)) =
        .ok (n, rest) := by
  have hs : Phrase.Stops (⟨.mark .closing, closing⟩ :: rest) (.chain .sum) :=
    ⟨fun t ht => by cases ht; rfl, fun t ht => by cases ht; rfl⟩
  rw [factor_opening, sum_complete (factor_complete room)
    ⟨hb, tree.openFactors_le.trans hroom, he⟩ hs]
  rfl

/-- The name itself is read as its value. -/
theorem factor_bound (hn : InRange n) (room position : ℕ) (rest : List Token) :
    factor (scope.bind name (.int n)) limit (room + 1) (⟨.name name.toList, position⟩ :: rest) =
      .ok (n, rest) := by
  rw [factor]
  simp only [String.ofList_toList, Scope.find?_bind_self, integerOf, checked_eq_ok.mpr ⟨hn, rfl⟩]
  rfl

/-- **A name that is bound to a value is read as what stands for the value.** -/
theorem factor_inlines (he : tree.Evaluates scope n) :
    ∀ room, ReadsInlined name.toList tree.atoms room
      (factor (scope.bind name (.int n)) limit room) (factor scope limit room)
  | 0, _, _, _ => .error
  | room + 1, [], ts', hi => by
    rw [hi.nil]
    exact .error
  | room + 1, ⟨atom, position⟩ :: ts, ts', hi => by
    by_cases hname : atom = .name name.toList
    · subst hname
      obtain ⟨⟨_, position'⟩, between, ⟨_, closing⟩, rest, rfl, rfl, hbetween, rfl, hrest⟩ :=
        hi.cons_self rfl
      have hroom : tree.atoms.length ≤ room := (Nat.le_add_left _ _).trans hrest.fits
      rw [factor_bound he.inRange, factor_parenthesized he hroom hbetween]
      refine .ok ⟨hrest.succ, ?_, ?_⟩
      · simp
      · simp only [List.length_cons, List.length_append]
        omega
    · obtain ⟨⟨atom', position'⟩, rest, rfl, hatom, hrest⟩ := hi.cons_ne hname
      obtain rfl : atom = atom' := hatom.symm
      have ih := factor_inlines he room ts rest hrest
      have here : Leaves name.toList tree.atoms (room + 1) (⟨atom, position⟩ :: ts)
          (⟨atom, position'⟩ :: rest) ts rest := .cons ⟨hrest, le_rfl, le_rfl⟩ _ _
      cases atom with
      | number digits =>
        rw [factor, factor]
        cases readInteger digits with
        | error fault => exact .error
        | ok v => exact .ok here
      | name letters =>
        have hother : String.ofList letters ≠ name := fun h => hname (by rw [← h]; simp)
        rw [factor, factor]
        simp only [Scope.find?_bind_ne scope _ hother]
        cases scope.find? (String.ofList letters) with
        | none => exact .error
        | some value =>
          dsimp only
          cases integerOf (String.ofList letters) value with
          | error fault => exact .error
          | ok v => exact .ok here
      | mark m =>
        cases m with
        | plus => exact ih.mono fun _ _ h => h.cons _ _
        | minus => exact ih.bind fun v _ _ h => .ok (h.cons _ _)
        | opening =>
          rw [factor_opening, factor_opening]
          exact (sum_inlines (factor_inlines he room) ts rest hrest).bind
            fun v _ _ h => h.close v _ _
        | times | slash | closing => exact .error

/-- Tokens have the same values with the name bound as with the tokens inlined. -/
theorem evaluateTokens_inlined (he : tree.Evaluates scope n) {ts ts' : List Token}
    (hi : Inlines name.toList tree.atoms limit.toNat ts ts') (v : Int) :
    evaluateTokens scope limit ts' = .ok v ↔
      evaluateTokens (scope.bind name (.int n)) limit ts = .ok v := by
  rw [evaluateTokens_iff, evaluateTokens_iff]
  have hread : ReadAlike _ (sum (factor (scope.bind name (.int n)) limit limit.toNat) ts)
      (sum (factor scope limit limit.toNat) ts') :=
    sum_inlines (factor_inlines he limit.toNat) ts ts' hi
  revert hread
  generalize sum (factor (scope.bind name (.int n)) limit limit.toNat) ts = x
  generalize sum (factor scope limit limit.toNat) ts' = x'
  rintro (⟨hleaves⟩ | -)
  · rename_i u rest rest'
    have hnil : rest' = [] ↔ rest = [] := by
      constructor
      · rintro rfl
        cases rest with
        | nil => rfl
        | cons t rest =>
          obtain ⟨_, _, h, -⟩ := hleaves.inlines.head
          cases h
      · rintro rfl
        exact hleaves.inlines.nil
    simp [hnil]
  · exact ⟨nofun, nofun⟩

end Factors

/-- **An expression may be written in the place of a name that is bound to its value.** If one
text stands for an integer, then in another one a name that is bound to this integer may be
replaced wherever it occurs by the first text in parentheses, and the outcome is the same: the same
value, or no value at all. The limit must allow as many open factors as both texts have tokens. -/
theorem names_stand_for_values (name : String) {scope : Scope} {limit n : Int}
    {outer inner : String} {ts inside : List Token} (houter : tokenize outer.toList = .ok ts)
    (hinner : tokenize inner.toList = .ok inside)
    (hlimit : ((ts.length + inside.length : ℕ) : Int) ≤ limit)
    (hn : evaluate scope limit inner = .ok n) :
    let text := spaced (inlined name.toList (inside.map (·.atom)) (ts.map (·.atom)))
    (∀ v, evaluate scope limit text = .ok v ↔
      evaluate (scope.bind name (.int n)) limit outer = .ok v) ∧
    ((∃ fault, evaluate scope limit text = .error fault) ↔
      ∃ fault, evaluate (scope.bind name (.int n)) limit outer = .error fault) := by
  intro text
  obtain ⟨read, hread, tree, hatoms, -, he⟩ := evaluate_eq_ok.mp hn
  cases hinner.symm.trans hread
  have hlexemes : ∀ a ∈ inlined name.toList (inside.map (·.atom)) (ts.map (·.atom)), a.IsLexeme :=
    isLexeme_inlined (isLexeme_of_tokenize hinner) (isLexeme_of_tokenize houter)
  obtain ⟨ts', hts', hatoms'⟩ := tokenize_spaced hlexemes
  have hi : Inlines name.toList tree.atoms limit.toNat ts ts' :=
    ⟨hatoms ▸ hatoms', by rw [hatoms, List.length_map]; omega⟩
  have hv : ∀ v, evaluate scope limit text = .ok v ↔
      evaluate (scope.bind name (.int n)) limit outer = .ok v := fun v => by
    rw [evaluate_of_tokenize houter, evaluate_of_tokenize hts']
    exact evaluateTokens_inlined he hi v
  exact ⟨hv, exists_error_iff hv⟩

/-- A sign before the name and a division behind it, with a difference in the place of the
name. -/
theorem names_stand_for_values_slope :
    evaluate [("h", .int 8), ("w", .int 3)] 9 "2 * - ( 1 - h ) / w" = .ok 4 ∧
      ∃ fault, evaluate [("h", .int 8), ("w", .int 3)] 9 "( 1 - h ) ( 1 - h )" = .error fault := by
  have hinner : tokenize "1-h".toList =
      .ok [⟨.number ['1'], 0⟩, ⟨.mark .minus, 1⟩, ⟨.name ['h'], 2⟩] :=
    toOption_eq_some.mp (by decide +kernel)
  have hslope : tokenize "2*-p/w".toList =
      .ok [⟨.number ['2'], 0⟩, ⟨.mark .times, 1⟩, ⟨.mark .minus, 2⟩, ⟨.name ['p'], 3⟩,
        ⟨.mark .slash, 4⟩, ⟨.name ['w'], 5⟩] := toOption_eq_some.mp (by decide +kernel)
  have htwice : tokenize "p p".toList = .ok [⟨.name ['p'], 0⟩, ⟨.name ['p'], 2⟩] :=
    toOption_eq_some.mp (by decide +kernel)
  have hn : evaluate [("h", .int 8), ("w", .int 3)] 9 "1-h" = .ok (-7) :=
    toOption_eq_some.mp (by decide +kernel)
  have hvalue := (names_stand_for_values "p" hslope hinner (by decide) hn).1 4
  have hfault := (names_stand_for_values "p" htwice hinner (by decide) hn).2
  exact ⟨hvalue.mpr (toOption_eq_some.mp (by decide +kernel)),
    hfault.mpr ⟨.unexpectedToken ['p'] 2, by decide +kernel⟩⟩

end Expression
end VoxelBlueprint
