/-
# Reading with an index and a count

The rules take tokens off the front of a list and go down by the room that is left for open
factors. A `Descent` does without either: it has an index into the tokens, which only ever goes
up, and a count of the open factors, which goes up when a factor is opened and down when it is
left, be it with a value or with a fault. What is still to be done with a value is on a stack.

A descent goes on by single moves. It comes to an end from everywhere, with the value or the fault
that the rule of the phrase has for the tokens from the index on (`follows_rule`); and at
every moment the index is within the tokens and the count is that of the open factors, of which
there are never more than one too many (`Sane.next`).

Key definitions: `Expression.Descent`, `Expression.Descent.next`, `Expression.Descent.Sane`,
`Expression.Descent.Arrives`.
Key theorems: `Expression.Descent.Sane.next`, `Expression.Descent.Arrives.bind`,
`Expression.Descent.follows_rule`, `Expression.Descent.descent_well_behaved`.
-/
import Mathlib.Logic.Function.Iterate
import VoxelBlueprint.Proofs.Expression.Phrases

namespace VoxelBlueprint
namespace Expression

/-! ### Moves -/

/-- What is still to be done with the value of what is being read. -/
inductive Pending where
  /-- It is the first operand of a chain. -/
  | operand (l : Level)
  /-- It is the right operand of an operator, the left one of which is `u`. -/
  | link (l : Level) (u : Int) (operation : Operation)
  /-- It stands behind a sign. -/
  | sign (negative : Bool)
  /-- It stands between parentheses, the second of which must come next. -/
  | closing
  /-- It is the value of a factor that was opened and is now left. -/
  | leave

/-- What is done next. -/
inductive Act where
  /-- A phrase is begun. -/
  | begin (phrase : Phrase)
  /-- A factor that was opened looks at its first token. -/
  | look
  /-- A chain with the value `v` so far looks for another operator. -/
  | goOn (l : Level) (v : Int)
  /-- A value is handed on. -/
  | give (v : Int)
  /-- A fault is handed on. -/
  | fail (fault : Fault)

/-- How far a reader has come. -/
structure Descent where
  act : Act
  /-- How many tokens have been taken. -/
  index : ℕ
  /-- The count of the open factors. -/
  depth : ℕ
  /-- What is still to be done, the next part first. -/
  pending : List Pending

/-- What is done with the value or the fault of a computation. -/
def Act.ofExcept : Except Fault Int → Act
  | .ok v => .give v
  | .error fault => .fail fault

namespace Descent

/-- Takes the first token of a factor that was opened. -/
def take (scope : Scope) (s : Descent) : Token → Descent
  | ⟨.mark .plus, _⟩ =>
    { s with act := .begin .factor, index := s.index + 1, pending := .sign false :: s.pending }
  | ⟨.mark .minus, _⟩ =>
    { s with act := .begin .factor, index := s.index + 1, pending := .sign true :: s.pending }
  | ⟨.mark .opening, _⟩ =>
    { s with
      act := .begin (.chain .sum), index := s.index + 1, pending := .closing :: s.pending }
  | ⟨.number digits, _⟩ =>
    { s with act := .ofExcept (readInteger digits), index := s.index + 1 }
  | ⟨.name letters, _⟩ =>
    { s with
      act :=
        match scope.find? (String.ofList letters) with
        | some value => .ofExcept (integerOf (String.ofList letters) value)
        | none => .fail (.unknownVariable (String.ofList letters))
      index := s.index + 1 }
  | ⟨atom, position⟩ =>
    { s with act := .fail (.unexpectedToken atom.text position), index := s.index + 1 }

/-- Hands a value on to what is still to be done with it. -/
def hand (tokens : List Token) (s : Descent) (v : Int) : Descent :=
  match s.pending with
  | [] => s
  | .operand l :: rest => { s with act := .goOn l v, pending := rest }
  | .link l u operation :: rest =>
    match operation u v with
    | .ok w => { s with act := .goOn l w, pending := rest }
    | .error fault => { s with act := .fail fault, pending := rest }
  | .sign negative :: rest => { s with act := .give (signed negative v), pending := rest }
  | .closing :: rest =>
    if tokens[s.index]?.map (·.atom) = some (.mark .closing) then
      { s with act := .give v, index := s.index + 1, pending := rest }
    else { s with act := .fail .unclosed, pending := rest }
  | .leave :: rest => { s with depth := s.depth - 1, pending := rest }

/-- Hands a fault on. Whatever was still to be done is dropped, but open factors are left. -/
def drop (s : Descent) : Descent :=
  match s.pending with
  | [] => s
  | .leave :: rest => { s with depth := s.depth - 1, pending := rest }
  | _ :: rest => { s with pending := rest }

/-- The next move of a reader. One that has nothing left to do stays as it is. -/
def next (scope : Scope) (limit : Int) (tokens : List Token) (s : Descent) : Descent :=
  match s.act with
  | .begin (.chain l) => { s with act := .begin l.operand, pending := .operand l :: s.pending }
  | .begin .factor =>
    if limit < s.depth + 1 then
      { s with act := .fail (.nestedTooDeeply limit), depth := s.depth + 1 }
    else { s with act := .look, depth := s.depth + 1, pending := .leave :: s.pending }
  | .look =>
    match tokens[s.index]? with
    | none => { s with act := .fail .unexpectedEnd }
    | some t => s.take scope t
  | .goOn l v =>
    match tokens[s.index]?.bind fun t => l.operation? t.atom with
    | none => { s with act := .give v }
    | some operation =>
      { s with
        act := .begin l.operand, index := s.index + 1, pending := .link l v operation :: s.pending }
  | .give v => s.hand tokens v
  | .fail _ => s.drop

/-- A reader that is about to begin a phrase. -/
def start (phrase : Phrase) (index depth : ℕ) : Descent :=
  ⟨.begin phrase, index, depth, []⟩

/-! ### What every move keeps -/

/-- How many factors are to be left. -/
def openFactors : List Pending → ℕ
  | [] => 0
  | .leave :: rest => openFactors rest + 1
  | _ :: rest => openFactors rest

/-- The invariant of a reader that began with the count `entry`. While a fault is handed on the
count may be one too high, since a factor for which there is no room is counted but never left. -/
structure Sane (limit : Int) (tokens : List Token) (entry : ℕ) (s : Descent) : Prop where
  index : s.index ≤ tokens.length
  depth : (s.depth : Int) ≤ limit + 1
  balanced : (∀ fault, s.act ≠ .fail fault) →
    s.depth = entry + openFactors s.pending ∧ (s.depth : Int) ≤ limit

namespace Sane

variable {scope : Scope} {limit : Int} {tokens : List Token} {entry : ℕ} {s s' : Descent}

/-- A move that neither opens nor leaves a factor. -/
theorem keep (h : Sane limit tokens entry s) (hact : ∀ fault, s.act ≠ .fail fault)
    (hindex : s'.index ≤ tokens.length) (hdepth : s'.depth = s.depth)
    (hopen : openFactors s'.pending = openFactors s.pending) : Sane limit tokens entry s' := by
  obtain ⟨hcount, hle⟩ := h.balanced hact
  exact ⟨hindex, hdepth ▸ h.depth, fun _ => ⟨by rw [hdepth, hopen, hcount], hdepth ▸ hle⟩⟩

theorem take (h : Sane limit tokens entry s) (hact : s.act = .look) {t : Token}
    (ht : tokens[s.index]? = some t) : Sane limit tokens entry (s.take scope t) := by
  have hact : ∀ fault, s.act ≠ .fail fault := fun fault => by rw [hact]; exact nofun
  have hindex : s.index + 1 ≤ tokens.length := (List.getElem?_eq_some_iff.mp ht).1
  obtain ⟨atom, position⟩ := t
  cases atom with
  | number digits => exact h.keep hact hindex rfl rfl
  | name letters => exact h.keep hact hindex rfl rfl
  | mark m => cases m <;> exact h.keep hact hindex rfl rfl

theorem hand (h : Sane limit tokens entry s) {v : Int} (hact : s.act = .give v) :
    Sane limit tokens entry (s.hand tokens v) := by
  have hact : ∀ fault, s.act ≠ .fail fault := fun fault => by rw [hact]; exact nofun
  obtain ⟨act, index, depth, pending⟩ := s
  match pending with
  | [] => exact h
  | .operand l :: rest => exact h.keep hact h.index rfl rfl
  | .link l u operation :: rest =>
    rw [Descent.hand]
    dsimp only
    split <;> exact h.keep hact h.index rfl rfl
  | .sign negative :: rest => exact h.keep hact h.index rfl rfl
  | .closing :: rest =>
    rw [Descent.hand]
    dsimp only
    split
    · rename_i hclosing
      obtain ⟨t, ht, -⟩ := Option.map_eq_some_iff.mp hclosing
      exact h.keep hact (List.getElem?_eq_some_iff.mp ht).1 rfl rfl
    · exact h.keep hact h.index rfl rfl
  | .leave :: rest =>
    obtain ⟨hcount, hle⟩ := h.balanced hact
    have hcount : depth = entry + (openFactors rest + 1) := hcount
    have hle : (depth : Int) ≤ limit := hle
    refine ⟨h.index, ?_, fun _ => ⟨?_, ?_⟩⟩ <;> simp only [Descent.hand] <;> omega

theorem drop (h : Sane limit tokens entry s) {fault : Fault} (hact : s.act = .fail fault) :
    Sane limit tokens entry s.drop := by
  obtain ⟨act, index, depth, pending⟩ := s
  obtain rfl : act = .fail fault := hact
  have hdepth : (depth : Int) ≤ limit + 1 := h.depth
  match pending with
  | [] => exact h
  | .operand _ :: _ | .link _ _ _ :: _ | .sign _ :: _ | .closing :: _ =>
    exact ⟨h.index, h.depth, fun hne => absurd rfl (hne fault)⟩
  | .leave :: rest =>
    refine ⟨h.index, ?_, fun hne => absurd rfl (hne fault)⟩
    simp only [Descent.drop]
    omega

/-- **Every move keeps the invariant.** -/
theorem next (h : Sane limit tokens entry s) :
    Sane limit tokens entry (s.next scope limit tokens) := by
  rw [Descent.next]
  split
  · rename_i l hact
    exact h.keep (fun fault => by rw [hact]; exact nofun) h.index rfl rfl
  · rename_i hact
    obtain ⟨hcount, hle⟩ := h.balanced (fun fault => by rw [hact]; exact nofun)
    split
    · refine ⟨h.index, ?_, fun hne => absurd rfl (hne _)⟩
      show ((s.depth + 1 : ℕ) : Int) ≤ limit + 1
      omega
    · refine ⟨h.index, ?_, fun _ => ⟨?_, ?_⟩⟩ <;> simp only [openFactors] <;> omega
  · rename_i hact
    split
    · exact h.keep (fun fault => by rw [hact]; exact nofun) h.index rfl rfl
    · rename_i t ht
      exact h.take hact ht
  · rename_i l v hact
    have hact : ∀ fault, s.act ≠ .fail fault := fun fault => by rw [hact]; exact nofun
    split
    · exact h.keep hact h.index rfl rfl
    · rename_i operation ho
      obtain ⟨t, ht, -⟩ := Option.bind_eq_some_iff.mp ho
      exact h.keep hact (List.getElem?_eq_some_iff.mp ht).1 rfl rfl
  · rename_i v hact
    exact h.hand hact
  · rename_i fault hact
    exact h.drop hact

end Sane

/-! ### Where a reader arrives -/

section Arriving

variable (scope : Scope) (limit : Int) (tokens : List Token)

/-- Whether a reader comes from one state to another. -/
def Leads (s s' : Descent) : Prop :=
  ∃ n, (next scope limit tokens)^[n] s = s'

/-- Whether a reader arrives where a rule ends: at the tokens that the rule leaves with its value,
or with its fault. The count is `depth` where a value is handed on. -/
def Arrives (s : Descent) (depth : ℕ) (pending : List Pending) :
    Except Fault (Int × List Token) → Prop
  | .ok (v, rest) => ∃ index, rest = tokens.drop index ∧
    Leads scope limit tokens s ⟨.give v, index, depth, pending⟩
  | .error fault => ∃ index depth', Leads scope limit tokens s ⟨.fail fault, index, depth', pending⟩

end Arriving

section Moving

variable {scope : Scope} {limit : Int} {tokens : List Token} {s s' : Descent}
  {index depth depth' room : ℕ} {pending : List Pending} {task : Pending}
  {result : Except Fault (Int × List Token)}

theorem Leads.trans {s₁ s₂ s₃ : Descent} : Leads scope limit tokens s₁ s₂ →
    Leads scope limit tokens s₂ s₃ → Leads scope limit tokens s₁ s₃ := by
  rintro ⟨n, rfl⟩ ⟨m, rfl⟩
  exact ⟨m + n, Function.iterate_add_apply _ m n s₁⟩

/-- One move. -/
theorem Leads.one (h : next scope limit tokens s = s') : Leads scope limit tokens s s' :=
  ⟨1, h⟩

theorem Arrives.of_leads (h : Leads scope limit tokens s s')
    (ha : Arrives scope limit tokens s' depth pending result) :
    Arrives scope limit tokens s depth pending result := by
  cases result with
  | ok value =>
    obtain ⟨index, hrest, hl⟩ := ha
    exact ⟨index, hrest, h.trans hl⟩
  | error fault =>
    obtain ⟨index, depth', hl⟩ := ha
    exact ⟨index, depth', h.trans hl⟩

/-- One move, and what follows it. -/
theorem Arrives.of_next (h : next scope limit tokens s = s')
    (ha : Arrives scope limit tokens s' depth pending result) :
    Arrives scope limit tokens s depth pending result :=
  ha.of_leads (.one h)

theorem Arrives.give (v : Int) (index : ℕ) :
    Arrives scope limit tokens ⟨.give v, index, depth, pending⟩ depth pending
      (.ok (v, tokens.drop index)) :=
  ⟨index, rfl, 0, rfl⟩

theorem Arrives.fail (fault : Fault) (index depth depth' : ℕ) :
    Arrives scope limit tokens ⟨.fail fault, index, depth, pending⟩ depth' pending
      (.error fault) :=
  ⟨index, depth, 0, rfl⟩

/-- A fault is not kept by what was still to be done. -/
theorem exists_drop (scope : Scope) (limit : Int) (tokens : List Token) (fault : Fault)
    (index depth : ℕ) (task : Pending) (pending : List Pending) :
    ∃ depth', next scope limit tokens ⟨.fail fault, index, depth, task :: pending⟩ =
      ⟨.fail fault, index, depth', pending⟩ := by
  cases task <;> exact ⟨_, rfl⟩

/-- **What is still to be done is what a rule does next.** If a reader arrives where the first of
two rules ends, and from there, with the value handed on to the task, where the second one ends,
then it arrives where both of them end. -/
theorem Arrives.bind {f : Int × List Token → Except Fault (Int × List Token)}
    (h : Arrives scope limit tokens s depth (task :: pending) result)
    (hf : ∀ v index, result = .ok (v, tokens.drop index) →
      Arrives scope limit tokens ⟨.give v, index, depth, task :: pending⟩ depth' pending
        (f (v, tokens.drop index))) :
    Arrives scope limit tokens s depth' pending (result >>= f) := by
  cases result with
  | ok value =>
    obtain ⟨v, rest⟩ := value
    obtain ⟨index, rfl, hl⟩ := h
    exact (hf v index rfl).of_leads hl
  | error fault =>
    obtain ⟨index, e, hl⟩ := h
    obtain ⟨e', hdrop⟩ := exists_drop scope limit tokens fault index e task pending
    exact ((Arrives.fail fault index e' depth').of_next hdrop).of_leads hl

/-! ### Rules and readers -/

/-- Whether a reader that begins a phrase arrives where the rule of the phrase ends, as long as
the count leaves the room that the rule has. -/
def Follows (scope : Scope) (limit : Int) (tokens : List Token) (room : ℕ) (phrase : Phrase)
    (rule : Rule) : Prop :=
  ∀ (index depth : ℕ) (pending : List Pending), (depth : Int) + room = limit →
    Arrives scope limit tokens ⟨.begin phrase, index, depth, pending⟩ depth pending
      (rule (tokens.drop index))

theorem getElem?_of_drop_eq_cons {t : Token} {rest : List Token}
    (h : tokens.drop index = t :: rest) :
    tokens[index]? = some t ∧ tokens.drop (index + 1) = rest := by
  have hhead := congrArg List.head? h
  have htail := congrArg List.tail h
  rw [List.head?_drop] at hhead
  rw [List.tail_drop] at htail
  exact ⟨hhead, htail⟩

/-- A chain goes no further where none of its operators comes. -/
theorem arrives_goOn_stop {l : Level} {v : Int} (hs : l.Stops (tokens.drop index)) :
    Arrives scope limit tokens ⟨.goOn l v, index, depth, pending⟩ depth pending
      (.ok (v, tokens.drop index)) := by
  refine (Arrives.give v index).of_next ?_
  have hnone : (tokens[index]?.bind fun t => l.operation? t.atom) = none := by
    rw [← List.head?_drop]
    cases hd : (tokens.drop index).head? with
    | none => rfl
    | some t => exact hs t hd
  rw [next]
  simp only [hnone]

/-- A chain goes on with an operator of its own. -/
theorem next_goOn {l : Level} {v : Int} {t : Token} {operation : Operation}
    (ht : tokens[index]? = some t) (ho : l.operation? t.atom = some operation) :
    next scope limit tokens ⟨.goOn l v, index, depth, pending⟩ =
      ⟨.begin l.operand, index + 1, depth, .link l v operation :: pending⟩ := by
  rw [next]
  simp only [ht, Option.bind_some, ho]

/-- A chain goes on with every operator, if it has as many links as there are tokens. -/
theorem arrives_chainFrom {l : Level} {operand : Rule} (h : Delimits l.operand operand)
    (hf : Follows scope limit tokens room l.operand operand)
    (hroom : (depth : Int) + room = limit) (links : ℕ) :
    ∀ (index : ℕ) (v : Int), (tokens.drop index).length ≤ links →
      Arrives scope limit tokens ⟨.goOn l v, index, depth, pending⟩ depth pending
        (chainFrom l.operation? operand links v (tokens.drop index)) := by
  induction links with
  | zero =>
    intro index v hl
    have hs : l.Stops (tokens.drop index) := by
      rw [List.length_eq_zero_iff.mp (Nat.le_zero.mp hl)]
      exact nofun
    exact arrives_goOn_stop hs
  | succ links ih =>
    intro index v hl
    by_cases hs : l.Stops (tokens.drop index)
    · rw [chainFrom_stops hs]
      exact arrives_goOn_stop hs
    · obtain ⟨t, ht, ho⟩ : ∃ t, (tokens.drop index).head? = some t ∧
          l.operation? t.atom ≠ none := by simpa [Level.Stops] using hs
      obtain ⟨operation, ho⟩ := Option.ne_none_iff_exists'.mp ho
      obtain ⟨rest, hd⟩ := List.head?_eq_some_iff.mp ht
      obtain ⟨ht, hrest⟩ := getElem?_of_drop_eq_cons hd
      rw [hd, List.length_cons, ← hrest] at hl
      rw [hd, ← hrest, chainFrom, ho]
      refine ((hf (index + 1) depth _ hroom).bind fun w middle hw => ?_).of_next (next_goOn ht ho)
      have hlt := h.length_lt hw
      show Arrives _ _ _ _ _ _ (operation v w >>= fun u =>
        chainFrom l.operation? operand links u (tokens.drop middle))
      cases hu : operation v w with
      | error fault =>
        refine (Arrives.fail fault middle depth depth).of_next ?_
        simp only [next, hand, hu]
      | ok u =>
        refine (ih middle u (by omega)).of_next ?_
        simp only [next, hand, hu]

theorem follows_chain {l : Level} {operand : Rule} (h : Delimits l.operand operand)
    (hf : Follows scope limit tokens room l.operand operand) :
    Follows scope limit tokens room (.chain l) (chain l.operation? operand) := by
  intro index depth pending hroom
  refine ((hf index depth _ hroom).bind fun v middle _ => ?_).of_next rfl
  exact (arrives_chainFrom h hf hroom _ middle v le_rfl).of_next rfl

theorem follows_product
    (hf : Follows scope limit tokens room .factor (factor scope limit room)) :
    Follows scope limit tokens room (.chain .product) (product (factor scope limit room)) :=
  follows_chain (l := .product) (factor_delimits room) hf

theorem follows_sum (hf : Follows scope limit tokens room .factor (factor scope limit room)) :
    Follows scope limit tokens room (.chain .sum) (sum (factor scope limit room)) :=
  follows_chain (l := .sum) (rule_delimits room (.chain .product)) (follows_product hf)

theorem next_look {t : Token} (ht : tokens[index]? = some t) :
    next scope limit tokens ⟨.look, index, depth, pending⟩ =
      take scope ⟨.look, index, depth, pending⟩ t := by
  rw [next]
  simp only [ht]

theorem arrives_ofExcept (read : Except Fault Int) (index : ℕ) :
    Arrives scope limit tokens ⟨.ofExcept read, index, depth, pending⟩ depth pending
      (read >>= fun v => pure (v, tokens.drop index)) := by
  cases read with
  | ok v => exact Arrives.give v index
  | error fault => exact Arrives.fail fault index depth depth

/-- After a sum between parentheses the second parenthesis must come. -/
theorem arrives_closing (v : Int) (index : ℕ) :
    Arrives scope limit tokens ⟨.give v, index, depth, .closing :: pending⟩ depth pending
      (match tokens.drop index with
        | ⟨.mark .closing, _⟩ :: rest => .ok (v, rest)
        | _ => .error .unclosed) := by
  by_cases hc : tokens[index]?.map (·.atom) = some (.mark .closing)
  · obtain ⟨⟨atom, position⟩, ht, rfl⟩ := Option.map_eq_some_iff.mp hc
    obtain ⟨rest, hd⟩ := List.head?_eq_some_iff.mp (List.head?_drop.trans ht)
    obtain ⟨-, hrest⟩ := getElem?_of_drop_eq_cons hd
    rw [hd, ← hrest]
    refine (Arrives.give v (index + 1)).of_next ?_
    simp only [next, hand, hc, if_true]
  · have hfail : next scope limit tokens ⟨.give v, index, depth, .closing :: pending⟩ =
        ⟨.fail .unclosed, index, depth, pending⟩ := by
      simp only [next, hand, hc, if_false]
    split
    · rename_i position rest hd
      obtain ⟨ht, -⟩ := getElem?_of_drop_eq_cons hd
      exact absurd (by rw [ht]; rfl) hc
    · exact (Arrives.fail .unclosed index depth depth).of_next hfail

/-- A factor that was opened is read as its rule says. -/
theorem arrives_look (hroom : (depth : Int) + room = limit)
    (hf : Follows scope limit tokens room .factor (factor scope limit room)) (index : ℕ) :
    Arrives scope limit tokens ⟨.look, index, depth, pending⟩ depth pending
      (factor scope limit (room + 1) (tokens.drop index)) := by
  cases hd : tokens.drop index with
  | nil =>
    refine (Arrives.fail .unexpectedEnd index depth depth).of_next ?_
    rw [next, ← List.head?_drop, hd]
    rfl
  | cons t rest =>
    obtain ⟨ht, rfl⟩ := getElem?_of_drop_eq_cons hd
    refine Arrives.of_next (next_look ht) ?_
    obtain ⟨atom, position⟩ := t
    match atom with
    | .number digits => exact arrives_ofExcept (readInteger digits) (index + 1)
    | .name letters =>
      rw [factor, take]
      dsimp only
      cases scope.find? (String.ofList letters) with
      | none => exact Arrives.fail _ (index + 1) depth depth
      | some value =>
        exact arrives_ofExcept (integerOf (String.ofList letters) value) (index + 1)
    | .mark .plus =>
      have harrives := (hf (index + 1) depth (.sign false :: pending) hroom).bind (f := pure)
        fun v middle _ => (Arrives.give v middle).of_next rfl
      rwa [bind_pure] at harrives
    | .mark .minus =>
      exact (hf (index + 1) depth (.sign true :: pending) hroom).bind
        fun v middle _ => (Arrives.give (-v) middle).of_next rfl
    | .mark .opening =>
      exact (follows_sum hf (index + 1) depth (.closing :: pending) hroom).bind
        fun v middle _ => arrives_closing v middle
    | .mark .times | .mark .slash | .mark .closing =>
      exact Arrives.fail _ (index + 1) depth depth

/-- **A reader of factors arrives where the rule for them ends**, and the count is what it was. -/
theorem follows_factor : ∀ room : ℕ,
    Follows scope limit tokens room .factor (factor scope limit room)
  | 0, index, depth, pending, hroom => by
    have hover : limit < (depth : Int) + 1 := by omega
    refine (Arrives.fail (.nestedTooDeeply limit) index (depth + 1) depth).of_next ?_
    rw [next]
    exact if_pos hover
  | room + 1, index, depth, pending, hroom => by
    have hspace : ¬ limit < (depth : Int) + 1 := by omega
    have hopen : next scope limit tokens ⟨.begin .factor, index, depth, pending⟩ =
        ⟨.look, index, depth + 1, .leave :: pending⟩ := by
      rw [next]
      exact if_neg hspace
    have hroom : ((depth + 1 : ℕ) : Int) + room = limit := by omega
    have hlook : Arrives scope limit tokens ⟨.look, index, depth + 1, .leave :: pending⟩ (depth + 1)
        (.leave :: pending) (factor scope limit (room + 1) (tokens.drop index)) :=
      arrives_look hroom (follows_factor room) index
    have hleave := (hlook.bind (f := pure) fun v middle _ =>
      (Arrives.give v middle).of_next rfl).of_next hopen
    rwa [bind_pure] at hleave

/-- **A reader arrives where the rule of its phrase ends.** -/
theorem follows_rule (room : ℕ) : ∀ phrase : Phrase,
    Follows scope limit tokens room phrase (phrase.rule scope limit room)
  | .chain .sum => follows_sum (follows_factor room)
  | .chain .product => follows_product (follows_factor room)
  | .factor => follows_factor room

end Moving

/-! ### The end of a reader -/

theorem Sane.iterate {scope : Scope} {limit : Int} {tokens : List Token} {entry : ℕ} {s : Descent}
    (h : Sane limit tokens entry s) (n : ℕ) :
    Sane limit tokens entry ((Descent.next scope limit tokens)^[n] s) := by
  induction n with
  | zero => exact h
  | succ n ih =>
    rw [Function.iterate_succ_apply']
    exact ih.next

/-- What holds where a reader has come to its end with a value. -/
structure Read (tokens : List Token) (phrase : Phrase) (index depth : ℕ) (v : Int)
    (final : Descent) : Prop where
  act : final.act = .give v
  pending : final.pending = []
  index_lt : index < final.index
  index_le : final.index ≤ tokens.length
  depth : final.depth = depth
  derived : ∃ tree : Tree phrase,
    tree.atoms = ((tokens.drop index).take (final.index - index)).map (·.atom)
  ends : ∀ t, tokens[final.index]? = some t → ∀ m ∈ phrase.marks, t.atom ≠ .mark m

/-- A reader that has come to where a rule ends has gone over a whole phrase. -/
theorem Read.of_rule {scope : Scope} {limit : Int} {tokens : List Token} {room index final : ℕ}
    {phrase : Phrase} {v : Int}
    (h : phrase.rule scope limit room (tokens.drop index) = .ok (v, tokens.drop final))
    (hle : final ≤ tokens.length) (depth : ℕ) :
    Read tokens phrase index depth v ⟨.give v, final, depth, []⟩ := by
  obtain ⟨front, tree, hfront, ha, hs⟩ := rule_delimits room phrase h
  have hlt := Delimits.length_lt (rule_delimits room phrase) h
  rw [List.length_drop, List.length_drop] at hlt
  have hlength := congrArg List.length hfront
  rw [List.length_append, List.length_drop, List.length_drop] at hlength
  have hahead : index < final := by omega
  have htaken : front.length = final - index := by omega
  refine ⟨rfl, rfl, hahead, hle, rfl, ⟨tree, ?_⟩, fun t ht => ?_⟩
  · rw [hfront, List.take_left' htaken, ha]
  · exact hs.not_mark (List.head?_drop.trans ht)

/-- **The state of a reader is well-behaved.** From wherever it begins, a reader comes to an end,
with the value or the fault of the rule for the phrase that it reads. At a value it has gone on
over a whole phrase, and the count is what it was; and the count is never more than one above the
limit. -/
theorem descent_well_behaved (scope : Scope) {limit : Int} {tokens : List Token}
    {index depth : ℕ} (hindex : index ≤ tokens.length) (hdepth : (depth : Int) ≤ limit)
    (phrase : Phrase) :
    (∀ n, (((next scope limit tokens)^[n] (start phrase index depth)).depth : Int) ≤ limit + 1) ∧
      ∃ n final, (next scope limit tokens)^[n] (start phrase index depth) = final ∧
        next scope limit tokens final = final ∧
        match phrase.rule scope limit (limit - depth).toNat (tokens.drop index) with
        | .ok (v, rest) => rest = tokens.drop final.index ∧
          Read tokens phrase index depth v final
        | .error fault => final.act = .fail fault ∧ final.pending = [] := by
  have hstart : Sane limit tokens depth (start phrase index depth) :=
    ⟨hindex, by simp only [start]; omega, fun _ => ⟨rfl, hdepth⟩⟩
  refine ⟨fun n => (hstart.iterate n).depth, ?_⟩
  have hroom : (depth : Int) + (limit - depth).toNat = limit := by omega
  have harrives : Arrives scope limit tokens (start phrase index depth) depth []
      (phrase.rule scope limit (limit - depth).toNat (tokens.drop index)) :=
    follows_rule _ phrase index depth [] hroom
  cases hr : phrase.rule scope limit (limit - depth).toNat (tokens.drop index) with
  | error fault =>
    rw [hr] at harrives
    obtain ⟨final, e, n, hn⟩ := harrives
    exact ⟨n, _, hn, rfl, rfl, rfl⟩
  | ok value =>
    obtain ⟨v, rest⟩ := value
    rw [hr] at harrives
    obtain ⟨final, rfl, n, hn⟩ := harrives
    have hle : final ≤ tokens.length :=
      (congrArg Descent.index hn).ge.trans (hstart.iterate n).index
    exact ⟨n, _, hn, rfl, rfl, .of_rule hr hle depth⟩

/-- The tokens of `7*(x-2)`. -/
def sevenTimes : List Token :=
  [⟨.number ['7'], 0⟩, ⟨.mark .times, 1⟩, ⟨.mark .opening, 2⟩, ⟨.name ['x'], 3⟩,
    ⟨.mark .minus, 4⟩, ⟨.number ['2'], 5⟩, ⟨.mark .closing, 6⟩]

/-- In `7*(x-2)` the factor behind the operator is read with one factor open around it. -/
theorem descent_well_behaved_sevenTimes :
    2 ≤ sevenTimes.length ∧ ((1 : ℕ) : Int) ≤ 3 ∧
      (∀ n, (((next [("x", .int 5)] 3 sevenTimes)^[n] (start .factor 2 1)).depth : Int) ≤ 4) ∧
      ∃ n final, (next [("x", .int 5)] 3 sevenTimes)^[n] (start .factor 2 1) = final ∧
        Read sevenTimes .factor 2 1 3 final ∧ final.index = 7 := by
  have hindex : 2 ≤ sevenTimes.length := by decide
  have hdepth : ((1 : ℕ) : Int) ≤ 3 := by decide
  have hdescent := descent_well_behaved [("x", .int 5)] hindex hdepth .factor
  have hr : Phrase.rule [("x", .int 5)] 3 (3 - ((1 : ℕ) : Int)).toNat .factor (sevenTimes.drop 2) =
      .ok (3, []) := by decide +kernel
  rw [hr] at hdescent
  obtain ⟨hmoments, n, final, hn, -, hrest, hread⟩ := hdescent
  refine ⟨hindex, hdepth, hmoments, n, final, hn, hread, ?_⟩
  exact Nat.le_antisymm hread.index_le (List.drop_eq_nil_iff.mp hrest.symm)

end Descent
end Expression
end VoxelBlueprint
