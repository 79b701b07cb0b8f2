/-
# Reading along the grammar

The rules that read an expression and compute its value at the same time do what the
grammar says. What a rule reads is derived by a tree that stands for the value (`Sound`);
and tokens that have such a tree are read by the rule, if what follows them is not an
operator of the chain (`Complete`). Both are shown for a chain from its operands, and for
factors by going down the room that is left for open factors.

Key definitions: `Expression.Reads`, `Expression.Sound`, `Expression.Complete`,
`Expression.Phrase.Stops`.
Key theorems: `Expression.chain_sound`, `Expression.factor_sound`, `Expression.chain_complete`,
`Expression.factor_complete`, `Expression.evaluate_iff_denotes`.
-/
import Mathlib.Order.MinMax
import Mathlib.Order.Nat
import VoxelBlueprint.Proofs.Effects
import VoxelBlueprint.Proofs.Expression.Grammar

namespace VoxelBlueprint
namespace Expression

open Effects Text

/-! ### Tokens -/

/-- Whether the digits of a number are digits, of which there is at least one. -/
def Atom.Proper : Atom → Prop
  | .number digits => digits ≠ [] ∧ ∀ c ∈ digits, isDigit c = true
  | _ => True

theorem proper_tokenizeFrom {position : ℕ} {text : List Char} {tokens : List Token}
    (h : tokenizeFrom position text = .ok tokens) : ∀ t ∈ tokens, t.atom.Proper := by
  induction position, text using tokenizeFrom.induct generalizing tokens with
  | case1 =>
    rw [tokenizeFrom] at h
    cases h
    exact fun _ ht => absurd ht List.not_mem_nil
  | case2 position c rest hb ih =>
    rw [tokenizeFrom, if_pos hb] at h
    exact ih h
  | case3 position c rest hb hd digits =>
    rename_i ih
    rw [tokenizeFrom, if_neg hb, if_pos hd] at h
    obtain ⟨tokens', ht, h⟩ := bind_eq_ok h
    cases h
    have ha : ∀ x ∈ digits, isDigit x = true :=
      List.forall_mem_cons.mpr ⟨hd, List.all_eq_true.mp List.all_takeWhile⟩
    exact List.forall_mem_cons.mpr ⟨⟨List.cons_ne_nil _ _, ha⟩, ih ht⟩
  | case4 position c rest hb hd hn letters =>
    rename_i ih
    rw [tokenizeFrom, if_neg hb, if_neg hd, if_pos hn] at h
    obtain ⟨tokens', ht, h⟩ := bind_eq_ok h
    cases h
    exact List.forall_mem_cons.mpr ⟨trivial, ih ht⟩
  | case5 position c rest hb hd hn m hm ih =>
    rw [tokenizeFrom, if_neg hb, if_neg hd, if_neg hn, hm] at h
    obtain ⟨tokens', ht, h⟩ := bind_eq_ok h
    cases h
    exact List.forall_mem_cons.mpr ⟨trivial, ih ht⟩
  | case6 position c rest hb hd hn hm =>
    rw [tokenizeFrom, if_neg hb, if_neg hd, if_neg hn, hm] at h
    cases h

/-! ### Rules and trees -/

/-- Whether tokens are derived by a tree of which at most `room` factors are open at once and
which stands for an integer. -/
structure Reads (scope : Scope) (room : ℕ) {phrase : Phrase} (tokens : List Token)
    (tree : Tree phrase) (v : Int) : Prop where
  atoms : tokens.map (·.atom) = tree.atoms
  openFactors : tree.openFactors ≤ room
  evaluates : tree.Evaluates scope v

/-- Whether everything that a rule reads is derived. -/
def Sound (scope : Scope) (room : ℕ) (phrase : Phrase) (rule : Rule) : Prop :=
  ∀ {tokens rest : List Token} {v : Int}, (∀ t ∈ tokens, t.atom.Proper) →
    rule tokens = .ok (v, rest) →
    ∃ (front : List Token) (tree : Tree phrase), tokens = front ++ rest ∧
      Reads scope room front tree v

/-- Whether no operator of the chain comes next. -/
def Level.Stops (l : Level) (rest : List Token) : Prop :=
  ∀ t, rest.head? = some t → l.operation? t.atom = none

/-- Whether what comes next cannot belong to a phrase. -/
def Phrase.Stops (rest : List Token) : Phrase → Prop
  | .chain .sum => Level.Stops .sum rest ∧ Level.Stops .product rest
  | .chain .product => Level.Stops .product rest
  | .factor => True

/-- Whether a rule reads everything that is derived. -/
def Complete (scope : Scope) (room : ℕ) (phrase : Phrase) (rule : Rule) : Prop :=
  ∀ {tokens rest : List Token} {tree : Tree phrase} {v : Int}, Reads scope room tokens tree v →
    phrase.Stops rest → rule (tokens ++ rest) = .ok (v, rest)

/-! ### Chains -/

section Chains

variable {scope : Scope} {room : ℕ} {l : Level} {operand : Rule}

theorem chainFrom_sound (h : Sound scope room l.operand operand) :
    ∀ (links : ℕ) {front tokens rest : List Token} {tree : Tree (.chain l)} {u v : Int},
      (∀ t ∈ tokens, t.atom.Proper) → Reads scope room front tree u →
      chainFrom l.operation? operand links u tokens = .ok (v, rest) →
      ∃ (front' : List Token) (tree' : Tree (.chain l)), front ++ tokens = front' ++ rest ∧
        Reads scope room front' tree' v
  | 0, front, _, _, tree, _, _, _, hr, hc => by
    cases hc
    exact ⟨front, tree, rfl, hr⟩
  | _ + 1, front, [], _, tree, _, _, _, hr, hc => by
    cases hc
    exact ⟨front, tree, rfl, hr⟩
  | links + 1, front, t :: tokens, rest, tree, u, v, hp, hr, hc => by
    rw [chainFrom] at hc
    cases ho : l.operation? t.atom with
    | none =>
      rw [ho] at hc
      cases hc
      exact ⟨front, tree, rfl, hr⟩
    | some operation =>
      rw [ho] at hc
      obtain ⟨⟨w, middle⟩, hw, hc₁⟩ := bind_eq_ok hc
      obtain ⟨u', hu, hc₂⟩ := bind_eq_ok hc₁
      obtain ⟨o, hm, rfl⟩ := operation?_eq_some ho
      obtain ⟨-, hp⟩ := List.forall_mem_cons.mp hp
      obtain ⟨front', tree', rfl, hr'⟩ := h hp hw
      have hlink : Reads scope room (front ++ t :: front') (.link tree o tree') u' := by
        refine ⟨?_, max_le hr.openFactors hr'.openFactors, ?_⟩
        · rw [List.map_append, List.map_cons, hr.atoms, hr'.atoms, hm]
          rfl
        · exact .link hr.evaluates hr'.evaluates ((Operator.operation_iff o).mp hu)
      obtain ⟨front'', tree'', ha, hr''⟩ :=
        chainFrom_sound h links (fun x hx => hp x (List.mem_append_right _ hx)) hlink hc₂
      exact ⟨front'', tree'', by rw [← ha]; simp, hr''⟩

theorem chain_sound (h : Sound scope room l.operand operand) :
    Sound scope room (.chain l) (chain l.operation? operand) := by
  intro tokens rest v hp hc
  obtain ⟨⟨u, middle⟩, hu, hc₁⟩ := bind_eq_ok hc
  obtain ⟨front, tree, rfl, hr⟩ := h hp hu
  have hs : Reads scope room front (.single tree) u :=
    ⟨hr.atoms, hr.openFactors, .single hr.evaluates⟩
  exact chainFrom_sound h middle.length (fun x hx => hp x (List.mem_append_right _ hx)) hs hc₁

/-- The tokens of a chain with a last operand: those of the rest of the chain, an operator, and
those of the operand. -/
theorem Reads.of_link {tokens : List Token} {c : Tree (.chain l)} {o : Operator l}
    {e : Tree l.operand} {v : Int} (h : Reads scope room tokens (.link c o e) v) :
    ∃ (front back : List Token) (t : Token) (u w : Int), tokens = front ++ t :: back ∧
      t.atom = .mark o.mark ∧ Reads scope room front c u ∧ Reads scope room back e w ∧
      o.Gives u w v := by
  obtain ⟨ha, ho, he⟩ := h
  obtain ⟨front, link, rfl, hf, hl⟩ := List.map_eq_append_iff.mp ha
  obtain ⟨t, back, rfl, ht, hb⟩ := List.map_eq_cons_iff.mp hl
  cases he with
  | link hc he hg =>
    exact ⟨front, back, t, _, _, rfl, ht, ⟨hf, (le_max_left _ _).trans ho, hc⟩,
      ⟨hb, (le_max_right _ _).trans ho, he⟩, hg⟩

/-- An operator of a chain cannot belong to an operand of it. -/
theorem stops_operand {o : Operator l} {t : Token} (ht : t.atom = .mark o.mark)
    (rest : List Token) : l.operand.Stops (t :: rest) := by
  cases o with
  | plus | minus =>
    intro x hx
    cases hx
    rw [ht]
    rfl
  | times | slash => trivial

/-- A derived chain is read up to its end, where the rule may still go on. -/
theorem chain_reads (h : Complete scope room l.operand operand) :
    ∀ {tree : Tree (.chain l)} {tokens : List Token} {v : Int}, Reads scope room tokens tree v →
      ∀ rest, l.operand.Stops rest → ∃ links ≥ rest.length,
        chain l.operation? operand (tokens ++ rest) =
          chainFrom l.operation? operand links v rest
  | .single e, tokens, v, hr, rest, hs => by
    obtain ⟨ha, ho, he⟩ := hr
    cases he with
    | single he =>
      refine ⟨rest.length, le_rfl, ?_⟩
      rw [chain, h ⟨ha, ho, he⟩ hs]
      rfl
  | .link c o e, tokens, v, hr, rest, hs => by
    obtain ⟨front, back, t, u, w, rfl, ht, hc, he, hg⟩ := hr.of_link
    obtain ⟨links, hl, hc⟩ := chain_reads h hc (t :: (back ++ rest)) (stops_operand ht _)
    obtain ⟨links, rfl⟩ : ∃ n, links = n + 1 := ⟨links - 1, by simp at hl; omega⟩
    refine ⟨links, by simp at hl; omega, ?_⟩
    rw [List.append_assoc, List.cons_append, hc, chainFrom, ht, operation?_mark]
    simp only [h he hs]
    show (do let v ← o.operation u w; _) = _
    rw [(Operator.operation_iff o).mpr hg]
    rfl

theorem chainFrom_stops {rest : List Token} (hs : l.Stops rest) (links : ℕ) (v : Int) :
    chainFrom l.operation? operand links v rest = .ok (v, rest) := by
  cases links with
  | zero => rfl
  | succ links =>
    cases rest with
    | nil => rfl
    | cons t rest => rw [chainFrom, hs t rfl]

theorem chain_complete (h : Complete scope room l.operand operand) :
    Complete scope room (.chain l) (chain l.operation? operand) := by
  intro tokens rest tree v hr hs
  have hl : l.Stops rest ∧ l.operand.Stops rest := by
    cases l with
    | sum => exact hs
    | product => exact ⟨hs, trivial⟩
  obtain ⟨links, -, hc⟩ := chain_reads h hr rest hl.2
  rw [hc, chainFrom_stops hl.1]

end Chains

/-! ### Factors -/

section Factors

variable {scope : Scope} {limit : Int}

theorem sum_sound {room : ℕ} {rule : Rule} (h : Sound scope room .factor rule) :
    Sound scope room (.chain .sum) (sum rule) :=
  chain_sound (l := .sum) (chain_sound (l := .product) h)

theorem sum_complete {room : ℕ} {rule : Rule} (h : Complete scope room .factor rule) :
    Complete scope room (.chain .sum) (sum rule) :=
  chain_complete (l := .sum) (chain_complete (l := .product) h)

/-- Whatever is read as a factor is one. -/
theorem factor_sound : ∀ room : ℕ, Sound scope room .factor (factor scope limit room)
  | 0, _, _, _, _, h => by cases h
  | _ + 1, [], _, _, _, h => by cases h
  | room + 1, ⟨.number digits, position⟩ :: tokens, rest, v, hp, h => by
    obtain ⟨hne, hd⟩ := hp _ List.mem_cons_self
    obtain ⟨u, hu, h₁⟩ := bind_eq_ok h
    cases h₁
    exact ⟨[⟨.number digits, position⟩], .number digits, rfl, rfl, Nat.succ_pos room,
      .number (writes_of_readInteger hne hd hu)⟩
  | room + 1, ⟨.name letters, position⟩ :: tokens, rest, v, _, h => by
    rw [factor] at h
    split at h
    · rename_i value hf
      obtain ⟨u, hu, h₁⟩ := bind_eq_ok h
      cases h₁
      exact ⟨[⟨.name letters, position⟩], .name letters, rfl, rfl, Nat.succ_pos room,
        .name hf (integerOf_iff.mp hu)⟩
    · cases h
  | room + 1, ⟨.mark .plus, position⟩ :: tokens, rest, v, hp, h => by
    obtain ⟨front, tree, rfl, hr⟩ := factor_sound room (List.forall_mem_cons.mp hp).2 h
    exact ⟨⟨.mark .plus, position⟩ :: front, .signed false tree, rfl,
      congrArg _ hr.atoms, Nat.succ_le_succ hr.openFactors, .signed hr.evaluates⟩
  | room + 1, ⟨.mark .minus, position⟩ :: tokens, rest, v, hp, h => by
    obtain ⟨⟨u, middle⟩, hu, h₁⟩ := bind_eq_ok h
    cases h₁
    obtain ⟨front, tree, rfl, hr⟩ := factor_sound room (List.forall_mem_cons.mp hp).2 hu
    exact ⟨⟨.mark .minus, position⟩ :: front, .signed true tree, rfl,
      congrArg _ hr.atoms, Nat.succ_le_succ hr.openFactors, .signed hr.evaluates⟩
  | room + 1, ⟨.mark .opening, position⟩ :: tokens, rest, v, hp, h => by
    obtain ⟨⟨u, middle⟩, hu, h₁⟩ := bind_eq_ok h
    obtain ⟨front, tree, rfl, hr⟩ :=
      sum_sound (factor_sound room) (List.forall_mem_cons.mp hp).2 hu
    simp only at h₁
    split at h₁
    · rename_i closing rest'
      cases h₁
      refine ⟨⟨.mark .opening, position⟩ :: front ++ [⟨.mark .closing, closing⟩], .paren tree,
        by simp, ?_, Nat.succ_le_succ hr.openFactors, .paren hr.evaluates⟩
      rw [List.map_append, List.map_cons, hr.atoms]
      rfl
    · cases h₁
  | _ + 1, ⟨.mark .times, _⟩ :: _, _, _, _, h => by cases h
  | _ + 1, ⟨.mark .slash, _⟩ :: _, _, _, _, h => by cases h
  | _ + 1, ⟨.mark .closing, _⟩ :: _, _, _, _, h => by cases h

/-- Every factor is read as one. -/
theorem factor_complete : ∀ room : ℕ, Complete scope room .factor (factor scope limit room)
  | 0, _, _, tree, _, hr, _ => absurd hr.openFactors (Nat.not_le.mpr tree.openFactors_pos)
  | room + 1, tokens, rest, .number digits, v, ⟨ha, _, he⟩, _ => by
    obtain ⟨⟨atom, position⟩, rfl, rfl⟩ := List.map_eq_singleton_iff.mp ha
    cases he with
    | number hw =>
      show (do let v ← readInteger digits; _) = _
      rw [readInteger_of_writes hw]
      rfl
  | room + 1, tokens, rest, .name letters, v, ⟨ha, _, he⟩, _ => by
    obtain ⟨⟨atom, position⟩, rfl, rfl⟩ := List.map_eq_singleton_iff.mp ha
    cases he with
    | name hf hb =>
      rw [List.singleton_append, factor]
      simp only [hf]
      rw [integerOf_iff.mpr hb]
      rfl
  | room + 1, tokens, rest, .signed negative tree, v, ⟨ha, ho, he⟩, _ => by
    obtain ⟨⟨atom, position⟩, back, rfl, rfl, hb⟩ := List.map_eq_cons_iff.mp ha
    cases he with
    | signed he =>
      have hr : factor scope limit room (back ++ rest) = .ok (_, rest) :=
        factor_complete room ⟨hb, Nat.le_of_succ_le_succ ho, he⟩ trivial
      cases negative with
      | false => exact hr
      | true =>
        show factor scope limit room (back ++ rest) >>= _ = _
        rw [hr]
        rfl
  | room + 1, tokens, rest, .paren tree, v, ⟨ha, ho, he⟩, _ => by
    obtain ⟨inner, last, rfl, hi, hl⟩ := List.map_eq_append_iff.mp ha
    obtain ⟨⟨atom, position⟩, front, rfl, rfl, hf⟩ := List.map_eq_cons_iff.mp hi
    obtain ⟨⟨atom, closing⟩, rfl, rfl⟩ := List.map_eq_singleton_iff.mp hl
    cases he with
    | paren he =>
      have hs : Phrase.Stops (⟨.mark .closing, closing⟩ :: rest) (.chain .sum) :=
        ⟨fun t ht => by cases ht; rfl, fun t ht => by cases ht; rfl⟩
      have hr := sum_complete (factor_complete room)
        ⟨hf, Nat.le_of_succ_le_succ ho, he⟩ hs
      rw [List.append_assoc, List.cons_append, List.singleton_append]
      rw [factor, hr]
      rfl

end Factors

/-! ### Expressions -/

theorem sum_factor_nil (scope : Scope) (limit : Int) (room : ℕ) :
    ∃ fault, sum (factor scope limit room) [] = .error fault := by
  cases room with
  | zero => exact ⟨.nestedTooDeeply limit, rfl⟩
  | succ room => exact ⟨.unexpectedEnd, rfl⟩

/-- Tokens have a value if they are read to the end. -/
theorem evaluateTokens_iff {scope : Scope} {limit : Int} {tokens : List Token} {v : Int} :
    evaluateTokens scope limit tokens = .ok v ↔
      sum (factor scope limit limit.toNat) tokens = .ok (v, []) := by
  cases tokens with
  | nil =>
    obtain ⟨fault, hf⟩ := sum_factor_nil scope limit limit.toNat
    rw [hf]
    exact ⟨fun h => (by cases h), fun h => (by cases h)⟩
  | cons t tokens =>
    rw [evaluateTokens]
    cases sum (factor scope limit limit.toNat) (t :: tokens) with
    | error fault => exact ⟨fun h => (by cases h), fun h => (by cases h)⟩
    | ok result =>
      obtain ⟨u, rest⟩ := result
      cases rest with
      | nil => exact ⟨fun h => (by cases h; rfl), fun h => (by cases h; rfl)⟩
      | cons t rest => exact ⟨fun h => (by cases h), fun h => (by cases h)⟩

theorem evaluate_of_tokenize {scope : Scope} {limit : Int} {text : String} {tokens : List Token}
    (h : tokenize text.toList = .ok tokens) :
    evaluate scope limit text = evaluateTokens scope limit tokens := by
  rw [evaluate, h]
  rfl

/-- An expression has the values for which a derivation of it stands. -/
theorem evaluate_eq_ok {scope : Scope} {limit : Int} {text : String} {v : Int} :
    evaluate scope limit text = .ok v ↔ Denotes scope limit text v := by
  constructor
  · intro h
    obtain ⟨tokens, ht, h⟩ := bind_eq_ok h
    obtain ⟨front, tree, rfl, hr⟩ :=
      sum_sound (factor_sound limit.toNat) (proper_tokenizeFrom ht) (evaluateTokens_iff.mp h)
    refine ⟨_, ht, tree, by rw [List.append_nil, hr.atoms], ?_, hr.evaluates⟩
    have := tree.openFactors_pos
    have := hr.openFactors
    omega
  · rintro ⟨tokens, ht, tree, ha, ho, he⟩
    rw [evaluate_of_tokenize ht]
    have hr : Reads scope limit.toNat tokens tree v := ⟨ha.symm, by omega, he⟩
    have hc : sum (factor scope limit limit.toNat) (tokens ++ []) = .ok (v, []) :=
      sum_complete (factor_complete limit.toNat) hr
        ⟨fun _ h => (by cases h), fun _ h => (by cases h)⟩
    rw [List.append_nil] at hc
    exact evaluateTokens_iff.mpr hc

/-- **An expression has a value just if it has a derivation that stands for it.** Otherwise
evaluating it is a fault. -/
theorem evaluate_iff_denotes (scope : Scope) (limit : Int) (text : String) :
    (∀ v, evaluate scope limit text = .ok v ↔ Denotes scope limit text v) ∧
      ((∃ fault, evaluate scope limit text = .error fault) ↔
        ¬ ∃ v, Denotes scope limit text v) := by
  have hv : ∀ v, evaluate scope limit text = .ok v ↔ Denotes scope limit text v :=
    fun _ => evaluate_eq_ok
  refine ⟨hv, ?_⟩
  cases h : evaluate scope limit text with
  | ok v => exact ⟨fun ⟨_, hf⟩ => (by cases hf), fun hn => absurd ⟨v, (hv v).mp h⟩ hn⟩
  | error fault =>
    refine ⟨fun _ ⟨v, hd⟩ => ?_, fun _ => ⟨fault, rfl⟩⟩
    rw [(hv v).mpr hd] at h
    cases h

end Expression
end VoxelBlueprint
