/-
# Computations that are the same in every situation

A computation may be carried out in several situations, for instance with several catalogs.
It is oblivious of them when one view of it fits them all. A view says in which way the
computation ends and with what, as far as this can be told without knowing the situation;
a situation renders the value that the view shows, and has its own idea of which states
look as the view says.

What is composed of oblivious computations is oblivious. So only the parts that touch what
differs between the situations have to be looked at one by one.

Key definitions: `Effects.Shows`, `Effects.Oblivious`.
Key theorems: `Effects.Oblivious.bind`, `Effects.Oblivious.tryCatch`,
`Effects.Oblivious.get_ite`, `Effects.Oblivious.get_unless`.
-/
import VoxelBlueprint.Proofs.Effects

namespace VoxelBlueprint
namespace Effects

section Shows

variable {ε σ ν α β : Type}

/-- Whether a view fits the end of a computation: the end is of the same kind, in a state that
looks as the view says, and with the value that the view shows, rendered, or the same error. -/
inductive Shows (looks : ν → σ → Prop) (render : β → α) :
    EStateM.Result ε ν β → EStateM.Result ε σ α → Prop
  | ok {b : β} {v : ν} {s : σ} : looks v s → Shows looks render (.ok b v) (.ok (render b) s)
  | error {e : ε} {v : ν} {s : σ} : looks v s → Shows looks render (.error e v) (.error e s)

namespace Shows

variable {looks : ν → σ → Prop} {render : β → α} {view : EStateM.Result ε ν β}
  {a a' : EStateM.Result ε σ α}

theorem exists_ok {b : β} {v : ν} (h : Shows looks render (.ok b v : EStateM.Result ε ν β) a) :
    ∃ s, a = .ok (render b) s ∧ looks v s := by
  cases h with
  | ok hs => exact ⟨_, rfl, hs⟩

theorem exists_error {e : ε} {v : ν}
    (h : Shows looks render (.error e v : EStateM.Result ε ν β) a) :
    ∃ s, a = .error e s ∧ looks v s := by
  cases h with
  | error hs => exact ⟨_, rfl, hs⟩

/-- Two ends that one view fits are the same but for their states. -/
theorem both (h : Shows looks render view a) (h' : Shows looks render view a') :
    (∃ b v s s', a = .ok (render b) s ∧ a' = .ok (render b) s' ∧ looks v s ∧ looks v s') ∨
      ∃ e v s s', a = .error e s ∧ a' = .error e s' ∧ looks v s ∧ looks v s' := by
  cases view with
  | ok b v =>
    obtain ⟨s, ha, hs⟩ := h.exists_ok
    obtain ⟨s', ha', hs'⟩ := h'.exists_ok
    exact .inl ⟨b, v, s, s', ha, ha', hs, hs'⟩
  | error e v =>
    obtain ⟨s, ha, hs⟩ := h.exists_error
    obtain ⟨s', ha', hs'⟩ := h'.exists_error
    exact .inr ⟨e, v, s, s', ha, ha', hs, hs'⟩

end Shows

end Shows

variable {ε σ ι ν α α' β β' : Type}

/-- Whether a computation is the same in all situations: from states that look the same one view
fits it in each of them. -/
def Oblivious (looks : ι → ν → σ → Prop) (render : ι → β → α) (x : ι → EStateM ε σ α) : Prop :=
  ∀ v, ∃ view, ∀ i s, looks i v s → Shows (looks i) (render i) view (x i s)

namespace Oblivious

variable {looks : ι → ν → σ → Prop} {render : ι → β → α} {render' : ι → β' → α'}

theorem pure (render : ι → β → α) (b : β) :
    Oblivious looks render fun i => (Pure.pure (render i b) : EStateM ε σ α) :=
  fun v => ⟨.ok b v, fun _ _ hs => .ok hs⟩

theorem throw (e : ε) :
    Oblivious looks render fun _ => (MonadExcept.throw e : EStateM ε σ α) :=
  fun v => ⟨.error e v, fun _ _ hs => .error hs⟩

/-- What follows an oblivious computation must be oblivious for each value that may be shown. -/
theorem bind {x : ι → EStateM ε σ α} {f : ι → α → EStateM ε σ α'} (hx : Oblivious looks render x)
    (hf : ∀ b, Oblivious looks render' fun i => f i (render i b)) :
    Oblivious looks render' fun i => x i >>= f i := by
  intro v
  obtain ⟨view, hview⟩ := hx v
  cases view with
  | error e v' =>
    refine ⟨.error e v', fun i s hs => ?_⟩
    obtain ⟨t, ht, hs'⟩ := (hview i s hs).exists_error
    show Shows _ _ _ ((x i >>= f i) s)
    rw [bind_apply, ht]
    exact .error hs'
  | ok b v' =>
    obtain ⟨view', hview'⟩ := hf b v'
    refine ⟨view', fun i s hs => ?_⟩
    obtain ⟨t, ht, hs'⟩ := (hview i s hs).exists_ok
    show Shows _ _ _ ((x i >>= f i) s)
    rw [bind_apply, ht]
    exact hview' i t hs'

theorem map {x : ι → EStateM ε σ α} {f : ι → α → α'} {g : β → β'} (hx : Oblivious looks render x)
    (hf : ∀ i b, f i (render i b) = render' i (g b)) :
    Oblivious looks render' fun i => f i <$> x i := by
  refine hx.bind fun b v => ⟨.ok (g b) v, fun i s hs => ?_⟩
  show Shows _ _ _ (.ok (f i (render i b)) s)
  rw [hf]
  exact .ok hs

/-- What handles an error starts from a state that looks as the error left it. -/
theorem tryCatch {x : ι → EStateM ε σ α} {handle : ι → ε → EStateM ε σ α}
    (hx : Oblivious looks render x) (hh : ∀ e, Oblivious looks render fun i => handle i e) :
    Oblivious looks render fun i => MonadExcept.tryCatch (x i) (handle i) := by
  intro v
  obtain ⟨view, hview⟩ := hx v
  cases view with
  | ok b v' =>
    refine ⟨.ok b v', fun i s hs => ?_⟩
    obtain ⟨t, ht, hs'⟩ := (hview i s hs).exists_ok
    show Shows _ _ _ (MonadExcept.tryCatch (x i) (handle i) s)
    rw [tryCatch_apply, ht]
    exact .ok hs'
  | error e v' =>
    obtain ⟨view', hview'⟩ := hh e v'
    refine ⟨view', fun i s hs => ?_⟩
    obtain ⟨t, ht, hs'⟩ := (hview i s hs).exists_error
    show Shows _ _ _ (MonadExcept.tryCatch (x i) (handle i) s)
    rw [tryCatch_apply, ht]
    exact hview' i t hs'

/-- What is computed without a state is the same in all situations. -/
theorem ofExcept (x : Except ε α) :
    Oblivious looks (fun _ => id) fun _ => (MonadExcept.ofExcept x : EStateM ε σ α) := by
  cases x with
  | error e => exact throw e
  | ok a => exact pure (fun _ => id) a

/-- A change of the state that can be followed on what states look like. -/
theorem update {f : ι → σ → σ} (change : ν → ν)
    (hf : ∀ i v s, looks i v s → looks i (change v) (f i s)) :
    Oblivious looks (fun _ => id) fun i => (modify (f i) : EStateM ε σ PUnit) :=
  fun v => ⟨.ok ⟨⟩ (change v), fun i s hs => .ok (b := PUnit.unit) (hf i v s hs)⟩

section Conditions

variable {p : ι → σ → Prop} [∀ i s, Decidable (p i s)] {q : ν → Prop}

/-- A condition on the state may decide what comes next if it can be told from what the state
looks like. -/
theorem get_ite {x y : ι → EStateM ε σ α} (hp : ∀ i v s, looks i v s → (p i s ↔ q v))
    (hx : Oblivious looks render x) (hy : Oblivious looks render y) :
    Oblivious looks render fun i => get >>= fun s => if p i s then x i else y i := by
  intro v
  by_cases hq : q v
  · obtain ⟨view, hview⟩ := hx v
    refine ⟨view, fun i s hs => ?_⟩
    show Shows _ _ _ ((if p i s then x i else y i : EStateM ε σ α) s)
    rw [if_pos ((hp i v s hs).mpr hq)]
    exact hview i s hs
  · obtain ⟨view, hview⟩ := hy v
    refine ⟨view, fun i s hs => ?_⟩
    show Shows _ _ _ ((if p i s then x i else y i : EStateM ε σ α) s)
    rw [if_neg fun h => hq ((hp i v s hs).mp h)]
    exact hview i s hs

/-- A computation may be ended under such a condition. -/
theorem get_unless {f : ι → PUnit → EStateM ε σ α} (e : ε)
    (hp : ∀ i v s, looks i v s → (p i s ↔ q v)) (hf : Oblivious looks render fun i => f i ⟨⟩) :
    Oblivious looks render fun i =>
      get >>= fun s => if p i s then MonadExcept.throw e >>= f i else f i ⟨⟩ := by
  have he : Oblivious looks (fun _ => id) fun _ => (MonadExcept.throw e : EStateM ε σ PUnit) :=
    throw e
  exact get_ite hp (he.bind fun _ => hf) hf

end Conditions

end Oblivious
end Effects
end VoxelBlueprint
