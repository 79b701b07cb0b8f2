/-
# Layouts

Where the tokens of a text are. They ascend in the text, none of them could be longer, and there
are only blanks between them; only tokens that would not be read as one stand side by side. So
lexemes with single blanks between them are laid out as they stand.

Key definitions: `Expression.Layout`, `Expression.spaced`.
Key theorems: `Expression.Laid.layout`, `Expression.tokenize_spaced`.
-/
import VoxelBlueprint.Proofs.Expression.Lexemes

namespace VoxelBlueprint
namespace Expression

open Text

/-! ### The places of tokens -/

/-- Whether two tokens would be read as one, or otherwise, if nothing stood between them. -/
def Atom.Merges : Atom → Atom → Prop
  | .number _, .number _ => True
  | .name _, .name _ => True
  | .name _, .number digits => ∃ c, digits.head? = some c ∧ c.isDigit = true
  | _, _ => False

/-- What the first character of a token that merges with another one does to that one. -/
theorem Atom.Merges.continues {atom other : Atom} (h : atom.Merges other) (ha : atom.IsLexeme)
    (ho : other.IsLexeme) : ∃ first c, atom.text.head? = some first ∧
      other.text.head? = some c ∧ Expression.continues first c = true := by
  cases atom with
  | number digits =>
    cases other with
    | number digits' =>
      obtain ⟨hne, hd⟩ := ha
      obtain ⟨hne', hd'⟩ := ho
      obtain ⟨first, rest, rfl⟩ := List.exists_cons_of_ne_nil hne
      obtain ⟨c, rest', rfl⟩ := List.exists_cons_of_ne_nil hne'
      refine ⟨first, c, rfl, rfl, ?_⟩
      rw [continues_digit (hd first List.mem_cons_self)]
      exact hd' c List.mem_cons_self
    | name | mark => exact h.elim
  | name letters =>
    obtain ⟨first, rest, rfl, hfirst, -⟩ := ha
    cases other with
    | number digits =>
      obtain ⟨c, hc, hdigit⟩ := h
      refine ⟨first, c, rfl, hc, ?_⟩
      rw [continues_nameStart hfirst]
      exact isNamePart_iff.mpr (.inr hdigit)
    | name letters' =>
      obtain ⟨c, rest', rfl, hc, -⟩ := ho
      refine ⟨first, c, rfl, rfl, ?_⟩
      rw [continues_nameStart hfirst]
      exact isNamePart_iff.mpr (.inl hc)
    | mark => exact h.elim
  | mark => exact h.elim

/-- Where tokens stand in a text. -/
structure Layout (text : List Char) (tokens : List Token) : Prop where
  /-- The positions ascend. -/
  increasing : tokens.Pairwise fun t u => t.position < u.position
  /-- A token ends before the next one starts. -/
  apart : tokens.Pairwise fun t u => t.position + t.text.length ≤ u.position
  /-- The characters of a token are those of the text at its position. -/
  isPrefix : ∀ t ∈ tokens, t.text <+: text.drop t.position
  /-- Every token is a run of digits, a name or a mark. -/
  isLexeme : ∀ t ∈ tokens, t.atom.IsLexeme
  /-- What belongs to no token is blank. -/
  isBlank : ∀ i c, text[i]? = some c →
    (∀ t ∈ tokens, i < t.position ∨ t.position + t.text.length ≤ i) → Text.isBlank c = true
  /-- No longer token stands at the position of a token. -/
  maximal : ∀ t ∈ tokens, ∀ atom : Atom, atom.IsLexeme → atom.text <+: text.drop t.position →
    atom.text.length ≤ t.text.length
  /-- Tokens with nothing between them do not merge. -/
  not_merges : tokens.Pairwise fun t u =>
    t.position + t.text.length = u.position → ¬ t.atom.Merges u.atom

namespace Laid

variable {position : ℕ} {text : List Char} {tokens : List Token}

/-- What comes before a token and behind it. -/
theorem exists_text (h : Laid position text tokens) : ∀ t ∈ tokens, t.atom.IsLexeme ∧
    ∃ before behind, text = before ++ (t.text ++ behind) ∧
      t.position = position + before.length ∧ t.atom.EndsAt behind := by
  induction h with
  | nil => exact List.forall_mem_nil _
  | @blank position c text tokens _ _ ih =>
    intro t ht
    obtain ⟨hl, before, behind, rfl, hp, he⟩ := ih t ht
    refine ⟨hl, c :: before, behind, rfl, ?_, he⟩
    rw [hp, List.length_cons]
    omega
  | @token position atom text tokens ha he _ ih =>
    refine List.forall_mem_cons.mpr ⟨⟨ha, [], text, rfl, rfl, he⟩, fun t ht => ?_⟩
    obtain ⟨hl, before, behind, rfl, hp, he⟩ := ih t ht
    refine ⟨hl, atom.text ++ before, behind, (List.append_assoc _ _ _).symm, ?_, he⟩
    rw [hp, List.length_append]
    omega

theorem position_le (h : Laid position text tokens) : ∀ t ∈ tokens, position ≤ t.position :=
  fun t ht => by
    obtain ⟨-, before, behind, -, hp, -⟩ := h.exists_text t ht
    omega

theorem apart (h : Laid position text tokens) :
    tokens.Pairwise fun t u => t.position + t.text.length ≤ u.position := by
  induction h with
  | nil => exact .nil
  | blank _ _ ih => exact ih
  | token _ _ hrest ih => exact .cons hrest.position_le ih

theorem isBlank_of_not_covered (h : Laid position text tokens) : ∀ i c, text[i]? = some c →
    (∀ t ∈ tokens, position + i < t.position ∨ t.position + t.text.length ≤ position + i) →
      Text.isBlank c = true := by
  induction h with
  | nil => exact nofun
  | @blank position c text tokens hb _ ih =>
    rintro (_ | i) d hd hout
    · cases hd
      exact hb
    · refine ih i d hd fun t ht => ?_
      have := hout t ht
      omega
  | @token position atom text tokens _ _ _ ih =>
    intro i d hd hout
    obtain ⟨hhead, hout⟩ := List.forall_mem_cons.mp hout
    have hhead : position + i < position ∨ position + atom.text.length ≤ position + i := hhead
    obtain ⟨j, rfl⟩ : ∃ j, i = atom.text.length + j := Nat.exists_eq_add_of_le (by omega)
    rw [List.getElem?_append_right (Nat.le_add_right _ _), Nat.add_sub_cancel_left] at hd
    refine ih j d hd fun t ht => ?_
    have := hout t ht
    omega

/-- A token that stands right where the text starts is all that the text starts with. -/
theorem prefix_of_position (h : Laid position text tokens) {t : Token} (ht : t ∈ tokens)
    (hp : t.position = position) : t.text <+: text := by
  obtain ⟨-, before, behind, rfl, hpos, -⟩ := h.exists_text t ht
  have hnil : before = [] := List.length_eq_zero_iff.mp (by omega)
  rw [hnil]
  exact List.prefix_append _ _

theorem not_merges (h : Laid position text tokens) : tokens.Pairwise fun t u =>
    t.position + t.text.length = u.position → ¬ t.atom.Merges u.atom := by
  induction h with
  | nil => exact .nil
  | blank _ _ ih => exact ih
  | @token position atom text tokens ha he hrest ih =>
    refine .cons (fun u hu hp hm => ?_) ih
    obtain ⟨hlu, -⟩ := hrest.exists_text u hu
    obtain ⟨first, c, hfirst, hc, hcont⟩ := hm.continues ha hlu
    obtain ⟨behind, rfl⟩ := hrest.prefix_of_position hu hp.symm
    have hhead : (u.atom.text ++ behind).head? = some c := by
      rw [List.head?_append_of_ne_nil _ hlu.text_ne_nil, hc]
    have hstop := he first c hfirst hhead
    rw [hcont] at hstop
    cases hstop

/-- **The places of the tokens of a text that is laid out.** -/
theorem layout (h : Laid 0 text tokens) : Layout text tokens where
  increasing := by
    refine h.apart.imp_of_mem fun {t u} ht _ hle => ?_
    have hpos := List.length_pos_iff.mpr (h.exists_text t ht).1.text_ne_nil
    exact Nat.lt_of_lt_of_le (Nat.lt_add_of_pos_right hpos) hle
  apart := h.apart
  isPrefix t ht := by
    obtain ⟨-, before, behind, rfl, hp, -⟩ := h.exists_text t ht
    rw [hp, Nat.zero_add, List.drop_left]
    exact List.prefix_append _ _
  isLexeme t ht := (h.exists_text t ht).1
  isBlank i c hc hout := h.isBlank_of_not_covered i c hc (by simpa using hout)
  maximal t ht atom hl hp := by
    obtain ⟨hlt, before, behind, rfl, hpos, he⟩ := h.exists_text t ht
    rw [hpos, Nat.zero_add, List.drop_left] at hp
    exact hlt.length_le hl he hp
  not_merges := h.not_merges

end Laid

/-! ### Lexemes with single blanks between them -/

/-- The characters of tokens, with single blanks between them. -/
def spaced (atoms : List Atom) : String :=
  String.ofList ([' '].intercalate (atoms.map Atom.text))

theorem laid_intercalate : ∀ {atoms : List Atom}, (∀ a ∈ atoms, a.IsLexeme) → ∀ position,
    ∃ tokens, Laid position ([' '].intercalate (atoms.map Atom.text)) tokens ∧
      tokens.map (·.atom) = atoms
  | [], _, position => ⟨[], .nil, rfl⟩
  | [atom], h, position => by
    have ha := h atom List.mem_cons_self
    have hlaid := ha.laid (List.forall_mem_nil _) position
    rw [List.append_nil] at hlaid
    exact ⟨_, by simpa [List.intercalate] using hlaid, rfl⟩
  | atom :: other :: atoms, h, position => by
    obtain ⟨ha, h⟩ := List.forall_mem_cons.mp h
    obtain ⟨tokens, hlaid, htokens⟩ :=
      laid_intercalate h (position + atom.text.length + 1)
    have hend : atom.EndsAt (' ' :: [' '].intercalate ((other :: atoms).map Atom.text)) := by
      intro first c _ hc
      cases hc
      exact continues_blank first (by decide)
    exact ⟨_, .token ha hend (.blank (by decide) hlaid), congrArg (atom :: ·) htokens⟩

/-- **Lexemes with single blanks between them are the tokens of their text.** -/
theorem tokenize_spaced {atoms : List Atom} (h : ∀ a ∈ atoms, a.IsLexeme) :
    ∃ tokens, tokenize (spaced atoms).toList = .ok tokens ∧ tokens.map (·.atom) = atoms := by
  obtain ⟨tokens, hlaid, htokens⟩ := laid_intercalate h 0
  rw [spaced, String.toList_ofList]
  exact ⟨tokens, tokenizeFrom_of_laid hlaid, htokens⟩

/-- The tokens of a text are lexemes. -/
theorem isLexeme_of_tokenize {text : List Char} {tokens : List Token}
    (h : tokenize text = .ok tokens) : ∀ a ∈ tokens.map (·.atom), a.IsLexeme := by
  intro a ha
  obtain ⟨t, ht, rfl⟩ := List.mem_map.mp ha
  exact (tokenizeFrom_iff.mp h).layout.isLexeme t ht

end Expression
end VoxelBlueprint
