/-
# What is read as a string

The rest of a string, behind its opening mark, is made of plain characters, of letters behind a
backslash and of the codes of units, and ends with its closing mark. A unit is read with the
next one if the two are a pair. The reader accepts just these texts, whatever stands behind
them, and they hold no control character.

Key definitions: `Json.StartsLow`, `Json.Quoted`.
Key theorems: `Json.readText_of_quoted`, `Json.quoted_of_readText`, `Json.Quoted.not_control`.
-/
import VoxelBlueprint.Proofs.Json.Scalars

namespace VoxelBlueprint
namespace Json

open Text Text.Utf16

/-- Whether a text starts with the second unit of a pair. -/
def StartsLow (s : List Char) : Prop :=
  ∃ e f g i low rest, s = '\\' :: 'u' :: e :: f :: g :: i :: rest ∧
    hexQuad? e f g i = some low ∧ isLowUnit low = true

/-- Whether a text is the rest of a string, up to its closing mark, with this content. -/
inductive Quoted : List Char → List Char → Prop where
  | close : Quoted ['\x22'] []
  | plain {c : Char} {s content : List Char} (hq : c ≠ '\x22') (hb : c ≠ '\\')
    (hc : 0x20 ≤ c.toNat) (h : Quoted s content) : Quoted (c :: s) (c :: content)
  | letter {c d : Char} {s content : List Char} (hc : unescape? c = some d)
    (h : Quoted s content) : Quoted ('\\' :: c :: s) (d :: content)
  | unit {a b c d : Char} {n : Nat} {s content : List Char} (hn : hexQuad? a b c d = some n)
    (hs : isHighUnit n = true → ¬ StartsLow s) (h : Quoted s content) :
    Quoted ('\\' :: 'u' :: a :: b :: c :: d :: s) (unitChar n :: content)
  | pair {a b c d e f g i : Char} {high low : Nat} {s content : List Char}
    (hn : hexQuad? a b c d = some high) (hh : isHighUnit high = true)
    (hm : hexQuad? e f g i = some low) (hl : isLowUnit low = true) (h : Quoted s content) :
    Quoted ('\\' :: 'u' :: a :: b :: c :: d :: '\\' :: 'u' :: e :: f :: g :: i :: s)
      (pairedChar high low :: content)

namespace Quoted

variable {s content : List Char}

theorem ne_nil (h : Quoted s content) : s ≠ [] := by
  cases h <;> simp

/-- Where the code of a unit stands in the rest of a string, it can be read and more follows. -/
theorem of_code (h : Quoted s content) {e f g i : Char} {rest behind : List Char}
    (hs : s ++ rest = '\\' :: 'u' :: e :: f :: g :: i :: behind) :
    ∃ low after, hexQuad? e f g i = some low ∧ s = '\\' :: 'u' :: e :: f :: g :: i :: after ∧
      after ≠ [] := by
  cases h with
  | close => cases hs
  | plain _ hb => exact absurd (List.cons.inj hs).1 hb
  | letter hc =>
    have hu := (List.cons.inj (List.cons.inj hs).2).1
    rw [hu] at hc
    cases hc
  | unit hn _ h =>
    cases hs
    exact ⟨_, _, hn, rfl, h.ne_nil⟩
  | pair hn _ _ _ _ =>
    cases hs
    exact ⟨_, _, hn, rfl, by simp⟩

theorem le_of_hexValue? {c : Char} {n : Nat} (h : Text.hexValue? c = some n) : 0x20 ≤ c.toNat := by
  unfold Text.hexValue? at h
  split at h
  · rename_i hc
    exact Nat.le_trans (by decide) (show '0'.toNat ≤ c.toNat from hc.1)
  · split at h
    · rename_i hc
      exact Nat.le_trans (by decide) (show 'a'.toNat ≤ c.toNat from hc.1)
    · split at h
      · rename_i hc
        exact Nat.le_trans (by decide) (show 'A'.toNat ≤ c.toNat from hc.1)
      · cases h

theorem le_of_hexQuad? {a b c d : Char} {n : Nat} (h : hexQuad? a b c d = some n) :
    0x20 ≤ a.toNat ∧ 0x20 ≤ b.toNat ∧ 0x20 ≤ c.toNat ∧ 0x20 ≤ d.toNat := by
  simp only [hexQuad?, List.mapM_cons, List.mapM_nil, Option.pure_def, Option.bind_eq_bind,
    Option.bind_eq_some_iff, Option.some.injEq] at h
  obtain ⟨_, ⟨_, ha, _, ⟨_, hb, _, ⟨_, hc, _, ⟨_, hd, -⟩, -⟩, -⟩, -⟩, -⟩ := h
  exact ⟨le_of_hexValue? ha, le_of_hexValue? hb, le_of_hexValue? hc, le_of_hexValue? hd⟩

theorem le_of_unescape? {c d : Char} (h : unescape? c = some d) : 0x20 ≤ c.toNat := by
  unfold unescape? at h
  split at h <;> first | decide | cases h

/-- No control character stands in a string. -/
theorem not_control (h : Quoted s content) : ∀ c ∈ s, 0x20 ≤ c.toNat := by
  induction h with
  | close => simp
  | plain _ _ hc _ ih => exact List.forall_mem_cons.mpr ⟨hc, ih⟩
  | letter hc _ ih =>
    simp only [List.forall_mem_cons]
    exact ⟨by decide, le_of_unescape? hc, ih⟩
  | unit hn _ _ ih =>
    obtain ⟨ha, hb, hc, hd⟩ := le_of_hexQuad? hn
    simp only [List.forall_mem_cons]
    exact ⟨by decide, by decide, ha, hb, hc, hd, ih⟩
  | pair hn _ hm _ _ ih =>
    obtain ⟨ha, hb, hc, hd⟩ := le_of_hexQuad? hn
    obtain ⟨he, hf, hg, hi⟩ := le_of_hexQuad? hm
    simp only [List.forall_mem_cons]
    exact ⟨by decide, by decide, ha, hb, hc, hd, by decide, by decide, he, hf, hg, hi, ih⟩

end Quoted

/-- The rest of a string is read up to its closing mark. -/
theorem readText_of_quoted {s content : List Char} (h : Quoted s content) :
    ∀ (start position : Nat) (before rest : List Char),
      readText start position before (s ++ rest) =
        (.text (String.ofList (before.reverse ++ content)), position + s.length) := by
  induction h with
  | close =>
    intro start position before rest
    rw [List.singleton_append, readText, List.append_nil]
    rfl
  | plain hq hb hc h ih =>
    intro start position before rest
    rw [List.cons_append, readText_plain _ _ _ hq hb hc, ih]
    simp only [List.reverse_cons, List.append_assoc, List.singleton_append, List.length_cons,
      Prod.mk.injEq, true_and]
    omega
  | letter hc h ih =>
    intro start position before rest
    rw [List.cons_append, List.cons_append, readText_letter _ _ _ hc, ih]
    simp only [List.reverse_cons, List.append_assoc, List.singleton_append, List.length_cons,
      Prod.mk.injEq, true_and]
    omega
  | unit hn hs h ih =>
    intro start position before rest
    simp only [List.cons_append]
    rw [readText_unit _ _ _ hn (fun hh e f g i after behind hcode => ?_) (by simp [h.ne_nil]), ih]
    · simp only [List.reverse_cons, List.append_assoc, List.singleton_append, List.length_cons,
        Prod.mk.injEq, true_and]
      omega
    · obtain ⟨low, _, hlow, hstart, -⟩ := h.of_code hcode
      refine ⟨low, hlow, ?_⟩
      cases hl : isLowUnit low with
      | false => rfl
      | true => exact absurd ⟨_, _, _, _, low, _, hstart, hlow, hl⟩ (hs hh)
  | pair hn hh hm hl h ih =>
    intro start position before rest
    simp only [List.cons_append]
    rw [readText_pair _ _ _ hn hh hm hl (by simp [h.ne_nil]), ih]
    simp only [List.reverse_cons, List.append_assoc, List.singleton_append, List.length_cons,
      Prod.mk.injEq, true_and]
    omega

/-- Whether what is read from a text, behind `before`, is the rest of a string at its start. -/
def ReadsQuoted (position : Nat) (before s : List Char) (content : String) (stop : Nat) : Prop :=
  ∃ text rest read, s = text ++ rest ∧ Quoted text read ∧ stop = position + text.length ∧
    content = String.ofList (before.reverse ++ read)

/-- A part of a string in front of its rest. -/
theorem ReadsQuoted.behind {position : Nat} {before s : List Char} {content : String} {stop : Nat}
    (part : List Char) (c : Char)
    (h : ReadsQuoted (position + part.length) (c :: before) s content stop)
    (hq : ∀ text rest read, s = text ++ rest → Quoted text read →
      Quoted (part ++ text) (c :: read)) :
    ReadsQuoted position before (part ++ s) content stop := by
  obtain ⟨text, rest, read, hs, ht, hstop, hc⟩ := h
  refine ⟨part ++ text, rest, c :: read, ?_, hq text rest read hs ht, ?_, ?_⟩
  · rw [hs, List.append_assoc]
  · rw [hstop, List.length_append, Nat.add_assoc]
  · rw [hc, List.reverse_cons, List.append_assoc, List.singleton_append]

/-- What is read as a string is the rest of one. -/
theorem quoted_of_readText {start position : Nat} {before s : List Char} {content : String}
    {stop : Nat} (h : readText start position before s = (.text content, stop)) :
    ReadsQuoted position before s content stop := by
  fun_induction readText start position before s with
  | case2 position before rest =>
    cases h
    exact ⟨['\x22'], rest, [], rfl, .close, rfl, by rw [List.append_nil]⟩
  | case6 position before a b c d e f g i next rest high hn hh low hm hl ih =>
    exact (ih h).behind ['\\', 'u', a, b, c, d, '\\', 'u', e, f, g, i] _
      fun _ _ _ _ hq => .pair hn hh hm hl hq
  | case7 position before a b c d e f g i next rest high hn hh low hm hl ih =>
    refine (ih h).behind ['\\', 'u', a, b, c, d] _ fun text rest read hs hq => ?_
    refine .unit hn (fun _ hlow => ?_) hq
    obtain ⟨_, _, _, _, low', tail, htext, hm', hl'⟩ := hlow
    have htext : text = _ := htext
    rw [htext] at hs
    simp only [List.cons_append, List.cons.injEq] at hs
    obtain ⟨-, -, rfl, rfl, rfl, rfl, -⟩ := hs
    rw [hm] at hm'
    cases hm'
    exact hl hl'
  | case8 position before a b c d e f g i next rest n hn hh ih =>
    exact (ih h).behind ['\\', 'u', a, b, c, d] _
      fun _ _ _ _ hq => .unit hn (fun hhigh => absurd hhigh hh) hq
  | case10 position before a b c d next rest hsingle n hn ih =>
    refine (ih h).behind ['\\', 'u', a, b, c, d] _ fun text behind read hs hq => ?_
    refine .unit hn (fun _ hlow => ?_) hq
    obtain ⟨e, f, g, i, low, tail, htext, -, -⟩ := hlow
    have htext : text = _ := htext
    have hcode : text ++ behind = '\\' :: 'u' :: e :: f :: g :: i :: (tail ++ behind) := by
      rw [htext]
      rfl
    obtain ⟨-, after, -, htext', hne⟩ := hq.of_code hcode
    obtain ⟨m, after, rfl⟩ := List.exists_cons_of_ne_nil hne
    rw [htext', List.cons_append] at hs
    obtain ⟨hnext, hrest⟩ := List.cons.inj hs
    exact hsingle e f g i m (after ++ behind) hnext hrest
  | case13 position before c rest _ _ _ d hc ih =>
    exact (ih h).behind ['\\', c] _ fun _ _ _ _ hq => .letter hc hq
  | case15 position before c rest hq hlast _ _ _ hb hc ih =>
    refine (ih h).behind [c] _ fun text behind read hs ht => .plain hq ?_ (by omega) ht
    rintro rfl
    cases hr : rest with
    | nil => exact hlast rfl hr
    | cons c' rest' => exact hb c' rest' rfl hr
  | _ => cases h

/-- What starts like a string is read as one or is none. -/
theorem readText_text_or_bad (start position : Nat) (before s : List Char) :
    (∃ content, (readText start position before s).1 = .text content) ∨
      ∃ problem place, (readText start position before s).1 = .badText problem place := by
  fun_induction readText start position before s <;>
    first
      | exact .inl ⟨_, rfl⟩
      | exact .inr ⟨_, _, rfl⟩
      | assumption

end Json
end VoxelBlueprint
