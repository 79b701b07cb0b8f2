/-
# What the service makes of documents that it found valid

A document with a program, and without a list of blocks that could stand in for it, is read in
the same way when it is validated and when it is expanded. If nothing was found wrong with it,
then it is never refused as no document: it is built, or one of its expressions has no value, or
it runs away.

Key theorems: `isValid_of_validate`, `expandProgram_of_read`, `expandDocument_of_valid`,
`valid_never_malformed`.
-/
import VoxelBlueprint.Proofs.Execution.Validity
import VoxelBlueprint.Proofs.Expansion.Documents

namespace VoxelBlueprint

open Effects

variable {submission : Submission} {document : Json} {p : Program}

/-- What is validated without an error is a valid program. -/
theorem isValid_of_validate {maxBlocks : Option Nat} {layout : Option Layout}
    {warnings : List String} (hd : submission.decode = .ok document)
    (hl : Layout.of document = .ok (some .program))
    (hv : Service.validate { submission, maxBlocks } = .validation layout [] warnings) :
    ∃ p, Program.read document = .ok p ∧ p.isValid = true := by
  have hf : (Except.ok document >>= Service.findings) = Service.findings document := rfl
  unfold Service.validate at hv
  rw [show (ExpandRequest.mk submission maxBlocks).submission.decode = .ok document from hd, hf,
    Service.findings, hl] at hv
  cases hp : Program.read document with
  | error m => rw [hp] at hv; cases hv
  | ok p =>
    rw [hp] at hv
    have he : p.errorTexts = [] := (Reply.validation.inj hv).2.1
    exact ⟨p, rfl, List.isEmpty_iff.mpr (List.map_eq_nil_iff.mp he)⟩

/-- The blocks of a document are those of the program that is read from it. -/
theorem expandProgram_of_read (limits : Limits) (hp : Program.read document = .ok p)
    (ledger : Ledger) : ∃ l, expandProgram limits document ledger = p.expand limits l := by
  have hr : ∃ l, readProgram document ledger = .ok p l := by
    unfold readProgram
    rw [hp]
    dsimp only
    split <;> exact ⟨_, rfl⟩
  obtain ⟨l, hl⟩ := hr
  exact ⟨l, by rw [expandProgram, bind_apply, hl]⟩

/-- The expansion of a document with a valid program and without a list of blocks is rejected for
a value or for exceeding a ceiling. -/
theorem expandDocument_of_valid {limits : Limits} {ledger l : Ledger} {r : Rejection}
    (hl : Layout.of document = .ok (some .program)) (hb : Document.hasBlockList document = false)
    (hp : Program.read document = .ok p) (hv : p.isValid = true)
    (h : expandDocument limits document ledger = .error r l) :
    r.isUnevaluable = true ∨ r.isRunaway = true := by
  obtain ⟨l', hl'⟩ := expandProgram_of_read limits hp ledger
  rw [expandDocument_apply, dispatch_program hl, hl', Program.expand_eq] at h
  cases hr : p.run limits l' with
  | ok u s => rw [hr] at h; cases h
  | error r' s =>
    have hf : fallBack limits document r' s.ledger = .error r' s.ledger := by
      rw [fallBack, hb]
      rfl
    rw [hr] at h
    simp only [hf] at h
    cases h
    exact Program.run_of_valid hv hr

/-- What is rejected for a value or for exceeding a ceiling is a document. -/
theorem Rejection.code_ne_invalidDocument {r : Rejection}
    (h : r.isUnevaluable = true ∨ r.isRunaway = true) : r.code ≠ .invalidDocument := by
  cases r with
  | unevaluable | runaway => exact nofun
  | malformed | undecodable => rcases h with h | h <;> cases h

/-- **What is found valid never fails for its shape.** A run of a valid program, with any catalog
and any limits, ends well, exceeds a ceiling, or comes to a value that cannot be had; and then
the step that it has come to lacks no coordinate and has no stride with which no loop runs. A
document with a program and without a list of blocks that the service finds valid is built by
every service, or refused, but not as no document. -/
theorem valid_never_malformed :
    (∀ (p : Program) (limits : Limits) (ledger : Ledger), p.isValid = true →
      (∃ s, p.run limits ledger = .ok () s) ∨
      (∃ ceiling limit s, p.run limits ledger = .error (.runaway ceiling limit) s) ∨
      ∃ fault path text s, p.run limits ledger = .error (.unevaluable fault path text) s ∧
        ∃ n scope step steps rest t,
          p.stage limits ledger n = .ok (.steps scope (step :: steps) :: rest) t ∧
          p.stage limits ledger (n + 1) = .error (.unevaluable fault path text) s ∧
          ¬ step.IsVoid) ∧
    (∀ (submission : Submission) (document : Json) (maxBlocks : Option Nat)
      (layout : Option Layout) (warnings : List String),
      submission.decode = .ok document → Layout.of document = .ok (some .program) →
      Document.hasBlockList document = false →
      Service.validate { submission, maxBlocks } = .validation layout [] warnings →
      ∀ (service : Service) (maxBlocks : Option Nat),
        (∃ b version, (service.expand { submission, maxBlocks }).2 = .blueprint b version) ∨
        ∃ r, (service.expand { submission, maxBlocks }).2 = .rejected r ∧
          r.code ≠ .invalidDocument) := by
  refine ⟨fun p limits ledger hv => ?program, ?service⟩
  case program =>
    cases hr : p.run limits ledger with
    | ok u s => exact .inl ⟨s, rfl⟩
    | error r s =>
      cases r with
      | unevaluable fault path text =>
        exact .inr (.inr ⟨fault, path, text, s, rfl, Program.exists_unevaluable hv rfl hr⟩)
      | runaway ceiling limit => exact .inr (.inl ⟨ceiling, limit, s, rfl⟩)
      | malformed | undecodable => rcases Program.run_of_valid hv hr with h | h <;> cases h
  case service =>
    intro submission document _ layout warnings hd hl hb hv service maxBlocks
    obtain ⟨p, hp, hv⟩ := isValid_of_validate hd hl hv
    rw [reply_of_decode hd]
    cases he : expandDocument (service.limitsFor { submission, maxBlocks }) document
        service.ledger with
    | ok b l => exact .inl ⟨b, _, rfl⟩
    | error r l =>
      have hr := expandDocument_of_valid hl hb hp hv he
      exact .inr ⟨r, rfl, r.code_ne_invalidDocument hr⟩

/-- A definition with a loop, the stride of which comes to zero only when it is called. -/
def standstill : Program :=
  { steps := [.call "row" [("n", .int 2)]]
    definitions :=
      [{ name := "row", parameters := ["n"],
         steps := [.loop "i" (.int 0) (.str "n") (.str "n - n")
           [.place (.str "i") (.int 0) (.int 0) (.str "a")]] }] }

/-- A document with such a loop among its steps. -/
def standstillDocument : Json :=
  .obj [("steps", .arr
    [.obj [("op", .str "for"), ("var", .str "i"), ("from", .int 0), ("to", .int 3),
      ("step", .str "1 - 1"), ("steps", .arr [])]])]

theorem valid_never_malformed_standstill :
    (∃ s, standstill.run {} quarry =
        .error (.unevaluable .zeroStride [.field "for", .field "step"] "n - n") s ∧
      ∃ n scope step steps rest t,
        standstill.stage {} quarry n = .ok (.steps scope (step :: steps) :: rest) t ∧
        standstill.stage {} quarry (n + 1) =
          .error (.unevaluable .zeroStride [.field "for", .field "step"] "n - n") s ∧
        ¬ step.IsVoid) ∧
    Service.validate { submission := .document standstillDocument } =
      .validation (some .program) [] [] ∧
    ∃ r, (({ ledger := quarry } : Service).expand
        { submission := .document standstillDocument }).2 = .rejected r ∧
      r.code ≠ .invalidDocument := by
  have stuck : standstill.run {} quarry =
      .error (.unevaluable .zeroStride [.field "for", .field "step"] "n - n")
        { ledger := quarry, work := { steps := 2, calls := 1, levels := 2 } } := by decide +kernel
  have found : Service.validate { submission := .document standstillDocument } =
      .validation (some .program) [] [] := by rfl
  refine ⟨⟨_, stuck, ?_⟩, found, ?_⟩
  · rcases valid_never_malformed.1 standstill {} quarry (by decide) with
      ⟨s, h⟩ | ⟨ceiling, limit, s, h⟩ | ⟨fault, path, text, s, h, reached⟩
    · rw [stuck] at h; cases h
    · rw [stuck] at h; cases h
    · rw [stuck] at h; cases h
      exact reached
  · rcases valid_never_malformed.2 (.document standstillDocument) standstillDocument none _ _ rfl
      rfl rfl found { ledger := quarry } none with ⟨b, version, h⟩ | h
    · have refused : expandDocument {} standstillDocument quarry =
          .error (.unevaluable .zeroStride [.field "for", .field "step"] "1 - 1") quarry := by
        decide +kernel
      rw [reply_of_decode rfl] at h
      simp only [Service.limitsFor, refused] at h
      cases h
    · exact h

end VoxelBlueprint
