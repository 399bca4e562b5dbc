import JPlusPlus.Compile.Basic
import JPlusPlus.Proofs.Parse.Print

/-!
# The stages of a compilation

A compilation ends at the first stage that meets a fault, and the fault names that stage. So the
tokens of a source are there unless the fault is one of scanning, whatever the later stages meet.
-/

namespace JPlusPlus

variable {source : String}

/-- What a compilation comes to: the fault of scanning, the fault of a later stage, or what all
stages have made. -/
theorem compileArtifact_cases (source : String) :
    (∃ fault, compileArtifact source = .error fault ∧ sourceTokens source = .error fault ∧
      fault.stage = .scan) ∨
    (∃ fault tokens, compileArtifact source = .error fault ∧ sourceTokens source = .ok tokens ∧
      fault.stage ≠ .scan) ∨
    ∃ tokens program, compileArtifact source = .ok ⟨tokens, program, program.code⟩ ∧
      sourceTokens source = .ok tokens ∧ sourceProgram source = .ok program := by
  rw [compileArtifact, sourceProgram]
  rcases hscan : tokenize source with fault | tokens
  · have htokens : sourceTokens source = .error fault.toFault := by rw [sourceTokens, hscan]; rfl
    rw [htokens]
    exact .inl ⟨fault.toFault, rfl, rfl, rfl⟩
  have htokens : sourceTokens source = .ok tokens := by rw [sourceTokens, hscan]; rfl
  rw [htokens]
  rcases hparse : parse tokens with fault | program
  · have hprogram : tokensProgram tokens = .error fault.toFault := by
      rw [tokensProgram, hparse]; rfl
    refine .inr (.inl ⟨fault.toFault, tokens, ?_, rfl, nofun⟩)
    simp only [bind, Except.bind, hprogram]
  have hprogram : tokensProgram tokens = .ok program := by rw [tokensProgram, hparse]; rfl
  rcases hcheck : program.check with fault | _
  · have hchecked : checkProgram program = .error fault.toFault := by
      rw [checkProgram, hcheck]; rfl
    refine .inr (.inl ⟨fault.toFault, tokens, ?_, rfl, nofun⟩)
    simp only [bind, Except.bind, hprogram, hchecked]
  · have hchecked : checkProgram program = .ok () := by rw [checkProgram, hcheck]; rfl
    refine .inr (.inr ⟨tokens, program, ?_, rfl, ?_⟩)
    · simp only [bind, Except.bind, pure, Except.pure, hprogram, hchecked]
    · simp only [bind, Except.bind, hprogram]

theorem compileScript_of_ok {artifact : Artifact} (h : compileArtifact source = .ok artifact) :
    compileScript source = .ok artifact.code := by
  rw [compileScript, h]
  rfl

theorem compileScript_of_error {fault : Fault} (h : compileArtifact source = .error fault) :
    compileScript source = .error fault := by
  rw [compileScript, h]
  rfl

theorem mapError_eq_ok {α ε ε' : Type} {f : ε → ε'} {result : Except ε α} {a : α} :
    result.mapError f = .ok a ↔ result = .ok a := by
  cases result with
  | error fault => constructor <;> intro h <;> cases h
  | ok b => constructor <;> intro h <;> cases h <;> rfl

theorem sourceProgram_eq_ok {program : Program} :
    sourceProgram source = .ok program ↔
      ∃ tokens, tokenize source = .ok tokens ∧ parse tokens = .ok program := by
  rw [sourceProgram, bind_eq_ok_iff]
  simp only [sourceTokens, tokensProgram, mapError_eq_ok]

theorem compile_eq_success_iff {code : String} :
    compile source = .success code ↔ compileScript source = .ok code := by
  rw [compile]
  cases compileScript source <;> simp [CompileResult.ofExcept]

/-- A compilation succeeds when the source is read and what is read passes the check. -/
theorem compile_eq_success {code : String} :
    compile source = .success code ↔
      ∃ program, sourceProgram source = .ok program ∧ program.check = .ok () ∧
        code = program.code := by
  rw [compile_eq_success_iff, compileScript, compileArtifact, sourceProgram]
  simp only [bind_eq_ok_iff, checkProgram, mapError_eq_ok]
  constructor
  · rintro ⟨artifact, ⟨tokens, htokens, program, hprogram, ⟨⟩, hcheck, hartifact⟩, hcode⟩
    cases hartifact
    cases hcode
    exact ⟨program, ⟨tokens, htokens, hprogram⟩, hcheck, rfl⟩
  · rintro ⟨program, ⟨tokens, htokens, hprogram⟩, hcheck, rfl⟩
    exact ⟨_, ⟨tokens, htokens, program, hprogram, (), hcheck, rfl⟩, rfl⟩

/-- A program that is written as source is read back. -/
theorem sourceProgram_print {program : Program} (h : program.isWellFormed = true) :
    sourceProgram program.print = .ok program :=
  sourceProgram_eq_ok.mpr ⟨program.tokens, program.tokenize_print h,
    Derives.parse_eq (program.derives_tokens h)⟩

/-- A program that is written as source and passes the check is compiled. -/
theorem compile_print {program : Program} (h : program.isWellFormed = true)
    (hcheck : program.check = .ok ()) : compile program.print = .success program.code :=
  compile_eq_success.mpr ⟨program, sourceProgram_print h, hcheck, rfl⟩

theorem compileScript_print {program : Program} (h : program.isWellFormed = true)
    (hcheck : program.check = .ok ()) : compileScript program.print = .ok program.code :=
  compile_eq_success_iff.mp (compile_print h hcheck)

/-- A program that prints a number. -/
theorem compileScript_bol : compileScript "bol\n1\n" = .ok "console.log(1);" := by
  have hprint : Program.print ⟨[.print (.number "1")]⟩ = "bol\n1\n" := by decide
  rw [← hprint]
  exact compileScript_print (by decide) rfl

end JPlusPlus
