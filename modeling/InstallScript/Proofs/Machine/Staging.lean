import InstallScript.Proofs.Machine.Planning
import InstallScript.Proofs.Path.Output
import InstallScript.Proofs.Plan.Outputs

/-!
Where a run puts files. Every output of a finished plan is relative, names no drive, and leads
upwards at most by its last part; so it is safe exactly if its last part, without the white space it
ends in, does not lead upwards.
-/

namespace InstallScript

open Script (Program Statement)

section Issued

variable {files : FileSet}
  (hsafe : ∀ kind, ∀ e ∈ files.entries kind, Path.isSafe e.name = true)

include hsafe

/-- A copied file lands below the folder that it is copied to. -/
theorem Instruction.isOutput_copiedPath {source path target : String} {e : Entry}
    (he : e ∈ files.data) (htarget : Argument.output path = .ok target) :
    Path.IsOutput (copiedPath source target e) := by
  obtain ⟨hpath, hne, rfl⟩ := Argument.output_eq_ok htarget
  have htail : Path.IsTail ((Path.stripFolder e.name source).getD e.fileName).toList
      e.name.toList := by
    cases hstrip : Path.stripFolder e.name source with
    | some rest => exact Path.isTail_of_stripFolder hstrip
    | none => exact Path.isTail_fileName e.name
  obtain ⟨-, hdrive, hup⟩ := Path.isSafe_iff.mp (hsafe .data e he)
  refine Path.IsOutput.append hpath hne (fun hmem => hdrive ?_) fun hmem => hup ?_
  · exact Path.mem_trim_of_mem (by decide) (htail.subset hmem)
  · exact Path.up_mem_splitAt_trim (htail.splitAt_subset hmem)

/-- Every output that a statement adds leads upwards at most by its last part. Outputs are brought
    into canonical form once more when they are staged, but not when they are patched. -/
theorem Change.Issued.isOutput {c : Change} (h : c.Issued files) :
    ∀ output ∈ c.output?, Path.IsOutput output := by
  intro output houtput
  cases h with
  | data he =>
    rw [← Option.some.inj houtput]
    exact .of_isSafe (hsafe .data _ he)
  | plugin he =>
    rw [← Option.some.inj houtput]
    exact .of_isSafe (hsafe .plugin _ he)
  | copiedData _ htarget | copiedPlugin _ htarget =>
    obtain ⟨hpath, -, rfl⟩ := Argument.output_eq_ok htarget
    rw [← Option.some.inj houtput]
    exact (Path.IsOutput.of_isSafe hpath).normalize
  | copiedFolder he htarget =>
    rw [← Option.some.inj houtput]
    exact (Instruction.isOutput_copiedPath hsafe he htarget).normalize
  | patch _ htarget =>
    obtain ⟨hpath, -, htarget⟩ := Argument.output_eq_ok htarget
    rw [← Option.some.inj houtput, ← htarget]
    exact .of_isSafe hpath
  | removeData | clearData | removePlugin | clearPlugins | flag | declare | ini | shader
  | record | value | xml
  | register | unregister => cases houtput

end Issued

section Run

variable {σ : Type} {ctx : Context σ} {host : σ} {steps : Nat} {text : String}

/-- Every output of the plan that a run leaves leads upwards at most by its last part. -/
theorem isOutput_of_execute {session : Session σ}
    (hsafe : ∀ kind, ∀ e ∈ ctx.files.entries kind, Path.isSafe e.name = true)
    (h : ∀ output ∈ session.plan.outputs, Path.IsOutput output) (steps : Nat)
    (program : Program) :
    ∀ output ∈ (session.execute ctx steps program).session.plan.outputs,
      Path.IsOutput output := by
  let Inv (p : Plan) : Prop := ∀ output ∈ p.outputs, Path.IsOutput output
  refine Machine.plan_of_run ctx Inv (fun p q hp hbecomes => hbecomes.of_issued Inv ?_ hp) h steps
  intro p c hp hc output houtput
  rcases Change.mem_outputs_of_apply houtput with houtput | houtput
  · exact hp output houtput
  · exact hc.isOutput hsafe output houtput

/-- If every file of a package has a safe name, the outputs of a finished plan are relative, name no
    drive and have no part but the last that leads upwards. So an output is safe exactly if its last
    part, without the white space it ends in, does not lead upwards. -/
theorem isSafe_output_iff_of_runScript {completion : Completion} {session : Session σ}
    (hsafe : ∀ kind, ∀ e ∈ ctx.files.entries kind, Path.isSafe e.name = true)
    (h : runScript ctx host steps text = .ended completion session) :
    ∀ output ∈ session.plan.outputs, Path.isRooted output.toList = false ∧
      ':' ∉ output.toList ∧
      Path.up ∉ (Text.splitAt Path.isSeparator output.toList).dropLast ∧
      (Path.isSafe output = true ↔ Text.trimEnd (Path.fileName output).toList ≠ Path.up) := by
  intro output houtput
  obtain ⟨program, first, last, -, hfirst, hrun, rfl⟩ := exists_execute_of_runScript h
  have hempty : ∀ output ∈ first.plan.outputs, Path.IsOutput output := by
    rw [hfirst.2]
    rintro _ ⟨⟩
  have hlast := isOutput_of_execute hsafe hempty steps program
  rw [hrun] at hlast
  have hresult := hlast output (Plan.mem_outputs_of_finalize houtput)
  exact ⟨hresult.isRooted_eq_false, hresult.not_mem_colon, hresult.level, hresult.isSafe_iff⟩

end Run

/-- A package of one data file, with a host that has nothing prepared. -/
def Context.ofDataFile (name : String) : Context Prepared :=
  ⟨⟨.default, ⟨[⟨name, 0, 0, 0⟩], []⟩, .empty⟩, Prepared.host⟩

/-- White space hides the part that leads upwards when the output is checked, and is gone when it is
    staged. -/
theorem outputs_of_hidden_parent :
    (∀ kind, ∀ e ∈ (Context.ofDataFile "a.txt").files.entries kind,
      Path.isSafe e.name = true) ∧
      ∃ session, runScript (.ofDataFile "a.txt") {} 3 "CopyDataFile a.txt \".. /\"" =
        .ended .finished session ∧
        session.plan.dataOutputs = [".."] := by
  constructor
  · rintro (_ | _) e he
    · cases List.mem_singleton.mp he
      rfl
    · cases he
  · let copy : Statement := ⟨1, .instruction .copyDataFile ["a.txt", ".. /"]⟩
    let program : Program := ⟨#[copy], #[.none], #[none], []⟩
    have hparse : Program.parse "CopyDataFile a.txt \".. /\"" = .ok program := rfl
    have hexecute : ∀ s : Session Prepared, s.execute (.ofDataFile "a.txt") 3 program =
        .ended .finished
          ((s.note [Machine.trace copy]).change [.installData ⟨"a.txt", 0, 0, 0⟩ ".. "]) := by
      intro s
      have hargs := substituteAll_eq_ok s.vars (show ∀ text ∈ ["a.txt", ".. /"],
        '%' ∉ text.toList by decide)
      rw [Session.execute, Machine.run, Machine.start,
        Machine.step_of_change _ rfl (by decide) hargs rfl]
      rfl
    rw [runScript, hparse]
    dsimp only
    rw [hexecute]
    exact ⟨_, rfl, rfl⟩

/-- The folder above the data folder can become an output. -/
theorem exists_unsafe_output_of_hidden_parent :
    (∀ kind, ∀ e ∈ (Context.ofDataFile "a.txt").files.entries kind,
      Path.isSafe e.name = true) ∧
      ∃ session, runScript (.ofDataFile "a.txt") {} 3 "CopyDataFile a.txt \".. /\"" =
        .ended .finished session ∧
        ∃ output ∈ session.plan.dataOutputs, Path.isSafe output = false := by
  obtain ⟨hsafe, session, hrun, houtputs⟩ := outputs_of_hidden_parent
  exact ⟨hsafe, session, hrun, "..", by simp [houtputs], rfl⟩

theorem isSafe_output_iff_of_hidden_parent :
    (∀ kind, ∀ e ∈ (Context.ofDataFile "a.txt").files.entries kind,
      Path.isSafe e.name = true) ∧
      ∃ session, runScript (.ofDataFile "a.txt") {} 3 "CopyDataFile a.txt \".. /\"" =
        .ended .finished session ∧
        session.plan.dataOutputs = [".."] ∧
        ∀ output ∈ session.plan.outputs, Path.isRooted output.toList = false ∧
          ':' ∉ output.toList ∧
          Path.up ∉ (Text.splitAt Path.isSeparator output.toList).dropLast ∧
          (Path.isSafe output = true ↔
          Text.trimEnd (Path.fileName output).toList ≠ Path.up) := by
  obtain ⟨hsafe, session, hrun, houtputs⟩ := outputs_of_hidden_parent
  exact ⟨hsafe, session, hrun, houtputs, isSafe_output_iff_of_runScript hsafe hrun⟩

end InstallScript
