import InstallScript.Host.Prepared
import InstallScript.Proofs.Machine.Nesting

/-!
Dry runs do not look at the disk. What a statement is settled to and what a loop walks over depend
on the disk only where the settings allow it to be read, and nothing else of a run sees the disk at
all; so two dry runs that differ in their disks go through the same states.
-/

namespace InstallScript

open Script

/-- The same surroundings of a run, with another disk. -/
def Site.withDisk (site : Site) (disk : Disk) : Site :=
  { site with disk }

/-- The same surroundings and host of a run, with another disk. -/
def Context.withDisk {σ : Type} (ctx : Context σ) (disk : Disk) : Context σ :=
  ⟨ctx.toSite.withDisk disk, ctx.host⟩

@[simp] theorem Site.files_withDisk (site : Site) (disk : Disk) :
    (site.withDisk disk).files = site.files := rfl

@[simp] theorem Site.settings_withDisk (site : Site) (disk : Disk) :
    (site.withDisk disk).settings = site.settings := rfl

section Site

variable {site : Site} (hdry : site.settings.dryRun = true) (disk : Disk)

include hdry

theorem Listing.read_withDisk (line : Nat) (kind : Enumeration) (folder : String) (recurse : Bool)
    (pattern : Option String) :
    Listing.read (site.withDisk disk) line kind folder recurse pattern =
      Listing.read site line kind folder recurse pattern := by
  simp only [Listing.read, Site.files_withDisk, Site.settings_withDisk, hdry, if_true]

theorem LoopState.ofHeader_withDisk (vars : Variables) (line : Nat) (header : LoopHeader) :
    LoopState.ofHeader (site.withDisk disk) vars line header =
      LoopState.ofHeader site vars line header := by
  cases header with
  | count variableName start stop step => rfl
  | each kind variableName folder recurse pattern =>
    simp only [LoopState.ofHeader, Listing.read_withDisk hdry disk]

theorem Instruction.showText_withDisk (line : Nat) (args : List String) :
    showText (site.withDisk disk) line args = showText site line args := by
  simp only [showText, Site.files_withDisk, Site.settings_withDisk, hdry, if_true]

/-- What a statement is settled to in a dry run does not depend on the disk. -/
theorem Instruction.interpret_withDisk (plan : Plan) (line : Nat) (kind : Keyword)
    (args : List String) :
    interpret (site.withDisk disk) plan line kind args = interpret site plan line kind args := by
  cases kind with
  | displayText => exact showText_withDisk hdry disk line args
  | _ => simp only [interpret, Site.files_withDisk, Site.settings_withDisk]

end Site

section Run

variable {σ : Type} {ctx : Context σ} (hdry : ctx.settings.dryRun = true) (disk : Disk)

include hdry

theorem Instruction.run_withDisk (line : Nat) (kind : Keyword) (args : List String) :
    Instruction.run (ctx.withDisk disk) line kind args = Instruction.run ctx line kind args := by
  have hinterpret : ∀ plan values, interpret (ctx.withDisk disk).toSite plan line kind values =
      interpret ctx.toSite plan line kind values :=
    fun plan values => interpret_withDisk hdry disk plan line kind values
  simp only [run_eq, hinterpret]
  rfl

/-- A statement does the same in a dry run whatever is on the disk. -/
theorem Activation.act_withDisk (a : Activation) (depth : Nat) (statement : Statement) :
    a.act (ctx.withDisk disk) depth statement = a.act ctx depth statement := by
  obtain ⟨line, command⟩ := statement
  cases command with
  | forLoop header =>
    have hheader : ∀ vars, LoopState.ofHeader (ctx.withDisk disk).toSite vars line header =
        LoopState.ofHeader ctx.toSite vars line header :=
      fun vars => LoopState.ofHeader_withDisk hdry disk vars line header
    simp only [act, hheader]
  | instruction kind args =>
    by_cases hexec : kind = .execLines
    · subst hexec
      rfl
    · rw [act_instruction a _ depth line args hexec, act_instruction a ctx depth line args hexec,
        Instruction.run_withDisk hdry disk]
  | _ => rfl

theorem Machine.step_withDisk (m : Machine σ) : m.step (ctx.withDisk disk) = m.step ctx := by
  simp only [Machine.step, Activation.act_withDisk hdry disk]

theorem Machine.run_withDisk (steps : Nat) (m : Machine σ) :
    m.run (ctx.withDisk disk) steps = m.run ctx steps := by
  induction steps generalizing m with
  | zero => rfl
  | succ steps ih => simp only [Machine.run, Machine.step_withDisk hdry disk, ih]

end Run

/-- Two dry runs of one script, for one package, on one host and with one state of it, stand the
    same after any number of steps, whatever is on the disk of either: both have ended or failed
    alike, with the same plan and after the same events, or neither has ended. The state of a host
    can hold the calls it got, so these are the same too. -/
theorem runScript_eq_of_dryRun {σ : Type} {settings : Settings} (hdry : settings.dryRun = true)
    (files : FileSet) (host : Host σ) (first second : Disk) (state : σ) (steps : Nat)
    (text : String) :
    runScript ⟨⟨settings, files, first⟩, host⟩ state steps text =
      runScript ⟨⟨settings, files, second⟩, host⟩ state steps text := by
  let ctx : Context σ := ⟨⟨settings, files, second⟩, host⟩
  have hctx : (⟨⟨settings, files, first⟩, host⟩ : Context σ) = ctx.withDisk first := rfl
  have hdry : ctx.settings.dryRun = true := hdry
  simp only [hctx, runScript, Session.execute, Machine.run_withDisk hdry first]
  rfl

/-- A loop over the data files and a text that is shown, on two disks that hold different files. -/
theorem runScript_eq_of_dryRun_with_loop :
    let settings : Settings := { Settings.default with dryRun := true }
    let files : FileSet := ⟨[⟨"a.txt", 0, 0, 0⟩], []⟩
    let full : Disk := Disk.empty.add "data/b.txt" [0x68]
    let text := "For Each DataFile f \"\"\nDisplayText %f%\nEndFor"
    settings.dryRun = true ∧
      (Listing.ofDisk ⟨settings, files, full⟩ 1 .dataFile "" false).1 = ["b.txt"] ∧
      (Listing.ofDisk ⟨settings, files, .empty⟩ 1 .dataFile "" false).1 = [] ∧
      runScript ⟨⟨settings, files, full⟩, Prepared.host⟩ {} 5 text =
        runScript ⟨⟨settings, files, .empty⟩, Prepared.host⟩ {} 5 text := by
  intro settings files full text
  have hdry : settings.dryRun = true := rfl
  refine ⟨hdry, by decide +kernel, by decide +kernel, ?_⟩
  exact runScript_eq_of_dryRun hdry files Prepared.host full .empty {} 5 text

end InstallScript
