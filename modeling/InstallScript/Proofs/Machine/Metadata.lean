import InstallScript.Proofs.Machine.Reached
import InstallScript.Proofs.Plan.Metadata

/-!
The metadata that runs give to plugins. A statement adds to the metadata that a plan has collected
exactly if it is one of the statements for metadata, so at the end of a run each staged plugin has
the metadata that the statements carried out for its key give, however plugins were staged and
unstaged between them.
-/

namespace InstallScript

open Script

namespace Instruction

/-- The metadata that a statement gives to the plugin it names. -/
def flagChange? (kind : Keyword) (values : List String) : Option FlagChange :=
  match kind with
  | .uncheckEsp => some .uncheck
  | .loadEarly => some .loadEarly
  | .setDeactivationWarning => (values[1]?.bind Deactivation.ofName?).map .deactivation
  | .loadBefore => values[1]?.map .loadBefore
  | .loadAfter => values[1]?.map .loadAfter
  | _ => none

/-- The plugin that a statement gives metadata, and the metadata. -/
def metadata? (kind : Keyword) (values : List String) : Option (String × FlagChange) := do
  let change ← flagChange? kind values
  let plugin ← values[0]?
  some (plugin, change)

theorem metadata?_of_flagChange? {kind : Keyword} {values : List String} {plugin : String}
    {change : FlagChange} (hplugin : values[0]? = some plugin)
    (hchange : flagChange? kind values = some change) :
    metadata? kind values = some (plugin, change) := by
  simp [metadata?, hplugin, hchange]

end Instruction

/-- The metadata among the changes of an effect. -/
def Effect.metadata : Effect → List (String × FlagChange)
  | .change changes => changes.filterMap Change.flag?
  | _ => []

theorem Plan.Gathers.planAfter {p : Plan} {history : List (String × FlagChange)}
    (h : p.Gathers history) (effect : Effect) :
    (effect.planAfter p).Gathers (history ++ effect.metadata) := by
  cases effect with
  | change changes => exact h.applyAll changes
  | _ =>
    change p.Gathers (history ++ [])
    rw [List.append_nil]
    exact h

namespace Argument

theorem get_eq_ok_iff {args : List String} {index : Nat} {value : String} :
    get args index = .ok value ↔ args[index]? = some value := by
  unfold get
  split <;> simp_all

end Argument

namespace Instruction

variable {files : FileSet} {plan : Plan}

theorem metadata_flagPlugin (name : String) (change : FlagChange) :
    (flagPlugin files plan name change).Ensures fun effect =>
      effect.metadata = [(name, change)] := by
  simp only [flagPlugin, Except.ensures_bind, Except.ensures_pure, Effect.metadata,
    List.filterMap_append]
  intro staging hstaging
  unfold stage at hstaging
  split at hstaging
  · cases hstaging
    rfl
  · obtain ⟨e, -, hstaging⟩ := Except.bind_eq_ok_iff.mp hstaging
    cases hstaging
    rfl

/-- A statement for metadata is settled to its metadata, after what stages its plugin; any other is
    settled to none. -/
theorem metadata_interpret (site : Site) (plan : Plan) (line : Nat) (kind : Keyword)
    (values : List String) :
    (interpret site plan line kind values).Ensures fun effect =>
      effect.metadata = (metadata? kind values).toList := by
  have hflag : ∀ plugin change, values[0]? = some plugin →
      flagChange? kind values = some change →
      (flagPlugin site.files plan plugin change).Ensures fun effect =>
        effect.metadata = (metadata? kind values).toList := by
    intro plugin change hplugin hchange
    rw [metadata?_of_flagChange? hplugin hchange]
    exact metadata_flagPlugin plugin change
  cases kind with
  | uncheckEsp | loadEarly =>
    simp only [interpret, Except.ensures_bind, Argument.get_eq_ok_iff]
    exact fun plugin hplugin => hflag plugin _ hplugin rfl
  | loadBefore | loadAfter =>
    simp only [interpret, Except.ensures_bind, Argument.get_eq_ok_iff]
    exact fun plugin hplugin other hother => hflag plugin _ hplugin (by simp [flagChange?, hother])
  | setDeactivationWarning =>
    simp only [interpret, Except.ensures_bind, Argument.get_eq_ok_iff]
    intro value hvalue
    split
    · rename_i status hstatus
      simp only [Except.ensures_bind, Argument.get_eq_ok_iff]
      exact fun plugin hplugin => hflag plugin _ hplugin (by simp [flagChange?, hvalue, hstatus])
    · exact Except.ensures_throw _
  | installAllPlugins | installAllDataFiles =>
    simp [interpret, installAll, Effect.metadata, metadata?, flagChange?, Change.flag?]
  | installDataFolder | dontInstallDataFolder | copyDataFolder =>
    simp [interpret, Effect.metadata, metadata?, flagChange?, Change.flag?]
  | displayText =>
    simp only [interpret, showText, Except.ensures_bind]
    intro name _ e _
    split
    · simp [Effect.metadata, metadata?, flagChange?]
    · split <;> simp [Effect.metadata, metadata?, flagChange?]
  | iSet | fSet =>
    simp only [interpret, evaluate, Except.ensures_bind]
    intro name _
    split <;> simp [Effect.metadata, metadata?, flagChange?]
  | _ =>
    simp [interpret, declare, editShader, setRecord, setValue, patch, assignPath,
      Effect.metadata, metadata?, flagChange?, Change.flag?]

end Instruction

/-- The plugin that a statement gives metadata once its arguments have been put in, and the
    metadata. -/
def Script.Statement.metadata? (vars : Variables) (statement : Statement) :
    Option (String × FlagChange) :=
  match statement.command with
  | .instruction kind args =>
    match vars.substituteAll args with
    | .ok values => Instruction.metadata? kind values
    | .error _ => none
  | _ => none

/-- A statement adds its metadata to what a plan has collected, and nothing else. -/
theorem Script.Statement.Makes.gathers {site : Site} {vars : Variables} {statement : Statement}
    {p q : Plan} {history : List (String × FlagChange)} (h : statement.Makes site vars p q)
    (hp : p.Gathers history) :
    q.Gathers (history ++ (statement.metadata? vars).toList) := by
  obtain ⟨line, command⟩ := statement
  cases command with
  | instruction kind args =>
    by_cases hexec : kind = .execLines
    · -- The statements of a nested program add their metadata when they are carried out.
      subst hexec
      have hnone : (metadata? vars ⟨line, .instruction .execLines args⟩).toList = [] := by
        cases hvalues : vars.substituteAll args <;>
          simp [metadata?, hvalues, Instruction.metadata?, Instruction.flagChange?]
      rw [hnone, List.append_nil]
      exact h ▸ hp
    · obtain ⟨values, effect, hvalues, heffect, rfl⟩ := (makes_instruction hexec).mp h
      have hmetadata := Instruction.metadata_interpret site p line kind values effect heffect
      have hsome : metadata? vars ⟨line, .instruction kind args⟩ =
          Instruction.metadata? kind values := by
        simp only [metadata?, hvalues]
      rw [hsome, ← hmetadata]
      exact hp.planAfter effect
  | _ =>
    change q.Gathers (history ++ [])
    rw [List.append_nil]
    exact h ▸ hp

namespace Machine

variable {σ : Type} (ctx : Context σ)

/-- The plugin to which the statement that a run has come to gives metadata, and the metadata. -/
def metadata? (m : Machine σ) : Option (String × FlagChange) :=
  m.statement?.bind (Statement.metadata? m.session.vars)

/-- The states from which a run took a step that did not fail, in order. -/
def passed : (steps : Nat) → Machine σ → List (Machine σ)
  | 0, _ => []
  | steps + 1, m =>
    match m.step ctx with
    | .next next => m :: passed steps next
    | .ended _ _ => [m]
    | .failed _ _ => []

/-- The metadata of the statements that a run carried out, in order, each with the plugin it was
    for. -/
def metadata (steps : Nat) (m : Machine σ) : List (String × FlagChange) :=
  (m.passed ctx steps).filterMap metadata?

theorem Makes.gathers {m : Machine σ} {site : Site} {plan : Plan}
    {history : List (String × FlagChange)} (h : m.Makes site plan)
    (hm : m.session.plan.Gathers history) :
    plan.Gathers (history ++ m.metadata?.toList) := by
  unfold Makes at h
  split at h
  · rename_i statement hstatement
    rw [metadata?, hstatement]
    exact Statement.Makes.gathers h hm
  · rename_i hnone
    rw [metadata?, hnone, h]
    exact (List.append_nil history).symm ▸ hm

/-- Whatever a run does, its plan has collected the metadata of the statements that it carried
    out. -/
theorem gathers_run (steps : Nat) {m : Machine σ} {history : List (String × FlagChange)}
    (h : m.session.plan.Gathers history) :
    (m.run ctx steps).session.plan.Gathers (history ++ m.metadata ctx steps) := by
  induction steps generalizing m history with
  | zero => exact (List.append_nil history).symm ▸ h
  | succ steps ih =>
    have hstep := m.makes_step ctx
    simp only [run, metadata, passed]
    generalize m.step ctx = r at hstep
    cases r with
    | next next =>
      have hnext := ih (hstep.gathers h)
      cases hmetadata : m.metadata? <;> simpa [hmetadata, metadata] using hnext
    | ended completion session =>
      have hlast := hstep.gathers h
      cases hmetadata : m.metadata? <;> simpa [hmetadata, Outcome.session] using hlast
    | failed failure session =>
      change session.plan.Gathers (history ++ [])
      rw [hstep.2, List.append_nil]
      exact h

end Machine

/-- The metadata of the statements that the run of a script carries out. -/
def scriptMetadata {σ : Type} (ctx : Context σ) (host : σ) (steps : Nat) (text : String) :
    List (String × FlagChange) :=
  match Program.parse text with
  | .ok program => (Machine.start program (Session.loaded host program)).metadata ctx steps
  | .error _ => []

/-- Whether a run came to the end of its program. -/
def Outcome.isFinished {σ : Type} : Outcome σ → Bool
  | .ended .finished _ => true
  | _ => false

theorem Outcome.eq_of_isFinished {σ : Type} {outcome : Outcome σ}
    (h : outcome.isFinished = true) :
    outcome = .ended .finished outcome.session := by
  unfold isFinished at h
  split at h
  · rfl
  · cases h

/-- When a script has come to its end, each plugin staged under a key has the metadata that the
    statements carried out for that key add up to, and default metadata if there was none. No
    metadata is left over, and there is nothing left to finish. Finishing any plan gives it no
    plugins, and finishing it again changes nothing. -/
theorem flags_sum_of_runScript {σ : Type} {ctx : Context σ} {host : σ} {steps : Nat}
    {text : String} {completion : Completion} {session : Session σ}
    (h : runScript ctx host steps text = .ended completion session) :
    (∀ key plugin, session.plan.pluginFiles.get? key = some plugin →
      plugin.flags.Sums (changesFor key (scriptMetadata ctx host steps text)) ∧
      (changesFor key (scriptMetadata ctx host steps text) = [] → plugin.flags = {})) ∧
    session.plan.pendingFlags = .empty ∧ session.plan.finalize = session.plan ∧
    ∀ p : Plan, p.finalize.pluginFiles.keys = p.pluginFiles.keys ∧
      p.finalize.finalize = p.finalize := by
  obtain ⟨program, last, hparse, hrun, rfl⟩ := execute_of_runScript h
  have hmetadata : scriptMetadata ctx host steps text =
      (Machine.start program (Session.loaded host program)).metadata ctx steps := by
    simp only [scriptMetadata, hparse]
  have hgathers : last.plan.Gathers (scriptMetadata ctx host steps text) := by
    have hempty : (Machine.start program (Session.loaded host program)).session.plan.Gathers [] :=
      Plan.gathers_empty
    have hstart := Machine.gathers_run ctx steps hempty
    rw [← Session.execute, hrun, List.nil_append, ← hmetadata] at hstart
    exact hstart
  have hkept : last.plan.WellKept ctx.files := by
    have hempty : (Session.loaded host program).plan.WellKept ctx.files := .empty ctx.files
    have hstart := Session.wellKept_execute hempty steps program
    rw [hrun] at hstart
    exact hstart
  refine ⟨fun key plugin hplugin => ?_, rfl, last.plan.finalize_finalize, fun p => ?_⟩
  · have hsums : plugin.flags.Sums (changesFor key (scriptMetadata ctx host steps text)) :=
      hgathers.sums_of_finalize hkept hplugin
    refine ⟨hsums, fun hnone => ?_⟩
    rw [hnone] at hsums
    exact hsums.eq_default
  · exact ⟨p.keys_finalize, p.finalize_finalize⟩

/-- A plugin that is unstaged and staged again by metadata under another spelling keeps what it was
    given before. -/
theorem flags_sum_of_runScript_with_restaging :
    let ctx : Context Prepared :=
      ⟨⟨.default, ⟨[], [⟨"A.esp", 0, 0, 0⟩]⟩, .empty⟩, Prepared.host⟩
    let text := "LoadAfter A.esp B\nDontInstallAnyPlugins\nLoadAfter a.esp b"
    ∃ session plugin, runScript ctx {} 5 text = .ended .finished session ∧
      session.plan.pluginFiles.get? "a.esp" = some plugin ∧
        plugin.flags = { loadAfter := ["B"] } ∧
      plugin.flags.Sums [.loadAfter "B", .loadAfter "b"] := by
  intro ctx text
  have hrun : (runScript ctx {} 5 text).isFinished = true ∧
      (runScript ctx {} 5 text).session.plan.pluginFiles.get? "a.esp" =
        some ⟨⟨"A.esp", 0, 0, 0⟩, "A.esp", { loadAfter := ["B"] }⟩ ∧
      scriptMetadata ctx {} 5 text = [("A.esp", .loadAfter "B"), ("a.esp", .loadAfter "b")] := by
    decide +kernel
  obtain ⟨hfinished, hplugin, hmetadata⟩ := hrun
  have hended := Outcome.eq_of_isFinished hfinished
  have hsums := ((flags_sum_of_runScript hended).1 "a.esp" _ hplugin).1
  rw [hmetadata] at hsums
  exact ⟨_, _, hended, hplugin, rfl, hsums⟩

end InstallScript
