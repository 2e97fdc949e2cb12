import InstallScript.Proofs.Machine.FailedStatement
import InstallScript.Proofs.Machine.Metadata
import InstallScript.Proofs.Plan.Repeated

/-!
Statements that are carried out twice. A statement for the plan is settled to the same changes
whatever the plan is, except that a plugin is only staged before it gets metadata if it is not
staged yet. So it succeeds again if it succeeded, and the finished plan is the same.
-/

namespace InstallScript

open Script

/-- Whether statements of a kind change the plan. -/
def Script.Keyword.changesPlan : Keyword → Bool
  | .installAllPlugins | .installAllDataFiles | .dontInstallAnyPlugins | .dontInstallAnyDataFiles
  | .installPlugin | .dontInstallPlugin | .installDataFile | .dontInstallDataFile
  | .installDataFolder | .dontInstallDataFolder | .copyPlugin | .copyDataFile | .copyDataFolder
  | .uncheckEsp | .setDeactivationWarning | .loadEarly | .loadBefore | .loadAfter
  | .conflictsWith | .dependsOn | .conflictsWithRegex | .dependsOnRegex
  | .editIni | .editSdp | .editShader | .setGmst | .setGlobal
  | .setPluginByte | .setPluginShort | .setPluginInt | .setPluginLong | .setPluginFloat
  | .editXmlLine | .editXmlReplace | .patchPlugin | .patchDataFile
  | .registerBsa | .unregisterBsa => true
  | _ => false

/-- Whether statements of a kind give metadata to a plugin. -/
def Script.Keyword.flagsPlugin : Keyword → Bool
  | .uncheckEsp | .setDeactivationWarning | .loadEarly | .loadBefore | .loadAfter => true
  | _ => false

namespace Effect

/-- Whether an effect is to make changes that can be made again. -/
def Repeatable (effect : Effect) : Prop :=
  ∃ changes, effect = .change changes ∧ Change.Repeatable changes

theorem repeatable_single (c : Change) : (Effect.change [c]).Repeatable :=
  ⟨[c], rfl, Change.repeatable_single c⟩

/-- Whether something that is settled to changes is settled again on the changed plan, to changes
    that make no difference to the finished plan. -/
def Repeating (settle : Plan → Except RunCause Effect) : Prop :=
  ∀ p, (settle p).Ensures fun effect => ∃ changes, effect = .change changes ∧
    ∃ again, settle (Change.applyAll changes p) = .ok (.change again) ∧
      (Change.applyAll again (Change.applyAll changes p)).finalize =
        (Change.applyAll changes p).finalize

/-- What does not depend on the plan repeats if its changes can be made again. -/
theorem repeating_const {x : Except RunCause Effect} (hx : x.Ensures Repeatable) :
    Repeating fun _ => x := by
  intro p effect heffect
  obtain ⟨changes, rfl, hchanges⟩ := hx effect heffect
  exact ⟨changes, rfl, changes, heffect, hchanges p⟩

/-- What is read from the arguments is the same when a statement is repeated. -/
theorem repeating_bind {α : Type} {x : Except RunCause α}
    {f : α → Plan → Except RunCause Effect} (h : ∀ a, Repeating (f a)) :
    Repeating fun p => x >>= fun a => f a p := by
  intro p
  cases x with
  | ok a => exact h a p
  | error cause => exact nofun

end Effect

namespace Instruction

section Metadata

variable {files : FileSet} {p : Plan} {name : String}

theorem flagPlugin_of_stage {staging : List Change} (h : stage files p name = .ok staging)
    (change : FlagChange) :
    flagPlugin files p name change = .ok (.change (staging ++ [.flag name change])) := by
  rw [flagPlugin, h]
  rfl

theorem applyAll_flag (staging : List Change) (change : FlagChange) :
    Change.applyAll (staging ++ [.flag name change]) p =
      (Change.applyAll staging p).updateFlags name change.apply := by
  rw [Change.applyAll, List.foldl_append]
  rfl

/-- What stages a plugin can be done again once it has metadata, and changes nothing then. -/
theorem stage_again {staging : List Change} (h : stage files p name = .ok staging)
    (f : PluginFlags → PluginFlags) :
    ∃ again, stage files ((Change.applyAll staging p).updateFlags name f) name = .ok again ∧
      Change.applyAll again ((Change.applyAll staging p).updateFlags name f) =
        (Change.applyAll staging p).updateFlags name f := by
  cases hagain : ((Change.applyAll staging p).updateFlags name f).hasPlugin name with
  | true => exact ⟨[], if_pos hagain, rfl⟩
  | false =>
    unfold stage at h
    split at h
    · rename_i hbefore
      cases h
      cases hbefore.symm.trans hagain
    · obtain ⟨e, he, h⟩ := Except.bind_eq_ok_iff.mp h
      cases h
      refine ⟨[.installPlugin e e.name], ?_, ?_⟩
      · rw [stage, hagain, he]
        rfl
      · exact congrArg (Plan.updateFlags · name f)
          (Change.applyAll_installPlugin_twice (·.name) [e] p)

/-- Giving a plugin metadata again finds it staged, or stages it as before. -/
theorem repeating_flagPlugin (change : FlagChange) :
    Effect.Repeating fun p => flagPlugin files p name change := by
  intro p effect heffect
  obtain ⟨staging, hstaging, heffect⟩ := Except.bind_eq_ok_iff.mp heffect
  cases heffect
  obtain ⟨again, hagain, hsame⟩ := stage_again hstaging change.apply
  rw [← applyAll_flag] at hagain hsame
  refine ⟨_, rfl, _, flagPlugin_of_stage hagain change, ?_⟩
  rw [applyAll_flag, hsame, applyAll_flag, Plan.updateFlags_updateFlags]

end Metadata

variable (site : Site) (line : Nat) {kind : Keyword} (values : List String)

theorem repeatable_interpret (p : Plan) (hplan : kind.changesPlan = true)
    (hflag : kind.flagsPlugin = false) :
    (interpret site p line kind values).Ensures Effect.Repeatable := by
  cases kind with
  | uncheckEsp | setDeactivationWarning | loadEarly | loadBefore | loadAfter => cases hflag
  | installAllPlugins =>
    simp only [interpret, Except.ensures_pure]
    exact ⟨_, rfl, Change.repeatable_installPlugin (·.name) _⟩
  | installAllDataFiles =>
    simp only [interpret, Except.ensures_pure]
    exact ⟨_, rfl, Change.repeatable_installData (·.name) _⟩
  | installDataFolder =>
    simp only [interpret, Except.ensures_bind, Except.ensures_pure]
    exact fun _ _ _ _ entries _ => ⟨_, rfl, Change.repeatable_installData (·.name) entries⟩
  | dontInstallDataFolder =>
    simp only [interpret, Except.ensures_bind, Except.ensures_pure]
    exact fun _ _ _ _ entries _ => ⟨_, rfl, Change.repeatable_removeData (·.name) entries⟩
  | copyDataFolder =>
    simp only [interpret, Except.ensures_bind, Except.ensures_pure]
    exact fun _ _ _ _ target _ folder _ entries _ =>
      ⟨_, rfl, Change.repeatable_installData (copiedPath folder target) entries⟩
  | dontInstallAnyPlugins | dontInstallAnyDataFiles | installPlugin | dontInstallPlugin
  | installDataFile
  | dontInstallDataFile | copyPlugin | copyDataFile | conflictsWith | dependsOn | conflictsWithRegex
  | dependsOnRegex
  | editIni | editSdp | editShader | setGmst | setGlobal | setPluginByte
  | setPluginShort | setPluginInt
  | setPluginLong | setPluginFloat | editXmlLine | editXmlReplace | patchPlugin
  | patchDataFile | registerBsa
  | unregisterBsa =>
    simp [interpret, declare, editShader, setRecord, setValue, patch, Effect.repeatable_single]
  | _ => cases hplan

/-- A statement for the plan that is settled can be settled again on the changed plan, to changes
    that make no difference to the finished plan. -/
theorem repeating_interpret (hplan : kind.changesPlan = true) :
    Effect.Repeating fun p => interpret site p line kind values := by
  cases hflag : kind.flagsPlugin with
  | false =>
    have hconst : (fun p => interpret site p line kind values) =
        fun _ => interpret site default line kind values := by
      funext p
      cases kind with
      | uncheckEsp | setDeactivationWarning | loadEarly | loadBefore | loadAfter => cases hflag
      | _ => rfl
    rw [hconst]
    exact Effect.repeating_const (repeatable_interpret site line values default hplan hflag)
  | true =>
    cases kind with
    | uncheckEsp | loadEarly => exact Effect.repeating_bind fun name => repeating_flagPlugin _
    | loadBefore | loadAfter =>
      exact Effect.repeating_bind fun name => Effect.repeating_bind fun other =>
        repeating_flagPlugin _
    | setDeactivationWarning =>
      refine Effect.repeating_bind fun value => ?_
      split
      · exact Effect.repeating_bind fun name => repeating_flagPlugin _
      · exact Effect.repeating_const (Except.ensures_throw _)
    | _ => cases hflag

/-- A statement of any other kind leaves the plan alone. -/
theorem keeps_interpret (p : Plan) (hplan : kind.changesPlan = false) :
    (interpret site p line kind values).Ensures fun effect => effect.planAfter p = p := by
  cases kind with
  | displayText =>
    simp only [interpret, showText, Except.ensures_bind]
    intro name _ e _
    split
    · simp [Effect.planAfter]
    · split <;> simp [Effect.planAfter]
  | iSet | fSet =>
    simp only [interpret, evaluate, Except.ensures_bind]
    intro name _
    split <;> simp [Effect.planAfter]
  | _ => first | exact absurd hplan (by decide) | simp [interpret, assignPath, Effect.planAfter]

/-- Carrying out a statement for the plan once more, after it succeeded, succeeds again, and the
    finished plan is the same after both. Statements of other kinds do not change the plan. -/
theorem repeats_carryOut {σ : Type} (ctx : Context σ) (line : Nat) (kind : Keyword)
    (values : List String) (s t : Session σ)
    (h : (carryOut ctx line kind values).run.run s = (.ok (), t)) :
    (kind.changesPlan = true → ∃ u, (carryOut ctx line kind values).run.run t = (.ok (), u) ∧
      u.plan.finalize = t.plan.finalize) ∧
    (kind.changesPlan = false → t.plan = s.plan) := by
  cases heffect : interpret ctx.toSite s.plan line kind values with
  | error cause => cases (run_carryOut_error ctx line heffect).symm.trans h
  | ok effect =>
    constructor
    · intro hplan
      obtain ⟨changes, rfl, again, hagain, hsame⟩ :=
        repeating_interpret ctx.toSite line values hplan s.plan effect heffect
      cases (run_carryOut_change ctx line heffect).symm.trans h
      exact ⟨_, run_carryOut_change ctx line hagain, hsame⟩
    · intro hplan
      have hplans := (effect.plans_perform ctx line).of_run s ⟨rfl, rfl⟩
      rw [← run_carryOut_ok ctx line heffect, h] at hplans
      exact hplans.trans (keeps_interpret ctx.toSite line values s.plan hplan effect heffect)

/-- A conflict that is declared twice is listed twice until the plan is finished. -/
theorem repeats_carryOut_conflictsWith :
    let ctx : Context Prepared := ⟨⟨.default, .empty, .empty⟩, Prepared.host⟩
    let declaring := carryOut ctx 1 .conflictsWith ["other.esp", "incompatible", "Minor"]
    ∃ t u, declaring.run.run (Session.start {}) = (.ok (), t) ∧
      declaring.run.run t = (.ok (), u) ∧
      t.plan.conflicts.length = 1 ∧ u.plan.conflicts.length = 2 ∧
          u.plan.finalize = t.plan.finalize := by
  intro ctx declaring
  obtain ⟨t, ht⟩ : ∃ t, declaring.run.run (Session.start {}) = (.ok (), t) := ⟨_, rfl⟩
  obtain ⟨u, hu, hsame⟩ := (repeats_carryOut ctx 1 .conflictsWith _ _ t ht).1 rfl
  refine ⟨t, u, ht, hu, ?_, ?_, hsame⟩
  · cases ht
    rfl
  · cases ht
    cases hu
    rfl

end Instruction

end InstallScript
