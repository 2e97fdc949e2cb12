import InstallScript.Proofs.Machine.Metadata
import InstallScript.Proofs.Plan.Addressing

/-!
How statements spell the files they name. A file is looked up without regard to the case of ASCII
letters, while plans file what is staged under lower-case forms that know every letter. Where the
package lists its files under canonical paths, whatever spelling a file is found by has the key of
the file; so what a statement stages, unstages or gives metadata lies under the key of the name that
it was written with.
-/

namespace InstallScript

open Script

/-- Whether a package lists its files under canonical paths. -/
def FileSet.IsCanonical (files : FileSet) : Prop :=
  ∀ kind, ∀ e ∈ files.entries kind, Path.normalize e.name = e.name

section Found

variable {files : FileSet} {kind : FileKind} {name : String} {e : Entry}

/-- A file has the key of every spelling that it is found by. -/
theorem FileSet.key_of_find? (hcanonical : files.IsCanonical) (h : files.find? kind name = some e) :
    Path.key e.name = Path.key name := by
  have hsame : Text.sameName e.name (Path.normalize name) = true :=
    List.find?_some (p := fun e : Entry => Text.sameName e.name (Path.normalize name)) h
  have hnormal := hcanonical kind e (List.mem_of_find?_eq_some h)
  calc Path.key e.name
    _ = Text.lower e.name := by rw [Path.key, hnormal]
    _ = Path.key name := Text.lower_eq_of_sameName hsame

theorem Argument.entry_eq_ok_iff : Argument.entry files kind name = .ok e ↔
    files.find? kind name = some e := by
  unfold Argument.entry
  split <;> simp_all

/-- What is staged under the own name of a file is filed under every spelling that the file is found
    by. -/
theorem FileSet.key_normalize_of_find? (hcanonical : files.IsCanonical)
    (h : files.find? kind name = some e) :
    Path.key (Path.normalize e.name) = Path.key name := by
  rw [hcanonical kind e (List.mem_of_find?_eq_some h)]
  exact key_of_find? hcanonical h

end Found

namespace Instruction

variable {files : FileSet} {plan : Plan} {name : String}

/-- Whether a plugin is staged under the key of a name, and is the one that gets metadata when the
    plan is finished. -/
def Flags (name : String) (flags : PluginFlags) (after : Plan) : Prop :=
  ∃ plugin, after.pluginFiles.get? (Path.key name) = some plugin ∧
    after.finalize.pluginFiles.get? (Path.key name) = some { plugin with flags := flags }

/-- What a statement leaves in the plan of the file that its first argument names, under the key of
    that name. -/
def Leaves (files : FileSet) (kind : Keyword) (values : List String) (name : String)
    (before after : Plan) : Prop :=
  match kind with
  | .installPlugin => ∃ e plugin, files.find? .plugin name = some e ∧
    after.pluginFiles.get? (Path.key name) = some plugin ∧ plugin.source = e
  | .installDataFile => ∃ e file, files.find? .data name = some e ∧
    after.dataFiles.get? (Path.key name) = some file ∧ file.source = e
  | .dontInstallPlugin => after.pluginFiles.get? (Path.key name) = none
  | .dontInstallDataFile => after.dataFiles.get? (Path.key name) = none
  | .uncheckEsp | .loadEarly | .loadBefore | .loadAfter | .setDeactivationWarning =>
    ∃ change, flagChange? kind values = some change ∧
      Flags name (change.apply (before.flagsOf name)) after
  | _ => True

/-- A plugin that is staged for metadata is staged under the key of the name that the metadata is
    collected for. -/
theorem get?_of_stage (hcanonical : files.IsCanonical) :
    (stage files plan name).Ensures fun staging =>
    (∃ plugin, (Change.applyAll staging plan).pluginFiles.get? (Path.key name) = some plugin) ∧
      (Change.applyAll staging plan).pendingFlags = plan.pendingFlags := by
  intro staging hstaging
  unfold stage at hstaging
  split at hstaging
  · rename_i hstaged
    cases hstaging
    exact ⟨(plan.hasPlugin_iff name).mp hstaged, rfl⟩
  · obtain ⟨e, he, hstaging⟩ := Except.bind_eq_ok_iff.mp hstaging
    cases hstaging
    have hkey := FileSet.key_normalize_of_find? hcanonical (Argument.entry_eq_ok_iff.mp he)
    refine ⟨⟨plan.staged e e.name, ?_⟩, rfl⟩
    exact (plan.get?_installPlugin e e.name _).trans (if_pos hkey.symm)

theorem flags_flagPlugin (hcanonical : files.IsCanonical) (change : FlagChange) :
    (flagPlugin files plan name change).Ensures fun effect =>
      Flags name (change.apply (plan.flagsOf name)) (effect.planAfter plan) := by
  intro effect heffect
  obtain ⟨staging, hstaging, heffect⟩ := Except.bind_eq_ok_iff.mp heffect
  cases heffect
  obtain ⟨⟨plugin, hplugin⟩, hpending⟩ := get?_of_stage hcanonical staging hstaging
  have hplan : (Effect.change (staging ++ [.flag name change])).planAfter plan =
      (Change.applyAll staging plan).updateFlags name change.apply := by
    simp only [Effect.planAfter, Change.applyAll, List.foldl_append]
    rfl
  have hbefore : (Change.applyAll staging plan).flagsOf name = plan.flagsOf name := by
    rw [Plan.flagsOf, hpending]
    rfl
  rw [hplan]
  refine ⟨plugin, hplugin, ?_⟩
  rw [Plan.get?_finalize_updateFlags, hplugin, hbefore]
  rfl

/-- A statement that looks the file up that its first argument names. -/
theorem ensures_entry {values : List String} (hname : values[0]? = some name) {kind : FileKind}
    {f : Entry → Effect} {P : Effect → Prop}
    (h : ∀ e, files.find? kind name = some e → P (f e)) :
    (do
      let e ← Argument.entry files kind (← Argument.get values 0)
      pure (f e) : Except RunCause Effect).Ensures P := by
  simp only [Except.ensures_bind, Except.ensures_pure, Argument.entry_eq_ok_iff,
    Argument.get_eq_ok_iff, hname]
  rintro _ ⟨⟩ e he
  exact h e he

/-- Whatever a statement is settled to, it leaves the file it names under the key of that name. -/
theorem leaves_interpret {site : Site} (hcanonical : site.files.IsCanonical) (plan : Plan)
    (line : Nat) (kind : Keyword) {values : List String} (hname : values[0]? = some name) :
    (interpret site plan line kind values).Ensures fun effect =>
      Leaves site.files kind values name plan (effect.planAfter plan) := by
  cases kind with
  | installPlugin =>
    refine ensures_entry hname fun e he => ⟨e, plan.staged e e.name, he, ?_, rfl⟩
    exact (plan.get?_installPlugin e e.name _).trans
      (if_pos (FileSet.key_normalize_of_find? hcanonical he).symm)
  | installDataFile =>
    refine ensures_entry hname fun e he => ⟨e, ⟨e, Path.normalize e.name⟩, he, ?_, rfl⟩
    exact (plan.get?_installData e e.name _).trans
      (if_pos (FileSet.key_normalize_of_find? hcanonical he).symm)
  | dontInstallPlugin =>
    refine ensures_entry hname fun e he => ?_
    exact (plan.get?_removePlugin e.name _).trans (if_pos (FileSet.key_of_find? hcanonical he).symm)
  | dontInstallDataFile =>
    refine ensures_entry hname fun e he => ?_
    exact (plan.get?_removeData e.name _).trans (if_pos (FileSet.key_of_find? hcanonical he).symm)
  | uncheckEsp | loadEarly =>
    simp only [interpret, Except.ensures_bind, Argument.get_eq_ok_iff, hname]
    rintro _ ⟨⟩ effect heffect
    exact ⟨_, rfl, flags_flagPlugin hcanonical _ effect heffect⟩
  | loadBefore | loadAfter =>
    simp only [interpret, Except.ensures_bind, Argument.get_eq_ok_iff, hname]
    rintro _ ⟨⟩ rival hrival effect heffect
    exact ⟨_, by simp [flagChange?, hrival], flags_flagPlugin hcanonical _ effect heffect⟩
  | setDeactivationWarning =>
    simp only [interpret, Except.ensures_bind, Argument.get_eq_ok_iff]
    intro value hvalue
    split
    · rename_i status hstatus
      simp only [Except.ensures_bind, Argument.get_eq_ok_iff, hname]
      rintro _ ⟨⟩ effect heffect
      exact ⟨_, by simp [flagChange?, hvalue, hstatus],
        flags_flagPlugin hcanonical _ effect heffect⟩
    · exact Except.ensures_throw _
  | _ => exact fun _ _ => trivial

/-- Where a package lists its files under canonical paths, a file has the key of every name that it
    is found by. So a statement that names a file and does not fail, in whatever state, leaves what
    it stages under the key of that name and with that file as its source, leaves nothing there if
    it unstages, and leaves a plugin there if it gives metadata, which is the plugin that has the
    metadata when the plan is finished. Whatever was done since, a plan hands the metadata that was
    collected for one of the names of a file to the plugin that is staged under its own. -/
theorem leaves_run {σ : Type} {ctx : Context σ} (hcanonical : ctx.files.IsCanonical) :
    (∀ kind name e, ctx.files.find? kind name = some e → Path.key e.name = Path.key name) ∧
      (∀ line kind args values name (s t : Session σ), s.vars.substituteAll args = .ok values →
        values[0]? = some name → (Instruction.run ctx line kind args).run.run s = (.ok (), t) →
        Leaves ctx.files kind values name s.plan t.plan) ∧
      ∀ name e (p : Plan) plugin flags, ctx.files.find? .plugin name = some e →
        p.pluginFiles.get? (Path.key e.name) = some plugin →
        p.pendingFlags.get? (Path.key name) = some flags →
        p.finalize.pluginFiles.get? (Path.key e.name) = some { plugin with flags := flags } := by
  refine ⟨fun kind name e h => FileSet.key_of_find? hcanonical h, ?_, ?_⟩
  · intro line kind args values name s t hvalues hname hrun
    by_cases hexec : kind = .execLines
    · subst hexec
      trivial
    · have hplans := (Instruction.plans_run ctx line hexec args).of_run s ⟨rfl, rfl⟩
      rw [hrun] at hplans
      obtain ⟨others, effect, hothers, heffect, hplan⟩ :=
        (Statement.makes_instruction hexec).mp hplans
      cases Except.ok.inj (hvalues.symm.trans hothers)
      rw [hplan]
      exact leaves_interpret hcanonical s.plan line kind hname effect heffect
  · intro name e p plugin flags hfound hstaged hcollected
    rw [← FileSet.key_of_find? hcanonical hfound] at hcollected
    rw [Plan.get?_finalize, hstaged, hcollected]
    rfl

/-- The name of a plugin is written with other ASCII letters and separators than the package has,
    around a capital sigma, which has two lower-case forms. -/
theorem leaves_run_of_capital_sigma :
    let ctx : Context Prepared :=
      ⟨⟨.default, ⟨[], [⟨"Plug\\ΟΔΟΣ.esp", 0, 0, 0⟩]⟩, .empty⟩, Prepared.host⟩
    let s : Session Prepared := .start {}
    ctx.files.IsCanonical ∧
      ctx.files.find? .plugin "plug/ΟΔΟΣ.ESP" = some ⟨"Plug\\ΟΔΟΣ.esp", 0, 0, 0⟩ ∧
      ∃ t, (Instruction.run ctx 1 .uncheckEsp ["plug/ΟΔΟΣ.ESP"]).run.run s = (.ok (), t) ∧
        Flags "plug/ΟΔΟΣ.ESP" { isUnchecked := true } t.plan := by
  intro ctx s
  have hcanonical : ctx.files.IsCanonical := by
    rintro (_ | _) e he
    · cases he
    · cases List.mem_singleton.mp he
      rfl
  have hargs : s.vars.substituteAll ["plug/ΟΔΟΣ.ESP"] = .ok ["plug/ΟΔΟΣ.ESP"] :=
    substituteAll_eq_ok s.vars (by decide)
  have hrun : (Instruction.run ctx 1 .uncheckEsp ["plug/ΟΔΟΣ.ESP"]).run.run s =
      (.ok (), s.change _) :=
    Instruction.run_of_change ctx 1 hargs rfl
  obtain ⟨change, hchange, hflags⟩ :=
    (leaves_run hcanonical).2.1 1 .uncheckEsp _ _ _ s _ hargs rfl hrun
  cases hchange
  exact ⟨hcanonical, by decide, _, hrun, hflags⟩

end Instruction

end InstallScript
