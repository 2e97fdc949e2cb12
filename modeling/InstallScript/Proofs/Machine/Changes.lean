import InstallScript.Proofs.Machine.Effects
import InstallScript.Proofs.Result

/-!
The changes that statements are settled to. Whatever the statement and the plan, a change stages,
edits or patches files of the package, under their own names or under outputs that have been
checked.
-/

namespace InstallScript

open Script (Keyword)

namespace Argument

variable {files : FileSet}

theorem mem_of_entry {kind : FileKind} {name : String} {e : Entry}
    (h : entry files kind name = .ok e) :
    e ∈ files.entries kind := by
  unfold entry at h
  split at h
  · rename_i found hfound
    cases h
    exact List.mem_of_find?_eq_some hfound
  · cases h

theorem mem_of_folder {name : String} {recurse : Bool} {entries : List Entry}
    (h : folder files name recurse = .ok entries) : ∀ e ∈ entries, e ∈ files.data := by
  unfold folder at h
  split at h
  · cases h
  · cases h
    exact fun e he => (List.mem_filter.mp he).1

theorem output_eq_ok {path result : String} (h : output path = .ok result) :
    Path.isSafe path = true ∧ Path.normalize path ≠ "" ∧ Path.normalize path = result := by
  unfold output at h
  split at h
  · rename_i hsafe
    simp only [Bool.and_eq_true, Bool.not_eq_true', ← Bool.not_eq_true,
      String.isEmpty_iff] at hsafe
    exact ⟨hsafe.1, hsafe.2, Except.ok.inj h⟩
  · cases h

end Argument

/-- The changes that a statement can be settled to, where the package has these files. -/
inductive Change.Issued (files : FileSet) : Change → Prop where
  | data {e : Entry} : e ∈ files.data → Issued files (.installData e e.name)
  | copiedData {e : Entry} {path output : String} : e ∈ files.data →
      Argument.output path = .ok output →
      Issued files (.installData e output)
  | copiedFolder {e : Entry} {source path target : String} : e ∈ files.data →
      Argument.output path = .ok target →
        Issued files (.installData e (Instruction.copiedPath source target e))
  | removeData {e : Entry} : e ∈ files.data → Issued files (.removeData e.name)
  | clearData : Issued files .clearData
  | plugin {e : Entry} : e ∈ files.plugins → Issued files (.installPlugin e e.name)
  | copiedPlugin {e : Entry} {path output : String} : e ∈ files.plugins →
      Argument.output path = .ok output →
      Issued files (.installPlugin e output)
  | removePlugin {e : Entry} : e ∈ files.plugins → Issued files (.removePlugin e.name)
  | clearPlugins : Issued files .clearPlugins
  | flag (plugin : String) (change : FlagChange) : Issued files (.flag plugin change)
  | declare {conflict : Conflict} {kind : ConflictKind} {isRegex : Bool} {args : List String} :
      Instruction.readConflict kind isRegex args = .ok conflict → Issued files (.declare conflict)
  | ini (edit : IniEdit) : Issued files (.ini edit)
  | shader {edit : ShaderEdit} : edit.binary ∈ files.data → Issued files (.shader edit)
  | record {edit : RecordEdit} : edit.plugin ∈ files.plugins → Issued files (.record edit)
  | value {edit : ValueEdit} : edit.plugin ∈ files.plugins → Issued files (.value edit)
  | xml {edit : XmlEdit} : edit.file ∈ files.data → Issued files (.xml edit)
  | patch {edit : FilePatch} {path : String} : edit.source ∈ files.entries edit.kind →
      Argument.output path = .ok edit.output → Issued files (.patch edit)
  | register (name : String) : Issued files (.register name)
  | unregister (name : String) : Issued files (.unregister name)

/-- Whether all changes of an effect are ones that a statement can be settled to. -/
def Effect.Issued (files : FileSet) : Effect → Prop
  | .change changes => ∀ c ∈ changes, c.Issued files
  | _ => True

section

variable {files : FileSet}

theorem issued_change {changes : List Change} :
    (Effect.change changes).Issued files ↔ ∀ c ∈ changes, c.Issued files :=
  Iff.rfl

theorem issued_single {c : Change} : (Effect.change [c]).Issued files ↔ c.Issued files :=
  List.forall_mem_singleton

end

namespace Instruction

variable {files : FileSet}

theorem issues_flagPlugin (plan : Plan) (name : String) (change : FlagChange) :
    (flagPlugin files plan name change).Ensures (Effect.Issued files) := by
  simp only [flagPlugin, Except.ensures_bind, Except.ensures_pure, issued_change,
    List.forall_mem_append, List.forall_mem_singleton]
  intro staging hstaging
  refine ⟨?_, .flag name change⟩
  unfold stage at hstaging
  split at hstaging
  · cases hstaging
    simp
  · obtain ⟨e, he, hstaging⟩ := Except.bind_eq_ok_iff.mp hstaging
    cases hstaging
    exact List.forall_mem_singleton.mpr (.plugin (Argument.mem_of_entry he))

theorem issues_setValue (args : List String) (read : String → Except RunCause PluginValue) :
    (setValue files args read).Ensures (Effect.Issued files) := by
  simp only [setValue, Except.ensures_bind, Except.ensures_pure, issued_single]
  intro name _ plugin hplugin _ _ offset _ _ _ value _
  exact .value (Argument.mem_of_entry hplugin)

/-- Every change that a statement is settled to is one that it can be settled to. -/
theorem issues_interpret (site : Site) (plan : Plan) (line : Nat) (kind : Keyword)
    (args : List String) :
    (interpret site plan line kind args).Ensures (Effect.Issued site.files) := by
  cases kind with
  | installAllPlugins =>
    simp only [interpret, Except.ensures_pure, issued_change, installAll, List.forall_mem_map]
    exact fun e he => .plugin he
  | installAllDataFiles =>
    simp only [interpret, Except.ensures_pure, issued_change, installAll, List.forall_mem_map]
    exact fun e he => .data he
  | dontInstallAnyPlugins =>
    simp only [interpret, Except.ensures_pure, issued_single]
    exact .clearPlugins
  | dontInstallAnyDataFiles =>
    simp only [interpret, Except.ensures_pure, issued_single]
    exact .clearData
  | installPlugin =>
    simp only [interpret, Except.ensures_bind, Except.ensures_pure, issued_single]
    exact fun name _ e he => .plugin (Argument.mem_of_entry he)
  | dontInstallPlugin =>
    simp only [interpret, Except.ensures_bind, Except.ensures_pure, issued_single]
    exact fun name _ e he => .removePlugin (Argument.mem_of_entry he)
  | installDataFile =>
    simp only [interpret, Except.ensures_bind, Except.ensures_pure, issued_single]
    exact fun name _ e he => .data (Argument.mem_of_entry he)
  | dontInstallDataFile =>
    simp only [interpret, Except.ensures_bind, Except.ensures_pure, issued_single]
    exact fun name _ e he => .removeData (Argument.mem_of_entry he)
  | installDataFolder =>
    simp only [interpret, Except.ensures_bind, Except.ensures_pure, issued_change,
      List.forall_mem_map]
    exact fun recurse _ name _ entries hentries e he => .data (Argument.mem_of_folder hentries e he)
  | dontInstallDataFolder =>
    simp only [interpret, Except.ensures_bind, Except.ensures_pure, issued_change,
      List.forall_mem_map]
    exact fun recurse _ name _ entries hentries e he =>
      .removeData (Argument.mem_of_folder hentries e he)
  | copyPlugin =>
    simp only [interpret, Except.ensures_bind, Except.ensures_pure, issued_single]
    exact fun name _ e he path _ target htarget => .copiedPlugin (Argument.mem_of_entry he) htarget
  | copyDataFile =>
    simp only [interpret, Except.ensures_bind, Except.ensures_pure, issued_single]
    exact fun name _ e he path _ target htarget => .copiedData (Argument.mem_of_entry he) htarget
  | copyDataFolder =>
    simp only [interpret, Except.ensures_bind, Except.ensures_pure, issued_change,
      List.forall_mem_map]
    intro recurse _ path _ target htarget folder _ entries hentries e he
    exact .copiedFolder (Argument.mem_of_folder hentries e he) htarget
  | uncheckEsp | loadEarly =>
    simp only [interpret, Except.ensures_bind]
    exact fun name _ => issues_flagPlugin plan name _
  | loadBefore | loadAfter =>
    simp only [interpret, Except.ensures_bind]
    exact fun name _ other _ => issues_flagPlugin plan name _
  | setDeactivationWarning =>
    simp only [interpret, Except.ensures_bind]
    intro value _
    split
    · exact (Except.ensures_bind _ _).mpr fun name _ => issues_flagPlugin plan name _
    · exact Except.ensures_throw _
  | conflictsWith | dependsOn | conflictsWithRegex | dependsOnRegex =>
    simp only [interpret, declare, Except.ensures_bind, Except.ensures_pure, issued_single]
    exact fun conflict hconflict => .declare hconflict
  | editIni =>
    simp only [interpret, Except.ensures_bind, Except.ensures_pure, issued_single]
    exact fun _ _ _ _ _ _ => .ini _
  | editSdp | editShader =>
    simp only [interpret, editShader, Except.ensures_bind, Except.ensures_pure, issued_single]
    exact fun _ _ _ _ _ _ binary hbinary _ _ => .shader (Argument.mem_of_entry hbinary)
  | setGmst | setGlobal =>
    simp only [interpret, setRecord, Except.ensures_bind, Except.ensures_pure, issued_single]
    exact fun _ _ plugin hplugin _ _ _ _ => .record (Argument.mem_of_entry hplugin)
  | setPluginByte | setPluginShort | setPluginInt | setPluginLong | setPluginFloat =>
    exact issues_setValue args _
  | editXmlLine =>
    simp only [interpret, Except.ensures_bind, Except.ensures_pure, issued_single]
    exact fun _ _ file hfile _ _ _ _ _ _ => .xml (Argument.mem_of_entry hfile)
  | editXmlReplace =>
    simp only [interpret, Except.ensures_bind, Except.ensures_pure, issued_single]
    exact fun _ _ file hfile _ _ _ _ => .xml (Argument.mem_of_entry hfile)
  | patchPlugin | patchDataFile =>
    simp only [interpret, patch, Except.ensures_bind, Except.ensures_pure, issued_single]
    exact fun name _ e he path _ target htarget create _ =>
      .patch (Argument.mem_of_entry he) htarget
  | registerBsa =>
    simp only [interpret, Except.ensures_bind, Except.ensures_pure, issued_single]
    exact fun name _ => .register name
  | unregisterBsa =>
    simp only [interpret, Except.ensures_bind, Except.ensures_pure, issued_single]
    exact fun name _ => .unregister name
  | displayText =>
    simp only [interpret, showText, Except.ensures_bind]
    intro name _ e _
    split
    · simp [Effect.Issued]
    · split <;> simp [Effect.Issued]
  | iSet | fSet =>
    simp only [interpret, evaluate, Except.ensures_bind]
    intro name _
    split <;> simp [Effect.Issued]
  | _ => simp [interpret, assignPath, Effect.Issued]

end Instruction

end InstallScript
