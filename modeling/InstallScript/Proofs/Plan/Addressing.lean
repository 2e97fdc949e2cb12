import InstallScript.Proofs.Path.Settled
import InstallScript.Proofs.Plan.Metadata

/-!
Reaching what was staged. Staging files a record under the key of the canonical output it stores,
and the other operations look under the key of the output they are given. These are one key exactly
for the outputs whose canonical form is settled.
-/

namespace InstallScript.Plan

variable (p : Plan) (e : Entry) (path : String)

theorem get?_installData (key : String) : (p.installData e path).dataFiles.get? key =
    if key = Path.key (Path.normalize path) then some ⟨e, Path.normalize path⟩
      else p.dataFiles.get? key :=
  p.dataFiles.get?_insert _ key _

/-- The plugin that a plan holds for an output once it is staged there. -/
def staged : PluginFile :=
  ⟨e, Path.normalize path,
    ((p.pluginFiles.get? (Path.key (Path.normalize path))).map (·.flags)).getD {}⟩

theorem get?_installPlugin (key : String) : (p.installPlugin e path).pluginFiles.get? key =
    if key = Path.key (Path.normalize path) then some (p.staged e path)
      else p.pluginFiles.get? key :=
  p.pluginFiles.get?_insert _ key _

theorem get?_removeData (key : String) : (p.removeData path).dataFiles.get? key =
    if key = Path.key path then none else p.dataFiles.get? key :=
  p.dataFiles.get?_erase _ key

theorem get?_removePlugin (key : String) : (p.removePlugin path).pluginFiles.get? key =
    if key = Path.key path then none else p.pluginFiles.get? key :=
  p.pluginFiles.get?_erase _ key

theorem hasData_iff : p.hasData path = true ↔
    ∃ file, p.dataFiles.get? (Path.key path) = some file := by
  rw [hasData, OrderedMap.contains_eq_isSome_get?, Option.isSome_iff_exists]

theorem hasPlugin_iff : p.hasPlugin path = true ↔
    ∃ plugin, p.pluginFiles.get? (Path.key path) = some plugin := by
  rw [hasPlugin, OrderedMap.contains_eq_isSome_get?, Option.isSome_iff_exists]

/-- Metadata that is given to a plugin reaches it when the plan is finished. -/
theorem get?_finalize_updateFlags (f : PluginFlags → PluginFlags) :
    (p.updateFlags path f).finalize.pluginFiles.get? (Path.key path) =
      (p.pluginFiles.get? (Path.key path)).map fun plugin =>
        { plugin with flags := f (p.flagsOf path) } := by
  have hcollected : (p.updateFlags path f).pendingFlags.get? (Path.key path) =
      some (f (p.flagsOf path)) := by
    rw [updateFlags, OrderedMap.get?_insert, if_pos rfl]
  rw [get?_finalize, hcollected]
  rfl

theorem get?_finalize_updateFlags_of_ne {key : String} (hkey : key ≠ Path.key path)
    (f : PluginFlags → PluginFlags) :
    (p.updateFlags path f).finalize.pluginFiles.get? key = p.finalize.pluginFiles.get? key := by
  have hother : (p.updateFlags path f).pendingFlags.get? key = p.pendingFlags.get? key := by
    rw [updateFlags, OrderedMap.get?_insert, if_neg hkey]
  rw [get?_finalize, get?_finalize, hother]
  rfl

/-- Whether the operations on an output reach what was staged for it: the record is found, taking it
    out leaves nothing at its output, and metadata that is given to the plugin ends up with it. -/
structure Addresses : Prop where
  hasData : (p.installData e path).hasData path = true
  removeData : ((p.installData e path).removeData path).dataFiles.get?
    (Path.key (Path.normalize path)) = none
  hasPlugin : (p.installPlugin e path).hasPlugin path = true
  removePlugin : ((p.installPlugin e path).removePlugin path).pluginFiles.get?
    (Path.key (Path.normalize path)) = none
  updateFlags : ∀ f, ((p.installPlugin e path).updateFlags path f).finalize.pluginFiles.get?
    (Path.key (Path.normalize path)) = some { p.staged e path with flags := f (p.flagsOf path) }

/-- Whether the operations on an output pass by what was staged for it: what they find was there
    before, taking it out leaves the record where it was staged, and metadata that is given to the
    plugin does not change it. -/
structure Misses : Prop where
  hasData : (p.installData e path).hasData path = p.hasData path
  removeData : ((p.installData e path).removeData path).dataFiles.get?
    (Path.key (Path.normalize path)) =
    some ⟨e, Path.normalize path⟩
  hasPlugin : (p.installPlugin e path).hasPlugin path = p.hasPlugin path
  removePlugin : ((p.installPlugin e path).removePlugin path).pluginFiles.get?
    (Path.key (Path.normalize path)) =
    some (p.staged e path)
  updateFlags : ∀ f, ((p.installPlugin e path).updateFlags path f).finalize.pluginFiles.get?
    (Path.key (Path.normalize path)) =
      (p.installPlugin e path).finalize.pluginFiles.get? (Path.key (Path.normalize path))

variable {path}

theorem addresses_of_settled (h : Path.Settled path) : p.Addresses e path := by
  have hkey : Path.key (Path.normalize path) = Path.key path := Path.key_normalize_iff.mpr h
  have hplugin : (p.installPlugin e path).pluginFiles.get? (Path.key path) =
      some (p.staged e path) := by
    rw [get?_installPlugin, if_pos hkey.symm]
  constructor
  · rw [hasData_iff]
    exact ⟨_, by rw [get?_installData, if_pos hkey.symm]⟩
  · rw [get?_removeData, if_pos hkey]
  · rw [hasPlugin_iff]
    exact ⟨_, hplugin⟩
  · rw [get?_removePlugin, if_pos hkey]
  · intro f
    rw [hkey, get?_finalize_updateFlags, hplugin]
    rfl

theorem misses_of_not_settled (h : ¬Path.Settled path) : p.Misses e path := by
  have hkey : Path.key path ≠ Path.key (Path.normalize path) :=
    fun heq => h (Path.key_normalize_iff.mp heq.symm)
  constructor
  · rw [Bool.eq_iff_iff, hasData_iff, hasData_iff, get?_installData, if_neg hkey]
  · rw [get?_removeData, if_neg hkey.symm, get?_installData, if_pos rfl]
  · rw [Bool.eq_iff_iff, hasPlugin_iff, hasPlugin_iff, get?_installPlugin, if_neg hkey]
  · rw [get?_removePlugin, if_neg hkey.symm, get?_installPlugin, if_pos rfl]
  · exact fun f => get?_finalize_updateFlags_of_ne _ _ hkey.symm f

variable (path)

/-- What is staged for an output is reached by that output if the canonical form of the output is
    settled, which is also when the canonical form is canonical itself and has the key of the
    output. For all other outputs it is out of reach. -/
theorem addresses_iff_settled :
    (Path.normalize (Path.normalize path) = Path.normalize path ↔ Path.Settled path) ∧
      (Path.key (Path.normalize path) = Path.key path ↔ Path.Settled path) ∧
      ∀ (p : Plan) (e : Entry), (p.Addresses e path ↔ Path.Settled path) ∧
        (p.Misses e path ↔ ¬Path.Settled path) := by
  refine ⟨Path.normalize_normalize_iff, Path.key_normalize_iff,
    fun p e => ⟨⟨fun h => ?_, p.addresses_of_settled e⟩,
    ⟨fun h hsettled => ?_, p.misses_of_not_settled e⟩⟩⟩
  · refine Decidable.byContradiction fun hsettled => ?_
    have hkept := (p.misses_of_not_settled e hsettled).removeData
    rw [h.removeData] at hkept
    cases hkept
  · have hgone := (p.addresses_of_settled e hsettled).removeData
    rw [h.removeData] at hgone
    cases hgone

/-- White space between the last part and a separator after it is still there in the canonical form,
    and keeps the output from what is staged for it. -/
theorem misses_of_blank_before_separator :
    Path.normalize "b.txt /" = "b.txt " ∧ Path.normalize (Path.normalize "b.txt /") = "b.txt" ∧
      (Plan.empty.installData ⟨"a.txt", 0, 0, 0⟩ "b.txt /").hasData "b.txt /" = false ∧
      ((Plan.empty.installData ⟨"a.txt", 0, 0, 0⟩ "b.txt /").removeData "b.txt /").dataOutputs =
        ["b.txt "] ∧
      (Plan.empty.installPlugin ⟨"a.txt", 0, 0, 0⟩ "b.txt /").hasPlugin "b.txt /" = false := by
  decide

end InstallScript.Plan
