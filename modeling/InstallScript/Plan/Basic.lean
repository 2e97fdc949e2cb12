import InstallScript.Log
import InstallScript.OrderedMap
import InstallScript.Plan.Record

/-!
Install plans: everything an install should do. Files are filed under the key of their output path,
edits under their target, so the last write to an output or a target wins and keeps the place of
the first.
-/

namespace InstallScript

/-- Pending edits of one kind, filed under their targets. -/
abbrev EditSet (α : Type) := OrderedMap α

/-- Adds an edit, in place of an earlier one of the same target. -/
def EditSet.merge [HasTarget α] (edits : EditSet α) (edit : α) : EditSet α :=
  OrderedMap.insert edits (HasTarget.target edit) edit

/-- Whether the target of an edit is already edited. -/
def EditSet.replaces [HasTarget α] (edits : EditSet α) (edit : α) : Bool :=
  OrderedMap.contains edits (HasTarget.target edit)

/-- The plan of an install. Metadata of plugins is collected in `pendingFlags` under the keys of
    their outputs, and reaches the plugins when the plan is finalized. -/
structure Plan where
  dataFiles : OrderedMap DataFile
  pluginFiles : OrderedMap PluginFile
  conflicts : List Conflict
  iniEdits : EditSet IniEdit
  shaderEdits : EditSet ShaderEdit
  recordEdits : EditSet RecordEdit
  valueEdits : EditSet ValueEdit
  xmlEdits : EditSet XmlEdit
  patches : EditSet FilePatch
  registered : OrderedSet
  unregistered : OrderedSet
  pendingFlags : OrderedMap PluginFlags
  deriving DecidableEq

namespace Plan

/-- The plan that does nothing. -/
def empty : Plan where
  dataFiles := .empty
  pluginFiles := .empty
  conflicts := []
  iniEdits := .empty
  shaderEdits := .empty
  recordEdits := .empty
  valueEdits := .empty
  xmlEdits := .empty
  patches := .empty
  registered := .empty
  unregistered := .empty
  pendingFlags := .empty

instance : Inhabited Plan := ⟨empty⟩

/-- Stages a data file, in place of what was staged for the same output. -/
def installData (p : Plan) (source : Entry) (output : String) : Plan :=
  let output := Path.normalize output
  { p with dataFiles := p.dataFiles.insert (Path.key output) ⟨source, output⟩ }

/-- Unstages a data file by its output. -/
def removeData (p : Plan) (output : String) : Plan :=
  { p with dataFiles := p.dataFiles.erase (Path.key output) }

/-- Whether a data file is staged for an output. -/
def hasData (p : Plan) (output : String) : Bool :=
  p.dataFiles.contains (Path.key output)

/-- Stages a plugin, in place of what was staged for the same output but with its flags. -/
def installPlugin (p : Plan) (source : Entry) (output : String) : Plan :=
  let output := Path.normalize output
  let key := Path.key output
  let flags := ((p.pluginFiles.get? key).map (·.flags)).getD {}
  { p with pluginFiles := p.pluginFiles.insert key ⟨source, output, flags⟩ }

/-- Unstages a plugin by its output. -/
def removePlugin (p : Plan) (output : String) : Plan :=
  { p with pluginFiles := p.pluginFiles.erase (Path.key output) }

/-- Whether a plugin is staged for an output. -/
def hasPlugin (p : Plan) (output : String) : Bool :=
  p.pluginFiles.contains (Path.key output)

/-- The metadata collected for a plugin. -/
def flagsOf (p : Plan) (plugin : String) : PluginFlags :=
  (p.pendingFlags.get? (Path.key plugin)).getD {}

/-- Changes the metadata collected for a plugin. -/
def updateFlags (p : Plan) (plugin : String) (f : PluginFlags → PluginFlags) : Plan :=
  { p with pendingFlags := p.pendingFlags.insert (Path.key plugin) (f (p.flagsOf plugin)) }

/-- Marks an archive for registration, which cancels a pending unregistration. -/
def register (p : Plan) (name : String) : Plan :=
  let name := Text.lower name
  { p with registered := p.registered.insert name, unregistered := p.unregistered.erase name }

/-- Marks an archive for unregistration, which cancels a pending registration. -/
def unregister (p : Plan) (name : String) : Plan :=
  let name := Text.lower name
  { p with registered := p.registered.erase name, unregistered := p.unregistered.insert name }

/-- Declares a conflict or dependency. -/
def declare (p : Plan) (conflict : Conflict) : Plan :=
  { p with conflicts := p.conflicts ++ [conflict] }

/-- The number of pending edits of all kinds. -/
def editCount (p : Plan) : Nat :=
  p.iniEdits.size + p.shaderEdits.size + p.recordEdits.size + p.valueEdits.size +
    p.xmlEdits.size + p.patches.size

/-- Keeps the first of several equal elements. -/
def distinct [DecidableEq α] (xs : List α) : List α :=
  xs.foldl (fun seen x => if x ∈ seen then seen else seen ++ [x]) []

/-- Gives one plugin its collected metadata, if it is staged. -/
def settleFlags (plugins : OrderedMap PluginFile) (entry : String × PluginFlags) :
    OrderedMap PluginFile :=
  plugins.modify entry.1 fun plugin => { plugin with flags := entry.2 }

/-- Finishes a plan. The staged plugins get the metadata collected for them, metadata of other
    plugins is dropped, and conflicts that were declared twice are kept once. -/
def finalize (p : Plan) : Plan :=
  { p with
    pluginFiles := p.pendingFlags.entries.foldl settleFlags p.pluginFiles
    conflicts := distinct p.conflicts
    pendingFlags := .empty }

/-- What is logged when a plan is finished. -/
def finalizeEvents (p : Plan) : List Event :=
  let dropped := p.pendingFlags.keys.filter fun key => !p.pluginFiles.contains key
  let warnings := dropped.map fun key => Event.warn
    s!"Dropping load order and activation settings for '{key}', as it is not being installed."
  let done := p.finalize
  let dataCount := done.dataFiles.size
  let pluginCount := done.pluginFiles.size
  let conflictCount := done.conflicts.length
  let edits := done.editCount
  warnings ++ [Event.info
    (s!"Finished install plan: {dataCount} data files, {pluginCount} plugins, " ++
      s!"{conflictCount} conflicts, {edits} edits.")]

/-- The output paths of the staged data files. -/
def dataOutputs (p : Plan) : List String :=
  p.dataFiles.values.map (·.output)

/-- The output names of the staged plugins. -/
def pluginOutputs (p : Plan) : List String :=
  p.pluginFiles.values.map (·.output)

end Plan

end InstallScript
