import InstallScript.Plan.Basic

/-!
Changes of a plan. Statements change the plan by these alone, one at a time, and a statement for a
folder makes one change for each of its files.
-/

namespace InstallScript

/-- A change to the metadata of a plugin. -/
inductive FlagChange where
  | uncheck
  | loadEarly
  | loadBefore (name : String)
  | loadAfter (name : String)
  | deactivation (status : Deactivation)
  deriving DecidableEq, Repr

/-- Applies a change to the metadata of a plugin. -/
def FlagChange.apply (c : FlagChange) (f : PluginFlags) : PluginFlags :=
  match c with
  | .uncheck => { f with isUnchecked := true }
  | .loadEarly => { f with loadEarly := true }
  | .loadBefore name => { f with loadBefore := PluginFlags.addName f.loadBefore name }
  | .loadAfter name => { f with loadAfter := PluginFlags.addName f.loadAfter name }
  | .deactivation status => { f with deactivation := some status }

/-- One step of changing a plan. -/
inductive Change where
  | installData (source : Entry) (output : String)
  | removeData (output : String)
  | clearData
  | installPlugin (source : Entry) (output : String)
  | removePlugin (output : String)
  | clearPlugins
  | flag (plugin : String) (change : FlagChange)
  | declare (conflict : Conflict)
  | ini (edit : IniEdit)
  | shader (edit : ShaderEdit)
  | record (edit : RecordEdit)
  | value (edit : ValueEdit)
  | xml (edit : XmlEdit)
  | patch (edit : FilePatch)
  | register (name : String)
  | unregister (name : String)
  deriving DecidableEq, Repr

namespace Change

/-- Applies a change. -/
def apply (c : Change) (p : Plan) : Plan :=
  match c with
  | .installData source output => p.installData source output
  | .removeData output => p.removeData output
  | .clearData => { p with dataFiles := .empty }
  | .installPlugin source output => p.installPlugin source output
  | .removePlugin output => p.removePlugin output
  | .clearPlugins => { p with pluginFiles := .empty }
  | .flag plugin change => p.updateFlags plugin change.apply
  | .declare conflict => p.declare conflict
  | .ini edit => { p with iniEdits := EditSet.merge p.iniEdits edit }
  | .shader edit => { p with shaderEdits := EditSet.merge p.shaderEdits edit }
  | .record edit => { p with recordEdits := EditSet.merge p.recordEdits edit }
  | .value edit => { p with valueEdits := EditSet.merge p.valueEdits edit }
  | .xml edit => { p with xmlEdits := EditSet.merge p.xmlEdits edit }
  | .patch edit => { p with patches := EditSet.merge p.patches edit }
  | .register name => p.register name
  | .unregister name => p.unregister name

/-- Applies changes one after the other. -/
def applyAll (changes : List Change) (p : Plan) : Plan :=
  changes.foldl (fun p c => c.apply p) p

/-- What is logged when a change is applied to a plan. -/
def events (c : Change) (p : Plan) : List Event :=
  match c with
  | .installData source output =>
    [.debug ("Staging data file '" ++ source.name ++ "' as '" ++ Path.normalize output ++ "'.")]
  | .installPlugin source output =>
    [.debug ("Staging plugin '" ++ source.name ++ "' as '" ++ Path.normalize output ++ "'.")]
  | .declare conflict =>
    [.debug ("Declared " ++ conflict.kind.name ++ " on '" ++ conflict.file ++ "'.")]
  | .ini edit =>
    if EditSet.replaces p.iniEdits edit then
      [.debug ("Replaced an earlier edit of '[" ++ edit.sectionName ++ "] " ++ edit.key ++ "'.")]
    else []
  | _ => []

/-- What is logged when changes are applied one after the other. -/
def eventsAll : List Change → Plan → List Event
  | [], _ => []
  | c :: rest, p => c.events p ++ eventsAll rest (c.apply p)

end Change

end InstallScript
