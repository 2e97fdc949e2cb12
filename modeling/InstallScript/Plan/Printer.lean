import InstallScript.Plan.Basic

/-!
Plans in words, one line for each staged file, conflict and archive.
-/

namespace InstallScript

/-- The metadata of a plugin in words. -/
def PluginFlags.notes (f : PluginFlags) : List String :=
  (if f.isUnchecked then ["unchecked"] else []) ++
    (if f.loadEarly then ["load early"] else []) ++
    (if f.loadBefore.isEmpty then [] else ["before " ++ String.intercalate ", " f.loadBefore]) ++
    (if f.loadAfter.isEmpty then [] else ["after " ++ String.intercalate ", " f.loadAfter])

namespace Plan

/-- A plugin, with its metadata on a line of its own if there is any. -/
def pluginLines (f : PluginFile) : List String :=
  let notes := f.flags.notes
  ("plugin  " ++ f.output ++ " <- " ++ f.source.name) ::
    (if notes.isEmpty then [] else ["        (" ++ String.intercalate "; " notes ++ ")"])

/-- A data file. -/
def dataLine (f : DataFile) : String :=
  "data    " ++ f.output ++ " <- " ++ f.source.name

/-- A conflict or dependency. -/
def conflictLine (c : Conflict) : String :=
  let verb := match c.kind with
    | .conflict => "conflicts with"
    | .dependency => "depends on"
  "note    " ++ verb ++ " " ++ c.file ++ " (" ++ c.level.name ++ ")"

/-- The lines of a plan. -/
def lines (p : Plan) : List String :=
  p.pluginFiles.values.flatMap pluginLines ++ p.dataFiles.values.map dataLine ++
    p.conflicts.map conflictLine ++ p.registered.names.map ("bsa     register " ++ ·) ++
    p.unregistered.names.map ("bsa     unregister " ++ ·)

/-- The plan as text, with a line feed after each line. -/
def text (p : Plan) : String :=
  String.join (p.lines.map (· ++ "\n"))

end Plan

end InstallScript
