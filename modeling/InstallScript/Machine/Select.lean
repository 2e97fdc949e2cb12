import InstallScript.Machine.Session

/-!
Prompting the user to pick options.
-/

namespace InstallScript

open Script (Menu)

/-- Checks the options a host picked: exactly one unless several are allowed, and only options that
    were offered. -/
def checkSelection (prompt : Prompt) (picked : List Nat) : Except RunCause Unit :=
  if !prompt.isMulti && picked.length != 1 then
    .error (.invalidSelection (.notSingle picked.length))
  else
    match picked.find? (prompt.items.length ≤ ·) with
    | some option => .error (.invalidSelection (.outOfRange option prompt.items.length))
    | none => .ok ()

/-- Builds the prompt of a select whose texts may hold placeholders. -/
def Prompt.ofMenu (site : Site) (vars : Variables) (menu : Menu) :
    Except RunCause Prompt := do
  let title ← vars.substitute menu.title
  let items ← vars.substituteAll menu.items
  let previews ← menu.previews.mapM vars.substituteAll
  let descriptions ← menu.descriptions.mapM vars.substituteAll
  pure (.ofOptions title items previews descriptions menu.shape.multi site.settings.dataPath)

/-- Shows a select and gives the texts of the options that were picked. -/
def Script.Menu.pick (menu : Menu) (ctx : Context σ) (line : Nat) : Exec σ (List String) := do
  let prompt ← Exec.lift line (Prompt.ofMenu ctx.toSite (← get).vars menu)
  let picked ← Exec.call line (ctx.host.select prompt)
  Exec.lift line (checkSelection prompt picked)
  let results := picked.filterMap (prompt.items[·]?)
  let shown := String.intercalate ", " (results.map fun r => "'" ++ r ++ "'")
  Exec.note [.info s!"Selected {shown} on line {line}."]
  pure results

end InstallScript
