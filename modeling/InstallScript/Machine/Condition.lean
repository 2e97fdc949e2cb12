import InstallScript.Machine.Argument
import InstallScript.Script.Keyword

/-!
Testing the condition of an `If`.
-/

namespace InstallScript.Script.Condition

/-- Asks the host a yes-or-no question. Closing the dialog cancels the install. -/
def ask (ctx : Context σ) (line : Nat) (text : String) (title : Option String) : Exec σ Bool := do
  match ← Exec.call line (ctx.host.dialogYesNo text title) with
  | .yes => pure true
  | .no => pure false
  | .cancel => throw (.cancelled line)

/-- Whether a version the host knows of is newer than the one named. -/
def newerThan (line : Nat) (value : String) (installed : HostCall σ (Option Version)) :
    Exec σ Bool := do
  let wanted ← Exec.lift line (Argument.version value)
  let found ← Exec.call line installed
  pure (found.any wanted.before)

/-- Compares two arguments. The second one is read first. -/
def compareArgs (line : Nat) (read : String → Except RunCause α) (holds : α → α → Bool)
    (first second : String) : Exec σ Bool := do
  let b ← Exec.lift line (read second)
  let a ← Exec.lift line (read first)
  pure (holds a b)

/-- Whether a condition holds. The version conditions compare the version of the mod manager with
    the one named. -/
def holds (condition : Condition) (ctx : Context σ) (line : Nat) (args : List String) :
    Exec σ Bool := do
  let first := args.getD 0 ""
  let second := args.getD 1 ""
  match condition with
  | .dialogYesNo => ask ctx line first args[1]?
  | .dataFileExists => Exec.call line (ctx.host.dataFileExists first)
  | .versionGreaterThan =>
    let named ← Exec.lift line (Argument.version first)
    pure (named.before ctx.settings.managerVersion)
  | .versionLessThan =>
    let named ← Exec.lift line (Argument.version first)
    pure (ctx.settings.managerVersion.before named)
  | .scriptExtenderPresent =>
    let found ← Exec.call line ctx.host.scriptExtenderVersion
    pure found.isSome
  | .scriptExtenderNewerThan => newerThan line first ctx.host.scriptExtenderVersion
  | .graphicsExtenderPresent =>
    let found ← Exec.call line ctx.host.graphicsExtenderVersion
    pure found.isSome
  | .graphicsExtenderNewerThan => newerThan line first ctx.host.graphicsExtenderVersion
  | .oblivionNewerThan =>
    let wanted ← Exec.lift line (Argument.version first)
    let found ← Exec.call line ctx.host.gameVersion
    pure (wanted.before found)
  | .equal => pure (first == second)
  | .greaterEqual =>
    compareArgs line (Argument.integer Number.long) (fun a b => b ≤ a) first second
  | .greaterThan => compareArgs line (Argument.integer Number.long) (fun a b => b < a) first second
  | .fGreaterEqual => compareArgs line Argument.real (fun a b => b ≤ a) first second
  | .fGreaterThan => compareArgs line Argument.real (fun a b => b < a) first second

/-- Tests a condition whose arguments may hold placeholders. -/
def test (condition : Condition) (ctx : Context σ) (line : Nat) (args : List String) :
    Exec σ Bool := do
  let args ← Exec.lift line ((← get).vars.substituteAll args)
  let result ← condition.holds ctx line args
  Exec.note [.debug
    ("Condition '" ++ condition.name ++ s!"' on line {line} is " ++
      (if result then "true" else "false") ++ ".")]
  pure result

end InstallScript.Script.Condition
