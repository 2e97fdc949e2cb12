import InstallScript.Path
import InstallScript.Version

/-!
Settings of a script run.
-/

namespace InstallScript

/-- Where the package was extracted to, whether the disk may be read, and the version of the mod
    manager that the script sees. -/
structure Settings where
  dataPath : String
  pluginsPath : String
  dryRun : Bool
  managerVersion : Version
  deriving DecidableEq, Repr

namespace Settings

/-- Settings for a package that was extracted to the current folder. -/
def default : Settings := ⟨"data", "plugins", false, .manager⟩

instance : Inhabited Settings := ⟨default⟩

/-- Settings for a package that was extracted to a folder. -/
def withRoot (root : String) : Settings :=
  { default with dataPath := Path.onDisk root "data", pluginsPath := Path.onDisk root "plugins" }

end Settings

end InstallScript
