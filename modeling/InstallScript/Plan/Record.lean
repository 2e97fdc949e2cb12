import InstallScript.Number.Decimal
import InstallScript.Package.Entry
import InstallScript.Version

/-!
The records an install plan is made of: staged files, declared conflicts, and pending edits. An edit
is filed under its target, so that a later edit of the same target takes its place.
-/

namespace InstallScript

open Text

/-- How the user is warned before a plugin is deactivated. -/
inductive Deactivation where
  | allow
  | warnAgainst
  | disallow
  deriving DecidableEq, Repr, Inhabited

namespace Deactivation

/-- A warning level as scripts write it. -/
def name : Deactivation → String
  | .allow => "Allow"
  | .warnAgainst => "WarnAgainst"
  | .disallow => "Disallow"

/-- Resolves the name of a warning level. -/
def ofName? (word : String) : Option Deactivation :=
  [allow, warnAgainst, disallow].find? fun d => sameName d.name word

end Deactivation

/-- Load-order and activation metadata of a plugin. -/
structure PluginFlags where
  isUnchecked : Bool := false
  loadEarly : Bool := false
  loadBefore : List String := []
  loadAfter : List String := []
  deactivation : Option Deactivation := none
  deriving DecidableEq, Repr, Inhabited

/-- Adds a plugin to a load-order list, unless it is there under some spelling. -/
def PluginFlags.addName (names : List String) (name : String) : List String :=
  if names.any (sameName · name) then names else names ++ [name]

/-- A data file that is installed from `source` to `output`. -/
structure DataFile where
  source : Entry
  output : String
  deriving DecidableEq, Repr, Inhabited

/-- A plugin that is installed from `source` to `output`. -/
structure PluginFile where
  source : Entry
  output : String
  flags : PluginFlags
  deriving DecidableEq, Repr, Inhabited

/-- Whether a mod conflicts with another one or needs it. -/
inductive ConflictKind where
  | conflict
  | dependency
  deriving DecidableEq, Repr, Inhabited

/-- The name of a kind of relationship. -/
def ConflictKind.name : ConflictKind → String
  | .conflict => "Conflict"
  | .dependency => "Dependency"

/-- How serious a conflict is. -/
inductive ConflictLevel where
  | unusable
  | major
  | minor
  deriving DecidableEq, Repr

namespace ConflictLevel

/-- A level as scripts write it. -/
def name : ConflictLevel → String
  | .unusable => "Unusable"
  | .major => "Major"
  | .minor => "Minor"

/-- Resolves the name of a level. -/
def ofName? (word : String) : Option ConflictLevel :=
  [unusable, major, minor].find? fun l => sameName l.name word

instance : Inhabited ConflictLevel := ⟨.major⟩

end ConflictLevel

/-- A conflict or dependency that the mod declares. The file is a pattern if `isRegex` is set. -/
structure Conflict where
  kind : ConflictKind
  file : String
  isRegex : Bool
  minVersion : Option Version
  maxVersion : Option Version
  comment : Option String
  level : ConflictLevel
  deriving DecidableEq, Repr, Inhabited

/-- The character between the fields of a target. -/
def targetSeparator : String := "\x1f"

/-- A record that edits a target. Two records with one target edit the same thing. -/
class HasTarget (α : Type) where
  target : α → String

/-- A change to the game's INI file. -/
structure IniEdit where
  sectionName : String
  key : String
  value : String
  deriving DecidableEq, Repr, Inhabited

instance : HasTarget IniEdit where
  target e := lower e.sectionName ++ targetSeparator ++ lower e.key

/-- A compiled shader that replaces one in a shader package. -/
structure ShaderEdit where
  package : UInt8
  shader : String
  binary : Entry
  deriving DecidableEq, Repr, Inhabited

instance : HasTarget ShaderEdit where
  target e := Number.textOfNat e.package.toNat ++ targetSeparator ++ lower e.shader

/-- Whether a record edit changes a game setting or a global. -/
inductive RecordKind where
  | gmst
  | global
  deriving DecidableEq, Repr, Inhabited

/-- The name of a kind of record. -/
def RecordKind.name : RecordKind → String
  | .gmst => "Gmst"
  | .global => "Global"

/-- A change to a game setting or global inside a plugin. -/
structure RecordEdit where
  kind : RecordKind
  plugin : Entry
  editorId : String
  value : String
  deriving DecidableEq, Repr, Inhabited

instance : HasTarget RecordEdit where
  target e :=
    lower e.plugin.name ++ targetSeparator ++ e.kind.name ++ targetSeparator ++ lower e.editorId

/-- A typed value that is written into a plugin. A floating-point number is given by its bits. -/
inductive PluginValue where
  | byte (v : UInt8)
  | short (v : Int16)
  | int (v : Int32)
  | long (v : Int64)
  | float (bits : UInt32)
  deriving DecidableEq, Repr

/-- The value in decimal. -/
def PluginValue.text : PluginValue → String
  | .byte v => Number.textOfNat v.toNat
  | .short v => Number.textOfInt v.toInt
  | .int v => Number.textOfInt v.toInt
  | .long v => Number.textOfInt v.toInt
  | .float bits => Number.textOfBits .single bits.toNat

/-- A value that is written at a fixed place inside a plugin. -/
structure ValueEdit where
  plugin : Entry
  offset : UInt64
  value : PluginValue
  deriving DecidableEq, Repr

instance : HasTarget ValueEdit where
  target e := lower e.plugin.name ++ targetSeparator ++ Number.textOfNat e.offset.toNat

/-- What an XML edit replaces: a line, counted from zero, or every occurrence of a text. -/
inductive XmlChange where
  | line (line : UInt64) (value : String)
  | replace (find replacement : String)
  deriving DecidableEq, Repr

/-- A text edit of an XML file that the package ships. -/
structure XmlEdit where
  file : Entry
  change : XmlChange
  deriving DecidableEq, Repr

instance : HasTarget XmlEdit where
  target e :=
    lower e.file.name ++ targetSeparator ++ match e.change with
      | .line line _ => "line:" ++ Number.textOfNat line.toNat
      | .replace find _ => "find:" ++ find

/-- A file that overwrites one in the game's data folder, or creates it if `create` is set. -/
structure FilePatch where
  kind : FileKind
  source : Entry
  output : String
  create : Bool
  deriving DecidableEq, Repr, Inhabited

/-- The name of the set a patch comes from. -/
def FilePatch.kindName (p : FilePatch) : String :=
  match p.kind with
  | .data => "Data"
  | .plugin => "Plugin"

instance : HasTarget FilePatch where
  target p := p.kindName ++ targetSeparator ++ Path.key p.output

end InstallScript
