import InstallScript.Text.Name

/-!
The vocabulary of scripts: statement keywords with the number of arguments each takes, the
conditions of an `If`, and the sequences a `For` walks over. All names are looked up without regard
to the case of ASCII letters.
-/

namespace InstallScript.Script

open Text

/-- How many arguments a statement takes. Without a maximum it takes any number from `min` on. -/
structure Arity where
  min : Nat
  max : Option Nat
  deriving DecidableEq, Repr

namespace Arity

/-- Whether a number of arguments is right. -/
def admits (a : Arity) (count : Nat) : Bool :=
  a.min ≤ count && a.max.all (count ≤ ·)

/-- The contract in words. -/
def text (a : Arity) : String :=
  match a.max with
  | some max => if max = a.min then s!"exactly {a.min}" else s!"between {a.min} and {max}"
  | none => s!"at least {a.min}"

end Arity

/-- Every kind of statement that has a keyword. -/
inductive Keyword where
  | ifTrue
  | ifNot
  | otherwise
  | endIf
  | select
  | selectMany
  | selectWithPreview
  | selectManyWithPreview
  | selectWithDescriptions
  | selectManyWithDescriptions
  | selectWithDescriptionsAndPreviews
  | selectManyWithDescriptionsAndPreviews
  | selectVar
  | selectString
  | caseOf
  | defaultCase
  | breakCase
  | endSelect
  | forLoop
  | endFor
  | continueLoop
  | exitLoop
  | returnEarly
  | fatalError
  | label
  | goto
  | installAllPlugins
  | installAllDataFiles
  | dontInstallAnyPlugins
  | dontInstallAnyDataFiles
  | installPlugin
  | dontInstallPlugin
  | installDataFile
  | dontInstallDataFile
  | installDataFolder
  | dontInstallDataFolder
  | copyPlugin
  | copyDataFile
  | copyDataFolder
  | uncheckEsp
  | setDeactivationWarning
  | loadEarly
  | loadBefore
  | loadAfter
  | conflictsWith
  | dependsOn
  | conflictsWithRegex
  | dependsOnRegex
  | editIni
  | editSdp
  | editShader
  | setGmst
  | setGlobal
  | setPluginByte
  | setPluginShort
  | setPluginInt
  | setPluginLong
  | setPluginFloat
  | editXmlLine
  | editXmlReplace
  | patchPlugin
  | patchDataFile
  | registerBsa
  | unregisterBsa
  | message
  | displayImage
  | displayText
  | inputString
  | setVar
  | getFolderName
  | getDirectoryName
  | getFileName
  | getFileNameWithoutExtension
  | combinePaths
  | substring
  | removeString
  | stringLength
  | iSet
  | fSet
  | readIni
  | readRendererInfo
  | execLines
  | allowRunOnLines
  deriving DecidableEq, Repr, Inhabited

namespace Keyword

/-- Every keyword, in the order in which words are compared with them. -/
def all : List Keyword := [
  .ifTrue, .ifNot, .otherwise, .endIf, .select, .selectMany, .selectWithPreview,
  .selectManyWithPreview, .selectWithDescriptions, .selectManyWithDescriptions,
  .selectWithDescriptionsAndPreviews, .selectManyWithDescriptionsAndPreviews, .selectVar,
  .selectString, .caseOf, .defaultCase, .breakCase, .endSelect, .forLoop, .endFor, .continueLoop,
  .exitLoop, .returnEarly, .fatalError, .label, .goto, .installAllPlugins, .installAllDataFiles,
  .dontInstallAnyPlugins, .dontInstallAnyDataFiles, .installPlugin, .dontInstallPlugin,
  .installDataFile, .dontInstallDataFile, .installDataFolder, .dontInstallDataFolder,
  .copyPlugin, .copyDataFile, .copyDataFolder, .uncheckEsp, .setDeactivationWarning, .loadEarly,
  .loadBefore, .loadAfter, .conflictsWith, .dependsOn, .conflictsWithRegex, .dependsOnRegex,
  .editIni, .editSdp, .editShader, .setGmst, .setGlobal, .setPluginByte, .setPluginShort,
  .setPluginInt, .setPluginLong, .setPluginFloat, .editXmlLine, .editXmlReplace, .patchPlugin,
  .patchDataFile, .registerBsa, .unregisterBsa, .message, .displayImage, .displayText,
  .inputString, .setVar, .getFolderName, .getDirectoryName, .getFileName,
  .getFileNameWithoutExtension, .combinePaths, .substring, .removeString, .stringLength, .iSet,
  .fSet, .readIni, .readRendererInfo, .execLines, .allowRunOnLines]

/-- A keyword as scripts write it. -/
def name : Keyword → String
  | .ifTrue => "If"
  | .ifNot => "IfNot"
  | .otherwise => "Else"
  | .endIf => "EndIf"
  | .select => "Select"
  | .selectMany => "SelectMany"
  | .selectWithPreview => "SelectWithPreview"
  | .selectManyWithPreview => "SelectManyWithPreview"
  | .selectWithDescriptions => "SelectWithDescriptions"
  | .selectManyWithDescriptions => "SelectManyWithDescriptions"
  | .selectWithDescriptionsAndPreviews => "SelectWithDescriptionsAndPreviews"
  | .selectManyWithDescriptionsAndPreviews => "SelectManyWithDescriptionsAndPreviews"
  | .selectVar => "SelectVar"
  | .selectString => "SelectString"
  | .caseOf => "Case"
  | .defaultCase => "Default"
  | .breakCase => "Break"
  | .endSelect => "EndSelect"
  | .forLoop => "For"
  | .endFor => "EndFor"
  | .continueLoop => "Continue"
  | .exitLoop => "Exit"
  | .returnEarly => "Return"
  | .fatalError => "FatalError"
  | .label => "Label"
  | .goto => "Goto"
  | .installAllPlugins => "InstallAllPlugins"
  | .installAllDataFiles => "InstallAllDataFiles"
  | .dontInstallAnyPlugins => "DontInstallAnyPlugins"
  | .dontInstallAnyDataFiles => "DontInstallAnyDataFiles"
  | .installPlugin => "InstallPlugin"
  | .dontInstallPlugin => "DontInstallPlugin"
  | .installDataFile => "InstallDataFile"
  | .dontInstallDataFile => "DontInstallDataFile"
  | .installDataFolder => "InstallDataFolder"
  | .dontInstallDataFolder => "DontInstallDataFolder"
  | .copyPlugin => "CopyPlugin"
  | .copyDataFile => "CopyDataFile"
  | .copyDataFolder => "CopyDataFolder"
  | .uncheckEsp => "UncheckESP"
  | .setDeactivationWarning => "SetDeactivationWarning"
  | .loadEarly => "LoadEarly"
  | .loadBefore => "LoadBefore"
  | .loadAfter => "LoadAfter"
  | .conflictsWith => "ConflictsWith"
  | .dependsOn => "DependsOn"
  | .conflictsWithRegex => "ConflictsWithRegex"
  | .dependsOnRegex => "DependsOnRegex"
  | .editIni => "EditINI"
  | .editSdp => "EditSDP"
  | .editShader => "EditShader"
  | .setGmst => "SetGMST"
  | .setGlobal => "SetGlobal"
  | .setPluginByte => "SetPluginByte"
  | .setPluginShort => "SetPluginShort"
  | .setPluginInt => "SetPluginInt"
  | .setPluginLong => "SetPluginLong"
  | .setPluginFloat => "SetPluginFloat"
  | .editXmlLine => "EditXMLLine"
  | .editXmlReplace => "EditXMLReplace"
  | .patchPlugin => "PatchPlugin"
  | .patchDataFile => "PatchDataFile"
  | .registerBsa => "RegisterBSA"
  | .unregisterBsa => "UnregisterBSA"
  | .message => "Message"
  | .displayImage => "DisplayImage"
  | .displayText => "DisplayText"
  | .inputString => "InputString"
  | .setVar => "SetVar"
  | .getFolderName => "GetFolderName"
  | .getDirectoryName => "GetDirectoryName"
  | .getFileName => "GetFileName"
  | .getFileNameWithoutExtension => "GetFileNameWithoutExtension"
  | .combinePaths => "CombinePaths"
  | .substring => "Substring"
  | .removeString => "RemoveString"
  | .stringLength => "StringLength"
  | .iSet => "iSet"
  | .fSet => "fSet"
  | .readIni => "ReadINI"
  | .readRendererInfo => "ReadRendererInfo"
  | .execLines => "ExecLines"
  | .allowRunOnLines => "AllowRunOnLines"

/-- The number of arguments a statement takes. -/
def arity : Keyword → Arity
  | .ifTrue | .ifNot => ⟨1, none⟩
  | .otherwise | .endIf | .defaultCase | .breakCase | .endSelect | .endFor | .continueLoop
  | .exitLoop | .returnEarly | .fatalError | .installAllPlugins | .installAllDataFiles
  | .dontInstallAnyPlugins | .dontInstallAnyDataFiles | .allowRunOnLines => ⟨0, some 0⟩
  | .select | .selectMany | .selectWithPreview | .selectManyWithPreview
  | .selectWithDescriptions | .selectManyWithDescriptions
  | .selectWithDescriptionsAndPreviews | .selectManyWithDescriptionsAndPreviews | .iSet
  | .fSet => ⟨2, none⟩
  | .selectVar | .selectString | .caseOf | .label | .goto | .installPlugin
  | .dontInstallPlugin | .installDataFile | .dontInstallDataFile | .uncheckEsp | .loadEarly
  | .registerBsa | .unregisterBsa | .execLines => ⟨1, some 1⟩
  | .forLoop => ⟨4, some 6⟩
  | .installDataFolder | .dontInstallDataFolder | .message | .displayImage | .displayText
    => ⟨1, some 2⟩
  | .copyPlugin | .copyDataFile | .setDeactivationWarning | .loadBefore | .loadAfter
  | .setVar | .getFolderName | .getDirectoryName | .getFileName
  | .getFileNameWithoutExtension | .stringLength | .readRendererInfo => ⟨2, some 2⟩
  | .copyDataFolder | .patchPlugin | .patchDataFile => ⟨2, some 3⟩
  | .conflictsWith | .dependsOn | .conflictsWithRegex | .dependsOnRegex => ⟨1, some 7⟩
  | .editIni | .editSdp | .editShader | .setGmst | .setGlobal | .setPluginByte
  | .setPluginShort | .setPluginInt | .setPluginLong | .setPluginFloat | .editXmlLine
  | .editXmlReplace | .combinePaths | .readIni => ⟨3, some 3⟩
  | .inputString => ⟨1, some 3⟩
  | .substring | .removeString => ⟨3, some 4⟩

/-- Resolves the first word of a line. -/
def ofWord? (word : String) : Option Keyword :=
  all.find? fun k => sameName k.name word

end Keyword

/-- What a prompting select offers for each option, and whether several can be picked. -/
structure SelectShape where
  multi : Bool
  previews : Bool
  descriptions : Bool
  deriving DecidableEq, Repr

namespace SelectShape

/-- How many arguments describe one option. -/
def perOption (s : SelectShape) : Nat :=
  1 + s.previews.toNat + s.descriptions.toNat

/-- The keyword of the select with this shape. -/
def keyword : SelectShape → Keyword
  | ⟨false, false, false⟩ => .select
  | ⟨true, false, false⟩ => .selectMany
  | ⟨false, true, false⟩ => .selectWithPreview
  | ⟨true, true, false⟩ => .selectManyWithPreview
  | ⟨false, false, true⟩ => .selectWithDescriptions
  | ⟨true, false, true⟩ => .selectManyWithDescriptions
  | ⟨false, true, true⟩ => .selectWithDescriptionsAndPreviews
  | ⟨true, true, true⟩ => .selectManyWithDescriptionsAndPreviews

end SelectShape

/-- The shape of a select that prompts the user. -/
def Keyword.selectShape? : Keyword → Option SelectShape
  | .select => some ⟨false, false, false⟩
  | .selectMany => some ⟨true, false, false⟩
  | .selectWithPreview => some ⟨false, true, false⟩
  | .selectManyWithPreview => some ⟨true, true, false⟩
  | .selectWithDescriptions => some ⟨false, false, true⟩
  | .selectManyWithDescriptions => some ⟨true, false, true⟩
  | .selectWithDescriptionsAndPreviews => some ⟨false, true, true⟩
  | .selectManyWithDescriptionsAndPreviews => some ⟨true, true, true⟩
  | _ => none

@[simp] theorem SelectShape.selectShape?_keyword (s : SelectShape) :
    s.keyword.selectShape? = some s := by
  obtain ⟨_ | _, _ | _, _ | _⟩ := s <;> rfl

/-- The conditions an `If` can test. -/
inductive Condition where
  | dialogYesNo
  | dataFileExists
  | versionGreaterThan
  | versionLessThan
  | scriptExtenderPresent
  | scriptExtenderNewerThan
  | graphicsExtenderPresent
  | graphicsExtenderNewerThan
  | oblivionNewerThan
  | equal
  | greaterEqual
  | greaterThan
  | fGreaterEqual
  | fGreaterThan
  deriving DecidableEq, Repr, Inhabited

namespace Condition

/-- Every condition. -/
def all : List Condition := [
  .dialogYesNo, .dataFileExists, .versionGreaterThan, .versionLessThan, .scriptExtenderPresent,
  .scriptExtenderNewerThan, .graphicsExtenderPresent, .graphicsExtenderNewerThan,
  .oblivionNewerThan, .equal, .greaterEqual, .greaterThan, .fGreaterEqual, .fGreaterThan]

/-- A condition as scripts write it. -/
def name : Condition → String
  | .dialogYesNo => "DialogYesNo"
  | .dataFileExists => "DataFileExists"
  | .versionGreaterThan => "VersionGreaterThan"
  | .versionLessThan => "VersionLessThan"
  | .scriptExtenderPresent => "ScriptExtenderPresent"
  | .scriptExtenderNewerThan => "ScriptExtenderNewerThan"
  | .graphicsExtenderPresent => "GraphicsExtenderPresent"
  | .graphicsExtenderNewerThan => "GraphicsExtenderNewerThan"
  | .oblivionNewerThan => "OblivionNewerThan"
  | .equal => "Equal"
  | .greaterEqual => "GreaterEqual"
  | .greaterThan => "GreaterThan"
  | .fGreaterEqual => "fGreaterEqual"
  | .fGreaterThan => "fGreaterThan"

/-- The fewest and the most arguments a condition takes after its name. -/
def bounds : Condition → Nat × Nat
  | .dialogYesNo => (1, 2)
  | .scriptExtenderPresent | .graphicsExtenderPresent => (0, 0)
  | .equal | .greaterEqual | .greaterThan | .fGreaterEqual | .fGreaterThan => (2, 2)
  | _ => (1, 1)

/-- The number of arguments a condition takes after its name. -/
def arity (c : Condition) : Arity :=
  ⟨c.bounds.1, some c.bounds.2⟩

/-- Resolves the name of a condition. -/
def ofName? (word : String) : Option Condition :=
  all.find? fun c => sameName c.name word

end Condition

/-- The folder listings a `For Each` can walk over. -/
inductive Enumeration where
  | dataFolder
  | pluginFolder
  | dataFile
  | plugin
  deriving DecidableEq, Repr, Inhabited

namespace Enumeration

/-- Every listing. -/
def all : List Enumeration := [.dataFolder, .pluginFolder, .dataFile, .plugin]

/-- A listing as scripts write it. -/
def name : Enumeration → String
  | .dataFolder => "DataFolder"
  | .pluginFolder => "PluginFolder"
  | .dataFile => "DataFile"
  | .plugin => "Plugin"

/-- Resolves the name of a listing. -/
def ofName? (word : String) : Option Enumeration :=
  all.find? fun e => sameName e.name word

end Enumeration

/-- The word that opens the header of a loop over numbers. -/
def countWord : String := "Count"

/-- The word that opens the header of a loop over a listing. -/
def eachWord : String := "Each"

end InstallScript.Script
