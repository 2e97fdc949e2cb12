import InstallScript.Expr.Integer
import InstallScript.Expr.Real
import InstallScript.Machine.Argument
import InstallScript.Pattern.Regex
import InstallScript.Script.Keyword

/-!
Statements that are not control flow. Such a statement reads its arguments, looks files up, changes
the plan and the variables and calls the host in an order of its own, and it can fail at any of
these steps but the changes.
-/

namespace InstallScript

open Script (Keyword)

namespace Instruction

/-- Where a copied folder puts one of its files. -/
def copiedPath (source target : String) (e : Entry) : String :=
  Path.normalize (target ++ "\\" ++ (Path.stripFolder e.name source).getD e.fileName)

/-- A version bound. The version 0.0 stands for no bound. -/
def versionBound (major minor : Nat) : Option Version :=
  let v : Version := ⟨UInt32.ofNat major, UInt32.ofNat minor, 0, 0⟩
  if v = .zero then none else some v

/-- Reads the bounds of a conflict, if its arguments are so many that they have any, and gives the
    arguments after them. -/
def readBounds (args : List String) :
    Except RunCause (Option Version × Option Version × List String) := do
  if 5 ≤ args.length && args.length ≤ 7 then
    let part (i : Nat) : Except RunCause Nat := do Argument.word 32 (← Argument.get args i)
    let minMajor ← part 1
    let minMinor ← part 2
    let maxMajor ← part 3
    let maxMinor ← part 4
    pure (versionBound minMajor minMinor, versionBound maxMajor maxMinor, args.drop 5)
  else pure (none, none, args.drop 1)

/-- Reads the level of a conflict, which is major unless it is given. -/
def readLevel (value : Option String) : Except RunCause ConflictLevel :=
  match value with
  | none => .ok .major
  | some value =>
    match ConflictLevel.ofName? value with
    | some level => .ok level
    | none => .error (.invalidArgument value .conflictLevel)

/-- Reads a conflict or dependency: a file or pattern, two version bounds unless they are left out,
    and then possibly a comment and a level. -/
def readConflict (kind : ConflictKind) (isRegex : Bool) (args : List String) :
    Except RunCause Conflict := do
  let file ← Argument.get args 0
  if isRegex && !Regex.isValid file then throw (.invalidPattern file)
  let (minVersion, maxVersion, tail) ← readBounds args
  let level ← readLevel tail[1]?
  pure ⟨kind, file, isRegex, minVersion, maxVersion, tail[0]?, level⟩

/-- Reads a value to write into a plugin, of the type that the kind of the statement names. -/
def readValue (kind : Keyword) (value : String) : Except RunCause PluginValue := do
  match kind with
  | .setPluginByte => pure (.byte (UInt8.ofNat (← Argument.word 8 value)))
  | .setPluginShort => pure (.short (Int16.ofInt (← Argument.integer (.signed 16) value)))
  | .setPluginInt => pure (.int (Int32.ofInt (← Argument.integer (.signed 32) value)))
  | .setPluginLong => pure (.long (Int64.ofInt (← Argument.integer (.signed 64) value)))
  | _ => pure (.float (← Argument.singleBits value))

/-- The name of an archive, which must not have a character that the game's list of archives uses
    otherwise. -/
def archive (args : List String) : Except RunCause String := do
  let name ← Argument.get args 0
  if name.toList.any fun c => c == ',' || c == ';' || c == '=' then
    throw (.invalidArgument name .archiveName)
  pure name

/-- The part of a text that a statement names by its start and length, cut out between what comes
    before it and what comes after it. Without a length it goes up to the end. -/
def cut (args : List String) : Except RunCause (List Char × List Char × List Char) := do
  let text := (← Argument.get args 1).toList
  let start ← Argument.word 64 (← Argument.get args 2)
  let stop ← match args[3]? with
    | some length => do
      let length ← Argument.word 64 length
      pure (min (start + length) (Nat.pow 2 64 - 1))
    | none => pure text.length
  if text.length < start || text.length < stop then
    throw (.outOfRange start stop text.length)
  pure (text.take start, (text.take stop).drop start, text.drop stop)

/-- Where a data file was extracted to. -/
def extractedPath (settings : Settings) (e : Entry) : String :=
  Path.onDisk settings.dataPath (Path.forDisk e.name)

section Steps

variable {σ : Type} (ctx : Context σ) (line : Nat)

/-- The argument at an index. -/
def argument (args : List String) (index : Nat) : Exec σ String :=
  Exec.lift line (Argument.get args index)

/-- Looks up the file of the package that an argument names. -/
def lookUp (kind : FileKind) (args : List String) (index : Nat) : Exec σ Entry := do
  let name ← argument line args index
  Exec.lift line (Argument.entry ctx.files kind name)

/-- The output path that an argument gives. -/
def outputPath (args : List String) (index : Nat) : Exec σ String := do
  let path ← argument line args index
  Exec.lift line (Argument.output path)

/-- Stages every file of a kind under its own name. -/
def stageAll (kind : FileKind) : Exec σ Unit :=
  match kind with
  | .data => ctx.files.data.forM fun e => Exec.change (.installData e e.name)
  | .plugin => ctx.files.plugins.forM fun e => Exec.change (.installPlugin e e.name)

/-- Makes sure that a plugin is staged before it gets metadata. -/
def stagePlugin (name : String) : Exec σ Unit := do
  let s ← get
  if s.plan.hasPlugin name then pure ()
  else
    let e ← Exec.lift line (Argument.entry ctx.files .plugin name)
    Exec.change (.installPlugin e e.name)

/-- Changes the metadata of a plugin, which is staged first if it is not yet. -/
def attach (name : String) (change : FlagChange) : Exec σ Unit := do
  stagePlugin ctx line name
  Exec.change (.flag name change)

/-- Changes something for each data file in a folder. -/
def forFolder (folder : String) (recurse : Bool) (change : Entry → Change) : Exec σ Unit := do
  let entries ← Exec.lift line (Argument.folder ctx.files folder recurse)
  entries.forM fun e => Exec.change (change e)

/-- Declares a conflict or dependency. -/
def declareConflict (kind : ConflictKind) (isRegex : Bool) (args : List String) : Exec σ Unit := do
  let conflict ← Exec.lift line (readConflict kind isRegex args)
  Exec.change (.declare conflict)

/-- Writes a value into a plugin. -/
def writeValue (args : List String) (read : String → Except RunCause PluginValue) :
    Exec σ Unit := do
  let plugin ← lookUp ctx line .plugin args 0
  let offset ← Exec.lift line (Argument.word 64 (← argument line args 1))
  let value ← Exec.lift line (read (← argument line args 2))
  Exec.change (.value ⟨plugin, UInt64.ofNat offset, value⟩)

/-- Changes a game setting or a global. -/
def writeRecord (kind : RecordKind) (args : List String) : Exec σ Unit := do
  let plugin ← lookUp ctx line .plugin args 0
  let editorId ← argument line args 1
  let value ← argument line args 2
  Exec.change (.record ⟨kind, plugin, editorId, value⟩)

/-- Replaces a shader. -/
def replaceShader (args : List String) : Exec σ Unit := do
  let package ← Exec.lift line (Argument.word 8 (← argument line args 0))
  let binary ← lookUp ctx line .data args 2
  let shader ← argument line args 1
  Exec.change (.shader ⟨UInt8.ofNat package, shader, binary⟩)

/-- Overwrites a file of the game. -/
def overwrite (kind : FileKind) (args : List String) : Exec σ Unit := do
  let source ← lookUp ctx line kind args 0
  let output ← outputPath line args 1
  let create ← Exec.lift line (Argument.flag args[2]?)
  Exec.change (.patch ⟨kind, source, output, create⟩)

/-- Assigns the value of an expression. -/
def compute (args : List String) (eval : String → Except Expr.Fault String) : Exec σ Unit := do
  let name ← argument line args 0
  let expression := String.intercalate " " (args.drop 1)
  match eval expression with
  | .ok value => Exec.assign name value
  | .error fault => Exec.fail line (.malformedExpression expression fault)

/-- Assigns something made from the canonical form of a path. -/
def takePart (args : List String) (f : String → String) : Exec σ Unit := do
  let name ← argument line args 0
  let path ← argument line args 1
  Exec.assign name (f (Path.normalize path))

/-- Assigns what the host answers. -/
def ask (name : String) (call : HostCall σ String) : Exec σ Unit := do
  let value ← Exec.call line call
  Exec.assign name value

/-- Shows a text file of the package. Dry runs do not read it. -/
def displayText (args : List String) : Exec σ Unit := do
  let e ← lookUp ctx line .data args 0
  if ctx.settings.dryRun then
    Exec.note [.info ("Skipping 'DisplayText' of '" ++ e.name ++
      s!"' on line {line}, as this is a dry run.")]
  else
    match ctx.disk.read (extractedPath ctx.settings e) with
    | .ok bytes =>
      Exec.call line (ctx.host.displayText (String.ofList (Text.decodeLossy bytes)) args[1]?)
    | .error fault => Exec.fail line (.disk fault)

/-- Carries a statement out whose arguments hold no placeholders any more. -/
def carryOut (kind : Keyword) (args : List String) : Exec σ Unit := do
  let arg := argument line args
  let find (kind : FileKind) := lookUp ctx line kind args 0
  match kind with
  | .installAllPlugins => stageAll ctx .plugin
  | .installAllDataFiles => stageAll ctx .data
  | .dontInstallAnyPlugins => Exec.change .clearPlugins
  | .dontInstallAnyDataFiles => Exec.change .clearData
  | .installPlugin =>
    let e ← find .plugin
    Exec.change (.installPlugin e e.name)
  | .dontInstallPlugin =>
    let e ← find .plugin
    Exec.change (.removePlugin e.name)
  | .installDataFile =>
    let e ← find .data
    Exec.change (.installData e e.name)
  | .dontInstallDataFile =>
    let e ← find .data
    Exec.change (.removeData e.name)
  | .installDataFolder =>
    let recurse ← Exec.lift line (Argument.flag args[1]?)
    forFolder ctx line (← arg 0) recurse fun e => .installData e e.name
  | .dontInstallDataFolder =>
    let recurse ← Exec.lift line (Argument.flag args[1]?)
    forFolder ctx line (← arg 0) recurse fun e => .removeData e.name
  | .copyPlugin =>
    let e ← find .plugin
    let output ← outputPath line args 1
    Exec.change (.installPlugin e output)
  | .copyDataFile =>
    let e ← find .data
    let output ← outputPath line args 1
    Exec.change (.installData e output)
  | .copyDataFolder =>
    let recurse ← Exec.lift line (Argument.flag args[2]?)
    let target ← outputPath line args 1
    let folder ← arg 0
    forFolder ctx line folder recurse fun e => .installData e (copiedPath folder target e)
  | .uncheckEsp => attach ctx line (← arg 0) .uncheck
  | .loadEarly => attach ctx line (← arg 0) .loadEarly
  | .setDeactivationWarning =>
    let value ← arg 1
    match Deactivation.ofName? value with
    | some status => attach ctx line (← arg 0) (.deactivation status)
    | none => Exec.fail line (.invalidArgument value .deactivation)
  | .loadBefore => attach ctx line (← arg 0) (.loadBefore (← arg 1))
  | .loadAfter => attach ctx line (← arg 0) (.loadAfter (← arg 1))
  | .conflictsWith => declareConflict line .conflict false args
  | .dependsOn => declareConflict line .dependency false args
  | .conflictsWithRegex => declareConflict line .conflict true args
  | .dependsOnRegex => declareConflict line .dependency true args
  | .editIni => Exec.change (.ini ⟨← arg 0, ← arg 1, ← arg 2⟩)
  | .editSdp | .editShader => replaceShader ctx line args
  | .setGmst => writeRecord ctx line .gmst args
  | .setGlobal => writeRecord ctx line .global args
  | .setPluginByte | .setPluginShort | .setPluginInt | .setPluginLong | .setPluginFloat =>
    writeValue ctx line args (readValue kind)
  | .editXmlLine =>
    let file ← find .data
    let index ← Exec.lift line (Argument.word 64 (← arg 1))
    Exec.change (.xml ⟨file, .line (UInt64.ofNat index) (← arg 2)⟩)
  | .editXmlReplace =>
    let file ← find .data
    Exec.change (.xml ⟨file, .replace (← arg 1) (← arg 2)⟩)
  | .patchPlugin => overwrite ctx line .plugin args
  | .patchDataFile => overwrite ctx line .data args
  | .registerBsa => Exec.change (.register (← Exec.lift line (archive args)))
  | .unregisterBsa => Exec.change (.unregister (← Exec.lift line (archive args)))
  | .message => Exec.call line (ctx.host.message (← arg 0) args[1]?)
  | .displayImage =>
    let e ← find .data
    Exec.call line (ctx.host.displayImage (extractedPath ctx.settings e) args[1]?)
  | .displayText => displayText ctx line args
  | .inputString => ask line (← arg 0) (ctx.host.inputString args[1]? (args.getD 2 ""))
  | .getFolderName => takePart line args fun path => Path.fileName (Path.folder path)
  | .getDirectoryName => takePart line args Path.folder
  | .getFileName => takePart line args Path.fileName
  | .getFileNameWithoutExtension => takePart line args fun path => Path.stem (Path.fileName path)
  | .combinePaths => Exec.assign (← arg 0) (Path.normalize ((← arg 1) ++ "\\" ++ (← arg 2)))
  | .substring =>
    let (_, middle, _) ← Exec.lift line (cut args)
    Exec.assign (← arg 0) (String.ofList middle)
  | .removeString =>
    let (before, _, after) ← Exec.lift line (cut args)
    Exec.assign (← arg 0) (String.ofList (before ++ after))
  | .stringLength => Exec.assign (← arg 0) (Number.textOfNat (← arg 1).length)
  | .iSet => compute line args fun e => (Expr.evalInt e).map Number.textOfInt
  | .fSet => compute line args fun e => (Expr.evalReal e).map Number.textOfDouble
  | .readIni => ask line (← arg 0) (ctx.host.readIni (← arg 1) (← arg 2))
  | .readRendererInfo => ask line (← arg 0) (ctx.host.readRendererInfo (← arg 1))
  | .allowRunOnLines =>
    Exec.note [.debug "'AllowRunOnLines' has no effect; continuations are always joined."]
  | other => Exec.fail line (.badNesting other.name)

end Steps

/-- Carries a statement out whose arguments may hold placeholders. -/
def run (ctx : Context σ) (line : Nat) (kind : Keyword) (args : List String) : Exec σ Unit := do
  let s ← get
  let args ← Exec.lift line (s.vars.substituteAll args)
  carryOut ctx line kind args

end Instruction

end InstallScript
