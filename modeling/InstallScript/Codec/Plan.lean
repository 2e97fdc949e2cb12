import InstallScript.Codec.Format
import InstallScript.Plan.Basic
import InstallScript.Settings

/-!
The saved form of plans and settings.
-/

namespace InstallScript.Codec

open Format

/-- A version: its four parts. -/
def version : Format Version :=
  (pair u32 (pair u32 (pair u32 u32))).imap
    (fun (a, b, c, d) => ⟨a, b, c, d⟩) (fun v => (v.major, v.minor, v.build, v.revision))

/-- A file of a package. -/
def entry : Format Entry :=
  (pair text (pair u32 (pair u64 u64))).imap
    (fun (a, b, c, d) => ⟨a, b, c, d⟩) (fun e => (e.name, e.crc, e.length, e.offset))

/-- A warning level. -/
def deactivation : Format Deactivation :=
  enum [.allow, .warnAgainst, .disallow]

/-- Metadata of a plugin. -/
def pluginFlags : Format PluginFlags :=
  (pair bool (pair bool (pair (list text) (pair (list text) (option deactivation))))).imap
    (fun (a, b, c, d, e) => ⟨a, b, c, d, e⟩)
    (fun f => (f.isUnchecked, f.loadEarly, f.loadBefore, f.loadAfter, f.deactivation))

/-- A staged data file. -/
def dataFile : Format DataFile :=
  (pair entry text).imap (fun (a, b) => ⟨a, b⟩) (fun f => (f.source, f.output))

/-- A staged plugin. -/
def pluginFile : Format PluginFile :=
  (pair entry (pair text pluginFlags)).imap
    (fun (a, b, c) => ⟨a, b, c⟩) (fun f => (f.source, f.output, f.flags))

/-- A kind of relationship between mods. -/
def conflictKind : Format ConflictKind :=
  enum [.conflict, .dependency]

/-- A level of conflict. -/
def conflictLevel : Format ConflictLevel :=
  enum [.unusable, .major, .minor]

/-- A conflict or dependency. -/
def conflict : Format Conflict :=
  (pair conflictKind (pair text (pair bool (pair (option version) (pair (option version)
    (pair (option text) conflictLevel)))))).imap
    (fun (a, b, c, d, e, f, g) => ⟨a, b, c, d, e, f, g⟩)
    (fun c => (c.kind, c.file, c.isRegex, c.minVersion, c.maxVersion, c.comment, c.level))

/-- A change to the game's INI file. -/
def iniEdit : Format IniEdit :=
  (pair text (pair text text)).imap
    (fun (a, b, c) => ⟨a, b, c⟩) (fun e => (e.sectionName, e.key, e.value))

/-- A replaced shader. -/
def shaderEdit : Format ShaderEdit :=
  (pair u8 (pair text entry)).imap
    (fun (a, b, c) => ⟨a, b, c⟩) (fun e => (e.package, e.shader, e.binary))

/-- A kind of record. -/
def recordKind : Format RecordKind :=
  enum [.gmst, .global]

/-- A change to a record of a plugin. -/
def recordEdit : Format RecordEdit :=
  (pair recordKind (pair entry (pair text text))).imap
    (fun (a, b, c, d) => ⟨a, b, c, d⟩) (fun e => (e.kind, e.plugin, e.editorId, e.value))

/-- A typed value, after the number of its type. -/
def pluginValue : Format PluginValue where
  write
    | .byte v => (tag 5).write 0 ++ u8.write v
    | .short v => (tag 5).write 1 ++ i16.write v
    | .int v => (tag 5).write 2 ++ i32.write v
    | .long v => (tag 5).write 3 ++ i64.write v
    | .float v => (tag 5).write 4 ++ u32.write v
  read bytes := do
    let (n, bytes) ← (tag 5).read bytes
    match n with
    | 0 => (u8.imap PluginValue.byte (fun _ => 0)).read bytes
    | 1 => (i16.imap PluginValue.short (fun _ => 0)).read bytes
    | 2 => (i32.imap PluginValue.int (fun _ => 0)).read bytes
    | 3 => (i64.imap PluginValue.long (fun _ => 0)).read bytes
    | _ => (u32.imap PluginValue.float (fun _ => 0)).read bytes

/-- The bytes that a value is written to a plugin as. -/
def valueBytes : PluginValue → List UInt8
  | .byte v => u8.write v
  | .short v => i16.write v
  | .int v => i32.write v
  | .long v => i64.write v
  | .float v => u32.write v

/-- A value written into a plugin. -/
def valueEdit : Format ValueEdit :=
  (pair entry (pair u64 pluginValue)).imap
    (fun (a, b, c) => ⟨a, b, c⟩) (fun e => (e.plugin, e.offset, e.value))

/-- What an XML edit replaces, after the number of its kind. -/
def xmlChange : Format XmlChange where
  write
    | .line line value => (tag 2).write 0 ++ (pair u64 text).write (line, value)
    | .replace find replacement => (tag 2).write 1 ++ (pair text text).write (find, replacement)
  read bytes := do
    let (n, bytes) ← (tag 2).read bytes
    if n = 0 then do
      let ((line, value), bytes) ← (pair u64 text).read bytes
      return (.line line value, bytes)
    else do
      let ((find, replacement), bytes) ← (pair text text).read bytes
      return (.replace find replacement, bytes)

/-- A text edit of an XML file. -/
def xmlEdit : Format XmlEdit :=
  (pair entry xmlChange).imap (fun (a, b) => ⟨a, b⟩) (fun e => (e.file, e.change))

/-- One of the two sets of files. -/
def fileKind : Format FileKind :=
  enum [.data, .plugin]

/-- A patch. -/
def filePatch : Format FilePatch :=
  (pair fileKind (pair entry (pair text bool))).imap
    (fun (a, b, c, d) => ⟨a, b, c, d⟩) (fun p => (p.kind, p.source, p.output, p.create))

/-- A plan. Metadata that has not reached its plugin is not saved. -/
def plan : Format Plan :=
  (pair (map dataFile) (pair (map pluginFile) (pair (list conflict) (pair (map iniEdit)
    (pair (map shaderEdit) (pair (map recordEdit) (pair (map valueEdit) (pair (map xmlEdit)
      (pair (map filePatch) (pair set set)))))))))).imap
    (fun (a, b, c, d, e, f, g, h, i, j, k) => ⟨a, b, c, d, e, f, g, h, i, j, k, .empty⟩)
    (fun p => (p.dataFiles, p.pluginFiles, p.conflicts, p.iniEdits, p.shaderEdits, p.recordEdits,
      p.valueEdits, p.xmlEdits, p.patches, p.registered, p.unregistered))

/-- Settings of a script run. -/
def settings : Format Settings :=
  (pair text (pair text (pair bool version))).imap
    (fun (a, b, c, d) => ⟨a, b, c, d⟩)
    (fun s => (s.dataPath, s.pluginsPath, s.dryRun, s.managerVersion))

end InstallScript.Codec
