import InstallScript.Disk.Basic
import InstallScript.Log
import InstallScript.Package.Entry
import InstallScript.Settings

/-!
Walking a folder tree, and reading the files of an extracted package from it.
-/

namespace InstallScript

/-- Something found below a folder: the names that lead to it from there, and what it is. -/
structure Found where
  names : List String
  node : Node

namespace Node

mutual

/-- Everything below a node. A folder comes before what it holds, and the children of a folder come
    in the order of their names. -/
def descendants : Node → List Found
  | .file _ => []
  | .folder children =>
    ((branches children).mergeSort fun a b => !decide (b.1 < a.1)).flatMap Prod.snd

/-- The children of a folder with everything below them, each under its name. -/
def branches : List (String × Node) → List (String × List Found)
  | [] => []
  | (name, node) :: rest =>
    let inner := node.descendants.map fun f => { f with names := name :: f.names }
    (name, ⟨[name], node⟩ :: inner) :: branches rest

end

end Node

/-- One step of the checksum, for one bit. -/
def crcBit (crc : UInt32) : UInt32 :=
  if crc &&& 1 == 1 then (crc >>> 1) ^^^ 0xEDB88320 else crc >>> 1

/-- One step of the checksum, for one byte. -/
def crcByte (crc : UInt32) (b : UInt8) : UInt32 :=
  let x := crc ^^^ b.toUInt32
  crcBit (crcBit (crcBit (crcBit (crcBit (crcBit (crcBit (crcBit x)))))))

/-- The checksum of a file's content: the reflected CRC with polynomial 0x04C11DB7. -/
def crc32 (bytes : List UInt8) : UInt32 :=
  bytes.foldl crcByte 0xFFFFFFFF ^^^ 0xFFFFFFFF

/-- The files among what was found, with their contents, each under its path. -/
def filesOf (found : List Found) : List (String × List UInt8) :=
  found.filterMap fun f =>
    match f.node with
    | .file content => some (String.intercalate "/" f.names, content)
    | .folder _ => none

/-- Entries for files, whose contents follow each other from `offset` on. -/
def entriesFrom (offset : UInt64) : List (String × List UInt8) → List Entry
  | [] => []
  | (path, content) :: rest =>
    let length := UInt64.ofNat content.length
    Entry.ofPath path (crc32 content) length offset :: entriesFrom (offset + length) rest

namespace Disk

/-- The files below a folder as entries. A folder that is missing holds none; a file in its place
    is the only one, with an empty path. -/
def scanFolder (disk : Disk) (path : String) : List Entry × List Event :=
  match disk.find path with
  | .error _ =>
    ([], [.warn ("The extracted folder '" ++ path ++ "' does not exist; treating it as empty.")])
  | .ok (.file content) => (entriesFrom 0 [("", content)], [])
  | .ok node => (entriesFrom 0 (filesOf node.descendants), [])

/-- The files of an extracted package. -/
def scan (disk : Disk) (settings : Settings) : FileSet × List Event :=
  let (data, dataEvents) := disk.scanFolder settings.dataPath
  let (plugins, pluginEvents) := disk.scanFolder settings.pluginsPath
  let dataCount := data.length
  let pluginCount := plugins.length
  (⟨data, plugins⟩, dataEvents ++ pluginEvents ++
    [.info s!"Scanned {dataCount} data files and {pluginCount} plugins."])

end Disk

end InstallScript
