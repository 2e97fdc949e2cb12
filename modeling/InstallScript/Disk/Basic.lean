import InstallScript.Text.Pieces
import InstallScript.Text.Utf8

/-!
A disk: a tree of folders and files, and a current folder from which relative paths start.
-/

namespace InstallScript

/-- Why a path could not be used. -/
inductive DiskFault where
  | notFound
  | notAFolder
  | isAFolder
  | nameTooLong
  | nulInName
  | notText
  deriving DecidableEq, Repr

/-- The fault in words. -/
def DiskFault.message : DiskFault → String
  | .notFound => "No such file or directory (os error 2)"
  | .notAFolder => "Not a directory (os error 20)"
  | .isAFolder => "Is a directory (os error 21)"
  | .nameTooLong => "File name too long (os error 36)"
  | .nulInName => "file name contained an unexpected NUL byte"
  | .notText => "stream did not contain valid UTF-8"

/-- A file or folder. -/
inductive Node where
  | file (content : List UInt8)
  | folder (children : List (String × Node))
  deriving Inhabited

namespace Node

/-- The folder without children. -/
def emptyFolder : Node := .folder []

/-- Whether this is a folder. -/
def isFolder : Node → Bool
  | .folder _ => true
  | .file _ => false

/-- Descends into a child of a folder. -/
def child (node : Node) (name : String) : Except DiskFault Node :=
  match node with
  | .file _ => .error .notAFolder
  | .folder children =>
    if 255 < name.utf8ByteSize then .error .nameTooLong
    else match children.lookup name with
      | some child => .ok child
      | none => .error .notFound

/-- Sets the child of a folder, in place of one that is there. -/
def setChild (name : String) (child : Node) : List (String × Node) → List (String × Node)
  | [] => [(name, child)]
  | (n, c) :: rest => if n = name then (n, child) :: rest else (n, c) :: setChild name child rest

/-- Puts a node below a folder, creating the folders on the way to it. -/
def put (node : Node) : List String → Node → Node
  | [], new => new
  | name :: rest, new =>
    let children := match node with
      | .folder children => children
      | .file _ => []
    let below := (children.lookup name).getD emptyFolder
    .folder (setChild name (below.put rest new) children)
termination_by names => names.length

end Node

/-- A tree of files, and the folder that relative paths start from. -/
structure Disk where
  root : Node
  here : List String

namespace Disk

/-- The disk without files. -/
def empty : Disk := ⟨.emptyFolder, []⟩

/-- Follows the parts of a path. `trail` holds the folders passed, innermost first, with the names
    that lead to them; it never runs out, since the root lies above itself. -/
def walk (trail : List (String × Node)) (node : Node) :
    List String → Except DiskFault (List String × Node)
  | [] => .ok ((trail.map Prod.fst).reverse, node)
  | part :: rest =>
    if part = "" || part = "." then
      if node.isFolder then walk trail node rest else .error .notAFolder
    else if part = ".." then
      if node.isFolder then
        match trail with
        | (_, above) :: trail => walk trail above rest
        | [] => walk [] node rest
      else .error .notAFolder
    else
      match node.child part with
      | .ok below => walk ((part, node) :: trail) below rest
      | .error fault => .error fault

/-- The parts of a path from the root of the disk. -/
def partsOf (disk : Disk) (path : String) : List String :=
  let parts := Text.pieces (· == '/') path
  match path.toList with
  | '/' :: _ => parts
  | _ => disk.here ++ parts

/-- Finds what a path leads to, and the names on the direct way there. -/
def locate (disk : Disk) (path : String) : Except DiskFault (List String × Node) :=
  if path.toList.contains '\x00' then .error .nulInName
  else if path.isEmpty then .error .notFound
  else walk [] disk.root (disk.partsOf path)

/-- Finds what a path leads to. -/
def find (disk : Disk) (path : String) : Except DiskFault Node :=
  (disk.locate path).map Prod.snd

/-- Whether a path leads to something. -/
def holds (disk : Disk) (path : String) : Bool :=
  match disk.find path with
  | .ok _ => true
  | .error _ => false

/-- The content of a file. -/
def read (disk : Disk) (path : String) : Except DiskFault (List UInt8) :=
  match disk.find path with
  | .ok (.file content) => .ok content
  | .ok (.folder _) => .error .isAFolder
  | .error fault => .error fault

/-- The content of a text file. -/
def readText (disk : Disk) (path : String) : Except DiskFault String := do
  match Text.decodeUtf8 (← disk.read path) with
  | .ok text => .ok text
  | .error _ => .error .notText

/-- Writes a file into a folder that is there. -/
def write (disk : Disk) (path : String) (content : List UInt8) : Except DiskFault Disk :=
  if path.isEmpty then .error .notFound
  else match disk.locate path with
  | .ok (_, .folder _) => .error .isAFolder
  | .ok (names, .file _) => .ok { disk with root := disk.root.put names (.file content) }
  | .error .notFound =>
    match (disk.partsOf path).reverse with
    | [] => .error .notFound
    | name :: above =>
      match walk [] disk.root above.reverse with
      | .error fault => .error fault
      | .ok (_, .file _) => .error .notAFolder
      | .ok (names, .folder _) =>
        if name = "" then .error .isAFolder
        else .ok { disk with root := disk.root.put (names ++ [name]) (.file content) }
  | .error fault => .error fault

/-- Adds a file, creating the folders on the way to it, or a folder if the path ends in `/`. -/
def add (disk : Disk) (path : String) (content : List UInt8) : Disk :=
  let names := (disk.partsOf path).filter (· ≠ "")
  match path.toList.getLast? with
  | some '/' =>
    match walk [] disk.root names with
    | .ok _ => disk
    | .error _ => { disk with root := disk.root.put names .emptyFolder }
  | _ => { disk with root := disk.root.put names (.file content) }

end Disk

end InstallScript
