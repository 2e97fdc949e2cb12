import InstallScript.Path

/-!
Files inside a mod package, and the two sets a package keeps them in.
-/

namespace InstallScript

/-- The two sets of files a package has. -/
inductive FileKind where
  | data
  | plugin
  deriving DecidableEq, Repr, Inhabited

/-- What a file of the set is called. -/
def FileKind.text : FileKind → String
  | .data => "data file"
  | .plugin => "plugin"

/-- A file of a package: its canonical path, the checksum and length of its contents, and where
    these start among the contents of its set. -/
structure Entry where
  name : String
  crc : UInt32
  length : UInt64
  offset : UInt64
  deriving DecidableEq, Repr, Inhabited

namespace Entry

/-- An entry under the canonical form of a path. -/
def ofPath (path : String) (crc : UInt32) (length offset : UInt64) : Entry :=
  ⟨Path.normalize path, crc, length, offset⟩

/-- The last part of the entry's path. -/
def fileName (e : Entry) : String :=
  Path.fileName e.name

/-- Whether the entry lies in a folder, at any depth if `recurse` is set. -/
def isInFolder (e : Entry) (folder : String) (recurse : Bool) : Bool :=
  match Path.stripFolder e.name folder with
  | some rest => recurse || !rest.toList.contains '\\'
  | none => false

/-- Whether two entries are the same file: one name up to case, and one checksum. -/
def same (a b : Entry) : Bool :=
  a.crc == b.crc && Text.sameName a.name b.name

end Entry

/-- The files of a package. -/
structure FileSet where
  data : List Entry
  plugins : List Entry
  deriving DecidableEq, Repr, Inhabited

/-- Sorts texts by their lower-case forms. Texts with one form keep their order. -/
def sortByLower (texts : List String) : List String :=
  let keyed := texts.map fun t => (Text.lower t, t)
  (keyed.mergeSort fun a b => !decide (b.1 < a.1)).map Prod.snd

namespace FileSet

/-- The package without files. -/
def empty : FileSet := ⟨[], []⟩

/-- The files of one kind. -/
def entries (files : FileSet) : FileKind → List Entry
  | .data => files.data
  | .plugin => files.plugins

/-- Looks a file up by its path, without regard to case or separators. -/
def find? (files : FileSet) (kind : FileKind) (path : String) : Option Entry :=
  let name := Path.normalize path
  (files.entries kind).find? fun e => Text.sameName e.name name

/-- The files of one kind in a folder. -/
def inFolder (files : FileSet) (kind : FileKind) (folder : String) (recurse : Bool) : List Entry :=
  (files.entries kind).filter (·.isInFolder folder recurse)

/-- The folders a canonical path lies in, outermost first. -/
def foldersAbove (path : List Char) : List (List Char) :=
  go [] path
where
  /-- The folders that end after the characters already seen, last one first. -/
  go (seen : List Char) : List Char → List (List Char)
    | [] => []
    | c :: rest => if c = '\\' then seen.reverse :: go (c :: seen) rest else go (c :: seen) rest

/-- Adds a folder unless it is known under some spelling. -/
def addFolder (known : List String) (folder : String) : List String :=
  if known.any (Text.sameName · folder) then known else known ++ [folder]

/-- Every folder that files of one kind lie in, each in the first spelling met, sorted without
    regard to case. -/
def folders (files : FileSet) (kind : FileKind) : List String :=
  let all := (files.entries kind).flatMap fun e => (foldersAbove e.name.toList).map String.ofList
  sortByLower (all.foldl addFolder [])

end FileSet

end InstallScript
