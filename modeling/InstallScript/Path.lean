import InstallScript.Text.Blank
import InstallScript.Text.Lower
import InstallScript.Text.Name
import InstallScript.Text.Pieces

/-!
Paths inside a mod package. Scripts write them with either separator; the canonical form has single
backslashes between non-empty parts.
-/

namespace InstallScript.Path

open Text

/-- The two characters that separate the parts of a path. -/
def isSeparator (c : Char) : Bool :=
  c == '\\' || c == '/'

/-- The non-empty parts of a path. -/
def parts (path : String) : List (List Char) :=
  (splitAt isSeparator (trim path.toList)).filter (!·.isEmpty)

/-- The canonical form: trimmed, with one backslash between each two parts and none at the ends. -/
def normalize (path : String) : String :=
  String.ofList (joinWith ['\\'] (parts path))

/-- The key under which a path is filed, which ignores case and the choice of separators. -/
def key (path : String) : String :=
  lower (normalize path)

/-- Whether a path is rooted: it starts with a separator. -/
def isRooted : List Char → Bool
  | c :: _ => isSeparator c
  | [] => false

/-- Whether a path stays inside the folder it is relative to: it is not rooted, names no drive and
    has no part that leads upwards. -/
def isSafe (path : String) : Bool :=
  let trimmed := trim path.toList
  !isRooted trimmed && !trimmed.contains ':' &&
    !(splitAt (· == '\\') (normalize path).toList).contains ['.', '.']

/-- What is left of a canonical path below a folder, if it lies inside. The folder is compared
    without regard to case, and the empty folder holds every path. -/
def stripFolder (path folder : String) : Option String :=
  let inside := (normalize folder).toList
  if inside.isEmpty then some path
  else
    let head := path.toList.take inside.length
    if head.map Char.toLower = inside.map Char.toLower then
      match path.toList.drop inside.length with
      | '\\' :: c :: rest => some (String.ofList (c :: rest))
      | _ => none
    else none

/-- The last part of a canonical path. -/
def fileName (path : String) : String :=
  match splitLast '\\' path.toList with
  | some (_, name) => String.ofList name
  | none => path

/-- A canonical path without its last part. A path of one part has no folder. -/
def folder (path : String) : String :=
  match splitLast '\\' path.toList with
  | some (dir, _) => String.ofList dir
  | none => ""

/-- A file name without its extension. A dot at the very start does not begin an extension. -/
def stem (name : String) : String :=
  match splitLast '.' name.toList with
  | some (c :: base, _) => String.ofList (c :: base)
  | _ => name

/-- Joins a path onto a folder of the disk, where `/` separates parts. An absolute path stands for
    itself. -/
def onDisk (base path : String) : String :=
  match path.toList with
  | '/' :: _ => path
  | _ =>
    if base.isEmpty || base.toList.getLast? == some '/' then base ++ path else base ++ "/" ++ path

/-- A path of the package with the separator that disks use. -/
def forDisk (path : String) : String :=
  String.ofList (path.toList.map fun c => if c = '\\' then '/' else c)

end InstallScript.Path
