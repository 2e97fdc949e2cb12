import InstallScript.Machine.Argument
import InstallScript.Pattern.Wildcard
import InstallScript.Script.Statement

/-!
The sequences that loops walk over. A loop over numbers computes them as it goes, and a loop over a
listing reads it when the loop starts.
-/

namespace InstallScript

open Script (Enumeration LoopHeader)

/-- Where a loop is in its sequence. A loop over numbers has no next one when that would be out of
    range. -/
inductive LoopState where
  | count (next : Option Int) (last step : Int)
  | each (items : List String)
  deriving DecidableEq, Repr

namespace LoopState

/-- The next value of the loop variable and the state after it, until the loop is done. -/
def next? : LoopState → Option (String × LoopState)
  | .count none _ _ => none
  | .count (some n) last step =>
    if (if 0 < step then n ≤ last else last ≤ n) then
      some (Number.textOfInt n, .count (Number.long.check (n + step)) last step)
    else none
  | .each [] => none
  | .each (item :: rest) => some (item, .each rest)

/-- A loop over numbers, which must not stand still. -/
def counting (start last step : Int) : Except RunCause LoopState :=
  if step = 0 then .error (.invalidArgument "0" .nonZeroStep)
  else .ok (.count (some start) last step)

end LoopState

/-- The set of files that a listing comes from. -/
def Script.Enumeration.fileKind : Enumeration → FileKind
  | .dataFolder | .dataFile => .data
  | .pluginFolder | .plugin => .plugin

/-- Whether a listing is one of folders. -/
def Script.Enumeration.wantsFolders : Enumeration → Bool
  | .dataFolder | .pluginFolder => true
  | .dataFile | .plugin => false

namespace Listing

/-- Lists a folder of the package. -/
def ofPackage (files : FileSet) (kind : Enumeration) (folder : String) (recurse : Bool) :
    List String :=
  if kind.wantsFolders then
    (files.folders kind.fileKind).filter fun name =>
      match Path.stripFolder name folder with
      | some rest => recurse || !rest.toList.contains '\\'
      | none => false
  else (files.inFolder kind.fileKind folder recurse).map Entry.name

/-- Where the files of one kind were extracted to. -/
def rootOf (settings : Settings) : FileKind → String
  | .data => settings.dataPath
  | .plugin => settings.pluginsPath

/-- The canonical path of something found below a folder. -/
def pathBelow (folder : String) (names : List String) : String :=
  let above := (Path.parts folder).map String.ofList
  Path.normalize (String.intercalate "/" (above.dropWhile (· == ".") ++ names))

/-- Lists a folder of the disk. -/
def ofDisk (site : Site) (line : Nat) (kind : Enumeration) (folder : String) (recurse : Bool) :
    List String × List Event :=
  let path := Path.onDisk (rootOf site.settings kind.fileKind)
    (Path.forDisk (Path.normalize folder))
  match site.disk.find path with
  | .ok (.folder children) =>
    let found := (Node.folder children).descendants.filter fun f =>
      (recurse || f.names.length == 1) && f.node.isFolder == kind.wantsFolders
    (found.map fun f => pathBelow folder f.names, [])
  | _ => ([], [.debug ("'" ++ path ++ s!"' is not a folder, so the loop on line {line} is empty.")])

/-- Whether the last part of a path matches a wildcard. The empty wildcard matches everything. -/
def keeps (pattern : Option String) (path : String) : Bool :=
  match pattern with
  | some pattern =>
    pattern.isEmpty || Wildcard.accepts pattern.toList (Path.fileName path).toList
  | none => true

/-- The listing a loop walks over: what matches the wildcard, sorted without regard to case. A dry
    run lists the package, any other run the disk. -/
def read (site : Site) (line : Nat) (kind : Enumeration) (folder : String) (recurse : Bool)
    (pattern : Option String) : List String × List Event :=
  let (all, events) :=
    if site.settings.dryRun then (ofPackage site.files kind folder recurse, [])
    else ofDisk site line kind folder recurse
  let items := sortByLower (all.filter (keeps pattern))
  let count := items.length
  (items, events ++ [.debug s!"Loop on line {line} walks {count} entries."])

end Listing

/-- The sequence of a loop whose header may hold placeholders, and what is logged about it. -/
def LoopState.ofHeader (site : Site) (vars : Variables) (line : Nat) (header : LoopHeader) :
    Except RunCause (LoopState × List Event) := do
  match header with
  | .count _ start stop step =>
    let start ← Argument.integer Number.long (← vars.substitute start)
    let stop ← Argument.integer Number.long (← vars.substitute stop)
    let step ← match step with
      | some step => Argument.integer Number.long (← vars.substitute step)
      | none => pure 1
    pure (← LoopState.counting start stop step, [])
  | .each kind _ folder recurse pattern =>
    let folder ← vars.substitute folder
    if !Path.isSafe folder then throw (.invalidPath folder)
    let recurse ← Argument.flag (← vars.substituteOption recurse)
    let pattern ← vars.substituteOption pattern
    let (items, events) := Listing.read site line kind folder recurse pattern
    pure (.each items, events)

end InstallScript
