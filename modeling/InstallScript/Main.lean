import InstallScript.Tool.Command

/-!
The program itself. It reads the files that the command line names into a disk, runs the tool on it,
and does what the tool's report says. Whenever the tool wants more input, another line is read and
the tool starts over, which writes the same as before and goes on from there.
-/

namespace InstallScript.Tool

/-- The steps a script may take, which no script takes in practice. -/
def stepLimit : Nat := Nat.pow 2 64

/-- The names that lead from the root to a path, without those that lead nowhere or upwards. -/
def directNames (here : List String) (path : String) : List String :=
  let names := (⟨.emptyFolder, here⟩ : Disk).partsOf path
  (names.foldl (fun above name =>
    if name = "" || name = "." then above
    else if name = ".." then above.tail
    else name :: above) []).reverse

/-- The path that names lead to from the root. -/
def absolutePath (names : List String) : String :=
  "/" ++ String.intercalate "/" names

/-- Puts a file or a folder with everything in it on a disk. Of files that are only looked for, the
    contents are left out. -/
partial def loadTree (withContents : Bool) (names : List String) (disk : Disk) : IO Disk := do
  let path := absolutePath names
  match ← (IO.FS.realPath path).toBaseIO with
  | .error _ => pure disk
  | .ok real =>
    if ← real.isDir then
      let mut disk := disk.add (path ++ "/") []
      for entry in ← real.readDir do
        disk ← loadTree withContents (names ++ [entry.fileName]) disk
      pure disk
    else if withContents then
      match ← (IO.FS.readBinFile path).toBaseIO with
      | .ok bytes => pure (disk.add path bytes.toList)
      | .error _ => pure disk
    else pure (disk.add path [])

/-- Puts a folder on a disk, but nothing that is in it. -/
def loadFolder (names : List String) (disk : Disk) : IO Disk := do
  let path := absolutePath names
  match ← (IO.FS.realPath path).toBaseIO with
  | .error _ => pure disk
  | .ok real => if ← real.isDir then pure (disk.add (path ++ "/") []) else pure (disk.add path [])

/-- The files that a task reads. -/
def loadDisk (task : Task) : IO Disk := do
  let current := (← IO.currentDir).toString
  let here := directNames [] current
  let disk : Disk := (⟨.emptyFolder, here⟩ : Disk).add (absolutePath here ++ "/") []
  match task with
  | .check script _ => loadTree true (directNames here script) disk
  | .run options =>
    let mut disk := disk
    for path in [options.script] ++ options.ini.toList ++ options.rendererInfo.toList do
      disk ← loadTree true (directNames here path) disk
    for folder in ["data", "plugins"] do
      disk ← loadTree true (directNames here options.package ++ [folder]) disk
    for path in options.gameData.toList do
      disk ← loadTree false (directNames here path) disk
    for path in options.output.toList do
      disk ← loadFolder (directNames here path).dropLast disk
      disk ← loadFolder (directNames here path) disk
    pure disk

/-- Reads a line of bytes with its line feed, or nothing at the end of the input. -/
partial def readLineBytes (input : IO.FS.Stream) (line : List UInt8) : IO (List UInt8) := do
  match (← input.read 1).toList with
  | [] => pure line.reverse
  | b :: _ => if b = 10 then pure (b :: line).reverse else readLineBytes input (b :: line)

/-- How an event is written. -/
def eventText : Event → String
  | .output text => text
  | .log r => r.level.name ++ " " ++ r.text ++ "\n"

/-- Writes events. -/
def writeEvents (events : List Event) : IO Unit := do
  let output ← IO.getStdout
  output.putStr (String.join (events.map eventText))
  output.flush

/-- Runs the tool on the input read so far, where `written` events have been written. -/
partial def interact (disk : Disk) (args : List String) (input : List UInt8) (written : Nat) :
    IO Report := do
  let report := execute stepLimit disk input args
  if report.starved then
    let known := report.events.dropLast
    writeEvents (known.drop written)
    match ← readLineBytes (← IO.getStdin) [] with
    | [] =>
      writeEvents (report.events.drop known.length)
      pure report
    | line => interact disk args (input ++ line) known.length
  else
    writeEvents (report.events.drop written)
    pure report

/-- Writes the plan that a run has saved. -/
def writePlan (report : Report) (options : RunOptions) : IO Unit := do
  if let some path := options.output then
    if let .ok bytes := report.disk.read path then
      if report.exitCode = 0 then IO.FS.writeBinFile path ⟨bytes.toArray⟩

end InstallScript.Tool

open InstallScript.Tool in
/-- Runs the tool. -/
def main (args : List String) : IO UInt32 := do
  match readArguments args with
  | .error _ =>
    let report := execute stepLimit ⟨.emptyFolder, []⟩ [] args
    if report.exitCode != 0 then IO.eprint helpText
    writeEvents report.events
    pure (UInt32.ofNat report.exitCode)
  | .ok invocation =>
    let report ← interact (← loadDisk invocation.task) args [] 0
    if let .run options := invocation.task then writePlan report options
    pure (UInt32.ofNat report.exitCode)
