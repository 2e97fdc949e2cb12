import InstallScript.Codec.Plan
import InstallScript.Host.Console
import InstallScript.Machine.Run
import InstallScript.Plan.Printer
import InstallScript.Tool.Arguments

/-!
The command line tool as a function: it takes a disk and what the user will type, and gives what it
writes, its exit code and the disk it leaves behind.
-/

namespace InstallScript.Tool

open Script (Program)

/-- What the tool does while it works: text for the user and log records, latest first, and changes
    to the disk. -/
structure Progress where
  disk : Disk
  console : Console
  events : List Event := []

/-- A step of the tool's work, which can fail. -/
abbrev Work (α : Type) := ExceptT ToolError (StateM Progress) α

namespace Work

/-- Notes what happened. -/
def note (events : List Event) : Work Unit :=
  modify fun p => { p with events := events.reverse ++ p.events }

/-- Writes a text for the user. -/
def write (text : String) : Work Unit :=
  note [.output text]

/-- Shows a notice, with an empty line after it. -/
def present (notice : Notice) : Work Unit :=
  write (notice.text ++ "\n")

/-- The result of using the disk. -/
def access (result : Except DiskFault α) : Work α :=
  match result with
  | .ok a => pure a
  | .error fault => throw (.access fault.toAccessError)

/-- Reads a text file. -/
def readText (path : String) : Work String := do
  access ((← get).disk.readText path)

end Work

/-- Loads a script and reports what is wrong with it. Its statements can be written back out. -/
def check (path : String) (dump : Bool) : Work Unit := do
  let text ← Work.readText path
  if dump then
    match Script.statements text with
    | .ok statements => Work.write (String.join (statements.map fun s => s.text ++ "\n"))
    | .error error => throw (.script (.load error))
  match Program.parse text with
  | .error error => throw (.script (.load error))
  | .ok program =>
    Work.note program.loadEvents
    Work.present (Notice.ofKind .success "Check"
      |>.addField "Script" path
      |>.addField "Statements" (Number.textOfNat program.size))

/-- Reads the version that an option gives. -/
def readVersion (option value : String) : Work Version :=
  match Version.read value with
  | some version => pure version
  | none => throw (.custom (Notice.ofKind .error "Arguments"
      |>.addField "Description" s!"'{value}' is not a valid version for '{option}'."
      |>.addField "Suggestion" "Versions look like '1.2' or '1.2.416.0'."))

/-- Collects what the options say about the game. -/
def readFacts (options : RunOptions) : Work GameFacts := do
  let scriptExtender ← options.scriptExtender.mapM (readVersion "--obse")
  let graphicsExtender ← options.graphicsExtender.mapM (readVersion "--obge")
  let game ← options.game.mapM (readVersion "--oblivion")
  let ini ← options.ini.mapM Work.readText
  let rendererInfo ← options.rendererInfo.mapM Work.readText
  pure {
    dataFolder := options.gameData
    scriptExtender, graphicsExtender
    game := game.getD .game
    ini, rendererInfo }

/-- Saves a plan. -/
def save (path : String) (plan : Plan) : Work Unit := do
  let bytes := Codec.plan.write plan
  let p ← get
  let disk ← Work.access (p.disk.write path bytes)
  set { p with disk }
  let count := bytes.length
  Work.note [.debug s!"Saved {count} bytes to '{path}'.",
    .info s!"Saved the install plan to '{path}'."]

/-- The numbers that sum a plan up. -/
def summary (plan : Plan) : Notice :=
  Notice.ofKind .statistics "Install Plan"
    |>.addField "Data files" (Number.textOfNat plan.dataFiles.size)
    |>.addField "Plugins" (Number.textOfNat plan.pluginFiles.size)
    |>.addField "Conflicts" (Number.textOfNat plan.conflicts.length)
    |>.addField "Edits" (Number.textOfNat plan.editCount)

/-- Runs a script of an extracted package for at most `steps` steps on the terminal. -/
def runPackage (steps : Nat) (options : RunOptions) (text : String) (settings : Settings)
    (facts : GameFacts) : Work (Completion × Plan) := do
  let p ← get
  let (files, events) := p.disk.scan settings
  Work.note events
  let ctx : Context Console := ⟨⟨settings, files, p.disk⟩, Console.host p.disk facts⟩
  let outcome := runScript ctx p.console steps text
  modify fun p => { p with
    console := outcome.session.host, events := outcome.session.events ++ p.events }
  match outcome with
  | .ended completion session => pure (completion, session.plan)
  | .failed failure _ => throw (.script failure)
  | .unfinished _ => throw (.unknown (options.script ++ " did not come to an end."))

/-- Runs a script and shows the plan it builds. -/
def run (steps : Nat) (options : RunOptions) : Work Unit := do
  let text ← Work.readText options.script
  let managerVersion ← readVersion "--obmm-version" options.managerVersion
  let settings := { Settings.withRoot options.package with
    dryRun := options.dryRun, managerVersion }
  let facts ← readFacts options
  let (completion, plan) ← runPackage steps options text settings facts
  Work.write plan.text
  Work.present (summary plan)
  if let some path := options.output then save path plan
  let description := match completion with
    | .finished => "The script finished."
    | .returned => "The script returned early."
  Work.present (Notice.ofKind .success "Run" |>.addField "Description" description)

/-- What the tool leaves behind: its exit code, what it wrote and logged, the disk, and whether it
    wanted more input than there was. -/
structure Report where
  exitCode : Nat
  events : List Event
  disk : Disk
  starved : Bool

/-- The exit code for a command line that cannot be understood. -/
def misuseCode : Nat := 2

/-- The least important log records that are shown. -/
def logLimit (verbosity : Nat) : LogLevel :=
  match verbosity with
  | 0 => .warn
  | 1 => .info
  | _ => .debug

/-- Whether something that happened is shown to the user. -/
def isShown (limit : LogLevel) : Event → Bool
  | .log r => r.level.within limit
  | .output _ => true

/-- Does what the command line asks for. -/
def perform (steps : Nat) (task : Task) : Work Unit :=
  match task with
  | .check script dump => check script dump
  | .run options => run steps options

/-- The version of the tool. -/
def versionText : String := "omodcrab 0.1.0\n"

/-- How to use the tool. -/
def helpText : String :=
  String.intercalate "\n" [
    "Usage: omodcrab [OPTIONS] <COMMAND>",
    "",
    "Commands:",
    "  check <SCRIPT>       Loads a script and reports any syntax or structure errors",
    "  run <SCRIPT> <OMOD>  Runs a script against an extracted OMOD and prints its install plan",
    "  help                 Print this message",
    "",
    "Options of check:",
    "      --dump                           Print every statement in its canonical form",
    "",
    "Options of run:",
    "      --dry-run                        Do not read the extracted files",
    "      --obmm-version <OBMM_VERSION>    The OBMM version scripts see",
    "  -o, --output <OUTPUT>                Save the finished install plan to this file",
    "      --game-data <GAME_DATA>          The game's data folder",
    "      --obse <OBSE>                    The installed script extender's version",
    "      --obge <OBGE>                    The installed graphics extender's version",
    "      --oblivion <OBLIVION>            The game's version",
    "      --ini <INI>                      Oblivion.ini, for 'ReadINI'",
    "      --renderer-info <RENDERER_INFO>  RendererInfo.txt, for 'ReadRendererInfo'",
    "",
    "Options:",
    "  -v, --verbose                        Print more logs; pass twice for debug output",
    "  -h, --help                           Print help",
    "  -V, --version                        Print version",
    ""]

/-- The whole tool, for at most `steps` steps of a script. Errors are shown as notices. -/
def execute (steps : Nat) (disk : Disk) (input : List UInt8) (args : List String) : Report :=
  match readArguments args with
  | .error .misuse => ⟨misuseCode, [], disk, false⟩
  | .error .help => ⟨0, [.output helpText], disk, false⟩
  | .error .version => ⟨0, [.output versionText], disk, false⟩
  | .ok invocation =>
    let shown := isShown (logLimit invocation.verbosity)
    let start : Progress := { disk, console := ⟨input, false⟩ }
    let (result, p) := (perform steps invocation.task).run.run start
    let history := p.events.reverse.filter shown
    match result with
    | .ok () => ⟨0, history, p.disk, p.console.starved⟩
    | .error error =>
      ⟨1, history ++ [.output (error.notice.text ++ "\n")], p.disk, p.console.starved⟩

end InstallScript.Tool
