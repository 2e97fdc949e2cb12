import InstallScript.Disk.Scan
import InstallScript.Host.Basic
import InstallScript.Machine.Substitute
import InstallScript.Plan.Change

/-!
The state of a run, and the steps that change it. A step that fails keeps what was done before it
failed: changes of the state, what the host did and what was logged.
-/

namespace InstallScript

/-- What a run reads and never changes. -/
structure Site where
  settings : Settings
  files : FileSet
  disk : Disk

/-- A site together with the host that a run talks to. -/
structure Context (σ : Type) extends Site where
  host : Host σ

/-- The state of a run: its variables, the plan so far, the state of the host, and what happened,
    latest first. -/
structure Session (σ : Type) where
  vars : Variables
  plan : Plan
  host : σ
  events : List Event

namespace Session

/-- The state in which a run starts. -/
def start (host : σ) : Session σ := ⟨.empty, .empty, host, []⟩

/-- Notes what happened. -/
def note (s : Session σ) (events : List Event) : Session σ :=
  { s with events := events.reverse ++ s.events }

/-- Applies changes to the plan, one after the other. -/
def change (s : Session σ) (changes : List Change) : Session σ :=
  { s.note (Change.eventsAll changes s.plan) with plan := Change.applyAll changes s.plan }

/-- Gives a variable a value. -/
def setVariable (s : Session σ) (name value : String) : Session σ :=
  { s with vars := s.vars.insert name value }

/-- Gives a variable a value that a statement computed. -/
def assign (s : Session σ) (name value : String) : Session σ :=
  (s.note [.debug ("Set '" ++ name ++ "' to '" ++ value ++ "'.")]).setVariable name value

/-- What happened, oldest first. -/
def history (s : Session σ) : List Event :=
  s.events.reverse

end Session

/-- A step of a run that can fail. -/
abbrev Exec (σ α : Type) := ExceptT Failure (StateM (Session σ)) α

namespace Exec

/-- Fails because of the statement on a line. -/
def fail (line : Nat) (cause : RunCause) : Exec σ α :=
  throw (.run ⟨line, cause⟩)

/-- The result of a computation that does not touch the state. -/
def lift (line : Nat) (result : Except RunCause α) : Exec σ α :=
  match result with
  | .ok a => pure a
  | .error cause => fail line cause

/-- Notes what happened. -/
def note (events : List Event) : Exec σ Unit :=
  modify fun s => s.note events

/-- Makes one change to the plan. -/
def change (c : Change) : Exec σ Unit :=
  modify fun s => s.change [c]

/-- Gives a variable a value that a statement computed. -/
def assign (name value : String) : Exec σ Unit :=
  modify fun s => s.assign name value

/-- Calls the host. -/
def call (line : Nat) (call : HostCall σ α) : Exec σ α := do
  let s ← get
  let reply := call s.host
  set { s.note reply.events with host := reply.state }
  match reply.answer with
  | .ok a => pure a
  | .error reason => fail line (.host reason)

end Exec

end InstallScript
