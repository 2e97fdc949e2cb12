import InstallScript.Machine.Step

/-!
Whole runs. A script need not end, so a run is given a number of steps it may take.
-/

namespace InstallScript

open Script (Program)

/-- How a run stands when it has ended or has no steps left. -/
inductive Outcome (σ : Type) where
  | ended (completion : Completion) (session : Session σ)
  | failed (failure : Failure) (session : Session σ)
  | unfinished (machine : Machine σ)

/-- The state in which a run was left. -/
def Outcome.session : Outcome σ → Session σ
  | .ended _ session | .failed _ session => session
  | .unfinished machine => machine.session

namespace Machine

/-- Runs for at most `steps` steps. -/
def run (ctx : Context σ) : (steps : Nat) → Machine σ → Outcome σ
  | 0, m => .unfinished m
  | steps + 1, m =>
    match m.step ctx with
    | .next m => run ctx steps m
    | .ended completion session => .ended completion session
    | .failed failure session => .failed failure session

end Machine

/-- Runs a program from a state. -/
def Session.execute (session : Session σ) (ctx : Context σ) (steps : Nat) (program : Program) :
    Outcome σ :=
  (Machine.start program session).run ctx steps

/-- Finishes the plan of a run. -/
def Session.finalize (session : Session σ) : Session σ :=
  { session.note session.plan.finalizeEvents with plan := session.plan.finalize }

/-- Loads and runs a script. The plan is finished when the run has ended. -/
def runScript (ctx : Context σ) (host : σ) (steps : Nat) (text : String) : Outcome σ :=
  let session := Session.start host
  match Program.parse text with
  | .error error => .failed (.load error) session
  | .ok program =>
    let size := program.size
    let session := session.note
      (program.loadEvents ++ [.info s!"Running a script with {size} statements."])
    match session.execute ctx steps program with
    | .ended completion session => .ended completion session.finalize
    | other => other

end InstallScript
