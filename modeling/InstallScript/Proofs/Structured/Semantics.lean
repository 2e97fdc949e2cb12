import InstallScript.Machine.Run
import InstallScript.Proofs.Machine.Sequence
import InstallScript.Proofs.Nesting.Block

/-!
What nested programs mean, without program counter, links and open blocks. A block runs its
statements one after the other; each says whether the next one follows or which block around it is
left. Every statement is logged when it is carried out, the ones that split and close blocks
included.
-/

namespace InstallScript

open Script

/-- How a block came to its end: the statements after it follow, a loop around it goes on with its
    next round or is left, a case around it is left, or the whole program ends. -/
inductive Flow where
  | normal
  | continueLoop
  | exitLoop
  | breakCase
  | returned
  deriving DecidableEq, Repr

namespace Exec

variable {σ : Type}

/-- Logs that a statement is carried out. -/
def trace (s : Statement) : Exec σ Unit :=
  note [Machine.trace s]

/-- A statement that does nothing but mark the middle or the end of a block. -/
def mark (s : Statement) : Exec σ Flow := do
  trace s
  pure .normal

/-- Goes on with what follows, unless a block around it is left. -/
def andThen (x rest : Exec σ Flow) : Exec σ Flow := do
  match ← x with
  | .normal => rest
  | flow => pure flow

/-- Runs the body of a loop for each of the values of its variable. -/
def rounds (variableName : String) (stop : Statement) (body : Exec σ Flow) :
    List String → Exec σ Flow
  | [] => pure .normal
  | item :: rest => do
    modify fun s => s.setVariable variableName item
    match ← body with
    | .normal =>
      trace stop
      rounds variableName stop body rest
    | .continueLoop => rounds variableName stop body rest
    | .exitLoop => pure .normal
    | flow => pure flow

end Exec

namespace Script

variable {σ : Type} (ctx : Context σ)

/-- Carries a plain statement out. A `Goto` has no meaning of its own in a nested program. -/
def Command.runPlain (line : Nat) : Command → Exec σ Flow
  | .continueLoop => pure .continueLoop
  | .exitLoop => pure .exitLoop
  | .breakCase => pure .breakCase
  | .returnEarly => do
    Exec.note [.info s!"The script returned early on line {line}."]
    pure .returned
  | .fatalError => do
    Exec.note [.warn s!"The script hit 'FatalError' on line {line}."]
    throw (.fatal line)
  | .setVar name value => do
    let value ← Exec.lift line ((← get).vars.substitute value)
    modify fun s => s.setVariable name value
    pure .normal
  | .instruction kind args => do
    Instruction.run ctx line kind args
    pure .normal
  | _ => pure .normal

/-- Whether the first branch of an `If` runs. -/
def Test.holds (test : Test) (line : Nat) : Exec σ Bool := do
  let result ← test.condition.test ctx line test.args
  pure (result != test.negated)

/-- The values that the variable of a loop takes. -/
def LoopHeader.items (header : LoopHeader) (line : Nat) : Exec σ (List String) := do
  let (state, events) ← Exec.lift line (LoopState.ofHeader ctx.toSite (← get).vars line header)
  Exec.note events
  if state.items.isEmpty then
    Exec.note [.debug s!"Loop on line {line} has no iterations."]
  pure state.items

/-- The values that a select was given. -/
def Selector.results (line : Nat) : Selector → Exec σ (List String)
  | .menu m => m.pick ctx line
  | .named name => do
    match (← get).vars.get? name with
    | some value => pure [value]
    | none => Exec.fail line (.undefinedVariable name)
  | .literal value => do
    let value ← Exec.lift line ((← get).vars.substitute value)
    pure [value]

/-- Whether a case runs, where earlier cases have used some of the values. If it does, this gives
    the values that are used from then on. -/
def Guard.enter (line : Nat) (results used : List String) : Guard → Exec σ (Option (List String))
  | .value text => do
    let value ← Exec.lift line ((← get).vars.substitute text)
    if results.contains value && !used.contains value then
      Exec.note [.debug s!"Case '{value}' matched on line {line}."]
      pure (some (used ++ [value]))
    else pure none
  | .unmatched => pure (if used.isEmpty then some used else none)

mutual

/-- Runs a block. The statements between a select and its first case never run. -/
def Block.run : Block → Exec σ Flow
  | .nil => pure .normal
  | .plain line c rest => do
    Exec.trace ⟨line, c.command⟩
    (c.command.runPlain ctx line).andThen rest.run
  | .ifThen line test body stopLine rest => do
    Exec.trace ⟨line, test.command⟩
    if ← test.holds ctx line then
      (body.run.andThen (Exec.mark ⟨stopLine, .endIf⟩)).andThen rest.run
    else rest.run
  | .ifElse line test body elseLine other stopLine rest => do
    Exec.trace ⟨line, test.command⟩
    if ← test.holds ctx line then
      (body.run.andThen (Exec.mark ⟨elseLine, .otherwise⟩)).andThen rest.run
    else (other.run.andThen (Exec.mark ⟨stopLine, .endIf⟩)).andThen rest.run
  | .loop line header body stopLine rest => do
    Exec.trace ⟨line, .forLoop header⟩
    let items ← header.items ctx line
    (Exec.rounds header.variableName ⟨stopLine, .endFor⟩ body.run items).andThen rest.run
  | .select line selector _ arms stopLine rest => do
    Exec.trace ⟨line, selector.command⟩
    let results ← selector.results ctx line
    ((arms.run results []).andThen (Exec.mark ⟨stopLine, .endSelect⟩)).andThen rest.run

/-- Runs the cases of a select one after the other. A `Break` ends the case it is in. -/
def Arms.run (results used : List String) : Arms → Exec σ Flow
  | .nil => pure .normal
  | .cons line guard body rest => do
    Exec.trace ⟨line, guard.command⟩
    match ← guard.enter line results used with
    | none => rest.run results used
    | some used =>
      match ← body.run with
      | .normal | .breakCase => rest.run results used
      | flow => pure flow

end

/-- How the run of a whole program ends. -/
def Block.outcome (b : Block) (session : Session σ) : Outcome σ :=
  match (b.run ctx).run.run session with
  | (.ok .returned, session) => .ended .returned session
  | (.ok _, session) => .ended .finished session
  | (.error failure, session) => .failed failure session

end Script

end InstallScript
