import InstallScript.Machine.Condition
import InstallScript.Machine.Frame
import InstallScript.Machine.Instruction
import InstallScript.Machine.Select

/-!
One step of a run. A run has a stack of programs: the script itself, and above it the programs that
`ExecLines` has started and that have not ended.
-/

namespace InstallScript

open Script (Keyword Link Program Statement)

/-- How many programs started by `ExecLines` may run inside each other. -/
def maxExecDepth : Nat := 32

/-- A program that is running: the index of its next statement, and the blocks that are open,
    innermost first. -/
structure Activation where
  program : Program
  pc : Nat
  frames : List Frame

/-- A program that has not done anything yet. -/
def Activation.start (program : Program) : Activation := ⟨program, 0, []⟩

/-- Where a run goes from a statement. -/
inductive Action where
  /-- Goes on at a statement of the same program. -/
  | jump (pc : Nat) (frames : List Frame)
  /-- Runs another program, and then goes on after the statement. -/
  | enter (program : Program)
  /-- Ends the run. -/
  | leave

namespace Activation

/-- Goes on at the next statement. -/
def advance (a : Activation) (frames : List Frame) : Action :=
  .jump (a.pc + 1) frames

/-- A statement was reached outside of its block. -/
def badNesting (line : Nat) (keyword : Keyword) : Exec σ α :=
  Exec.fail line (.badNesting keyword.name)

/-- Runs the branch of an `If` that its condition selects. -/
def doIf (a : Activation) (elseAt : Option Nat) (stop : Nat) (active : Bool) : Action :=
  match active, elseAt with
  | true, _ => .jump (a.pc + 1) (.ifBlock a.pc :: a.frames)
  | false, some elsePos => .jump (elsePos + 1) (.ifBlock a.pc :: a.frames)
  | false, none => .jump (stop + 1) a.frames

/-- Starts a loop, unless its sequence is empty. -/
def openLoop (a : Activation) (line stop : Nat) (variableName : String) (state : LoopState) :
    Exec σ Action := do
  match state.next? with
  | none =>
    Exec.note [.debug s!"Loop on line {line} has no iterations."]
    pure (.jump (stop + 1) a.frames)
  | some (item, state) =>
    modify fun s => s.setVariable variableName item
    pure (a.advance (.forBlock a.pc stop variableName state :: a.frames))

/-- Starts the next round of a loop, or goes on after it. -/
def nextRound (a : Activation) (line start : Nat) : Exec σ Action := do
  match ← Exec.lift line (Frame.unwind .endFor start a.frames) with
  | .forBlock first stop variableName state :: rest =>
    match state.next? with
    | some (item, state) =>
      modify fun s => s.setVariable variableName item
      pure (.jump (start + 1) (.forBlock first stop variableName state :: rest))
    | none => pure (.jump (stop + 1) rest)
  | _ => badNesting line .endFor

/-- Leaves a loop. -/
def exitLoop (a : Activation) (line start : Nat) : Exec σ Action := do
  match ← Exec.lift line (Frame.unwind .exitLoop start a.frames) with
  | .forBlock _ stop _ _ :: rest => pure (.jump (stop + 1) rest)
  | _ => badNesting line .exitLoop

/-- Opens a select for the values that were picked, and goes to its first case. -/
def openSelect (a : Activation) (line : Nat) (results : List String) : Exec σ Action :=
  match a.program.link a.pc with
  | .select firstCase _ => pure (.jump firstCase (.selectBlock a.pc results [] :: a.frames))
  | _ => badNesting line .select

/-- Runs the statements of a case, or goes to what follows it. -/
def enterCase (a : Activation) (next : Nat) (entry : CaseEntry) : Action :=
  if entry.entered then a.advance entry.frames else .jump next entry.frames

/-- Loads the lines that an `ExecLines` gives, which are separated by bars. -/
def execLines (line depth : Nat) (text : String) : Exec σ Action := do
  let source := String.ofList (Text.joinWith ['\n'] (Text.splitAt (· == '|') text.toList))
  match Program.parse source with
  | .error error => Exec.fail line (.nested error)
  | .ok program =>
    Exec.note program.loadEvents
    if maxExecDepth ≤ depth then Exec.fail line (.nestedTooDeep maxExecDepth)
    else
      let size := program.size
      Exec.note [.debug s!"Running {size} statements from 'ExecLines' on line {line}."]
      pure (.enter program)

/-- Carries out a statement, where `depth` other programs are waiting for this one to end. -/
def act (a : Activation) (ctx : Context σ) (depth : Nat) (statement : Statement) :
    Exec σ Action := do
  let line := statement.line
  let program := a.program
  match statement.command with
  | .comment _ | .label _ => pure (a.advance a.frames)
  | .ifTest negated condition args =>
    match program.link a.pc with
    | .ifTest elseAt stop =>
      let result ← condition.test ctx line args
      pure (a.doIf elseAt stop (result != negated))
    | _ => badNesting line .ifTrue
  | .otherwise =>
    match program.link a.pc with
    | .otherwise stop =>
      let frames ← Exec.lift line (Frame.closeIf .otherwise a.frames)
      pure (.jump (stop + 1) frames)
    | _ => badNesting line .otherwise
  | .endIf =>
    let frames ← Exec.lift line (Frame.closeIf .endIf a.frames)
    pure (a.advance frames)
  | .forLoop header =>
    match program.link a.pc with
    | .loop stop =>
      let (state, events) ← Exec.lift line
        (LoopState.ofHeader ctx.toSite (← get).vars line header)
      Exec.note events
      a.openLoop line stop header.variableName state
    | _ => badNesting line .forLoop
  | .endFor | .continueLoop =>
    match program.link a.pc with
    | .loopControl start => a.nextRound line start
    | _ => badNesting line .endFor
  | .exitLoop =>
    match program.link a.pc with
    | .loopControl start => a.exitLoop line start
    | _ => badNesting line .exitLoop
  | .select menu => a.openSelect line (← menu.pick ctx line)
  | .selectVar name =>
    match (← get).vars.get? name with
    | some value => a.openSelect line [value]
    | none => Exec.fail line (.undefinedVariable name)
  | .selectString value =>
    let value ← Exec.lift line ((← get).vars.substitute value)
    a.openSelect line [value]
  | .caseOf value =>
    match program.link a.pc with
    | .caseOf next _ =>
      let value ← Exec.lift line ((← get).vars.substitute value)
      let entry ← Exec.lift line (Frame.enterCase a.pc value a.frames)
      if entry.entered then
        Exec.note [.debug s!"Case '{value}' matched on line {line}."]
      pure (a.enterCase next entry)
    | _ => badNesting line .caseOf
  | .defaultCase =>
    match program.link a.pc with
    | .caseOf next _ =>
      let entry ← Exec.lift line (Frame.enterDefault a.pc a.frames)
      pure (a.enterCase next entry)
    | _ => badNesting line .defaultCase
  | .breakCase =>
    match program.link a.pc with
    | .breakCase caseAt =>
      match program.link caseAt with
      | .caseOf next _ =>
        let frames ← Exec.lift line (Frame.unwind .breakCase caseAt a.frames)
        pure (.jump next frames.tail)
      | _ => badNesting line .breakCase
    | _ => badNesting line .breakCase
  | .endSelect =>
    let frames ← Exec.lift line (Frame.closeSelect a.frames)
    pure (a.advance frames)
  | .goto name =>
    match program.link a.pc with
    | .goto target =>
      Exec.note [.debug s!"Jumping to label '{name}'."]
      pure (.jump target (Frame.leaveTo program target a.frames))
    | _ => badNesting line .goto
  | .returnEarly =>
    Exec.note [.info s!"The script returned early on line {line}."]
    pure .leave
  | .fatalError =>
    Exec.note [.warn s!"The script hit 'FatalError' on line {line}."]
    throw (.fatal line)
  | .setVar name value =>
    let value ← Exec.lift line ((← get).vars.substitute value)
    modify fun s => s.setVariable name value
    pure (a.advance a.frames)
  | .instruction .execLines args =>
    let text ← Exec.lift line (Argument.get args 0)
    let text ← Exec.lift line ((← get).vars.substitute text)
    execLines line depth text
  | .instruction kind args =>
    Instruction.run ctx line kind args
    pure (a.advance a.frames)

end Activation

/-- How a run that did not fail came to its end. -/
inductive Completion where
  | finished
  | returned
  deriving DecidableEq, Repr

/-- A run: the programs that have not ended, innermost first, and the state they share. -/
structure Machine (σ : Type) where
  stack : List Activation
  session : Session σ

/-- What a step leads to. -/
inductive Step (σ : Type) where
  | next (machine : Machine σ)
  | ended (completion : Completion) (session : Session σ)
  | failed (failure : Failure) (session : Session σ)

namespace Machine

/-- The run of a program from its first statement. -/
def start (program : Program) (session : Session σ) : Machine σ :=
  ⟨[.start program], session⟩

/-- What is logged before a statement is carried out. -/
def trace (statement : Statement) : Event :=
  .debug (Text.padLeft 4 (Number.textOfNat statement.line) ++ ": " ++ statement.text)

/-- One step of a run: a statement of the innermost program, or the end of that program. -/
def step (ctx : Context σ) (m : Machine σ) : Step σ :=
  match m.stack with
  | [] => .ended .finished m.session
  | a :: rest =>
    match a.program.statements[a.pc]? with
    | none => .next { m with stack := rest }
    | some statement =>
      match (a.act ctx rest.length statement).run.run (m.session.note [trace statement]) with
      | (.ok (.jump pc frames), session) => .next ⟨{ a with pc, frames } :: rest, session⟩
      | (.ok (.enter program), session) =>
        .next ⟨.start program :: { a with pc := a.pc + 1 } :: rest, session⟩
      | (.ok .leave, session) => .ended .returned session
      | (.error failure, session) => .failed failure session

end Machine

end InstallScript
