import InstallScript.Machine.Loop
import InstallScript.Script.Program

/-!
The blocks that are open while a program runs.
-/

namespace InstallScript

open Script (Keyword Program)

/-- A block that is open while a program runs, with the index of the statement that opened it. A
    loop knows its variable and the rest of its sequence, a select the values that were picked and
    those that a case has used. -/
inductive Frame where
  | ifBlock (start : Nat)
  | forBlock (start stop : Nat) (variableName : String) (state : LoopState)
  | selectBlock (start : Nat) (results matched : List String)
  | caseBlock (start : Nat)
  deriving DecidableEq, Repr

namespace Frame

/-- The index of the statement that opened the block. -/
def start : Frame → Nat
  | .ifBlock start | .forBlock start .. | .selectBlock start .. | .caseBlock start => start

/-- Closes the innermost block, which has to be an `If`. -/
def closeIf (keyword : Keyword) : List Frame → Except RunCause (List Frame)
  | .ifBlock _ :: rest => .ok rest
  | _ => .error (.badNesting keyword.name)

/-- Closes the innermost block if it is a case. -/
def closeCase : List Frame → List Frame
  | .caseBlock _ :: rest => rest
  | frames => frames

/-- Closes the innermost block, which has to be a select. A case that is open in it ends too. -/
def closeSelect (frames : List Frame) : Except RunCause (List Frame) :=
  match closeCase frames with
  | .selectBlock .. :: rest => .ok rest
  | _ => .error (.badNesting Keyword.endSelect.name)

/-- Closes the blocks inside the one that `start` opened. -/
def unwind (keyword : Keyword) (start : Nat) (frames : List Frame) :
    Except RunCause (List Frame) :=
  if frames.any (·.start == start) then .ok (frames.dropWhile (·.start != start))
  else .error (.badNesting keyword.name)

/-- Closes the blocks that do not enclose a statement which is jumped to. -/
def leaveTo (program : Program) (target : Nat) (frames : List Frame) : List Frame :=
  frames.dropWhile fun f => !(program.ancestors target).contains f.start

end Frame

/-- What a `Case` or `Default` leads to: the blocks open after it, and whether its statements
    run. -/
structure CaseEntry where
  frames : List Frame
  entered : Bool

namespace Frame

/-- Ends the case before a `Case`, and opens this one if its value was picked and no case has used
    it. -/
def enterCase (pc : Nat) (value : String) (frames : List Frame) : Except RunCause CaseEntry :=
  match closeCase frames with
  | .selectBlock start results matched :: rest =>
    if results.contains value && !matched.contains value then
      .ok ⟨.caseBlock pc :: .selectBlock start results (matched ++ [value]) :: rest, true⟩
    else .ok ⟨.selectBlock start results matched :: rest, false⟩
  | _ => .error (.badNesting Keyword.caseOf.name)

/-- Ends the case before a `Default`, and opens this one if no case has run. -/
def enterDefault (pc : Nat) (frames : List Frame) : Except RunCause CaseEntry :=
  match closeCase frames with
  | .selectBlock start results matched :: rest =>
    let frames := .selectBlock start results matched :: rest
    .ok (if matched.isEmpty then ⟨.caseBlock pc :: frames, true⟩ else ⟨frames, false⟩)
  | _ => .error (.badNesting Keyword.caseOf.name)

end Frame

end InstallScript
