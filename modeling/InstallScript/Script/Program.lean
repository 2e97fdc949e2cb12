import InstallScript.Log
import InstallScript.Script.Parser

/-!
Programs: statements whose blocks have been matched. Every structural statement has a link to where
execution goes from it, and every statement knows the blocks around it.
-/

namespace InstallScript.Script

/-- Where execution goes from a statement. All positions are indices of statements. -/
inductive Link where
  /-- The statement does not jump. -/
  | none
  /-- From an `If` to its `Else`, if it has one, and to its `EndIf`. -/
  | ifTest (elseAt : Option Nat) (stop : Nat)
  /-- From an `Else` to its `EndIf`. -/
  | otherwise (stop : Nat)
  /-- From a `For` to its `EndFor`. -/
  | loop (stop : Nat)
  /-- From an `EndFor`, `Continue` or `Exit` to its `For`. -/
  | loopControl (start : Nat)
  /-- From a select to its first `Case` or `Default` and to its `EndSelect`. -/
  | select (firstCase stop : Nat)
  /-- From a `Case` or `Default` to the statement that ends it, and to its select. -/
  | caseOf (next select : Nat)
  /-- From a `Break` to the `Case` or `Default` it ends. -/
  | breakCase (caseAt : Nat)
  /-- From a `Goto` to its `Label`. -/
  | goto (target : Nat)
  deriving DecidableEq, Repr

/-- A loaded script. `parents` holds, for each statement, the start of the innermost block around
    it: an `If`, a `For`, a select, or a `Case` or `Default`. -/
structure Program where
  statements : Array Statement
  links : Array Link
  parents : Array (Option Nat)
  labels : List (String × Nat)

namespace Program

/-- The program without statements. -/
def empty : Program := ⟨#[], #[], #[], []⟩

/-- The number of statements. -/
def size (p : Program) : Nat :=
  p.statements.size

/-- Where execution goes from the statement at an index. -/
def link (p : Program) (index : Nat) : Link :=
  p.links.getD index .none

/-- The start of the innermost block around a statement. -/
def parent? (p : Program) (index : Nat) : Option Nat :=
  (p.parents.getD index none)

/-- The index of the statement that declares a label. -/
def label? (p : Program) (name : String) : Option Nat :=
  p.labels.lookup name

/-- The starts of the blocks around a statement, innermost first. A block starts before the
    statements in it, which is why this ends. -/
def ancestors (p : Program) (index : Nat) : List Nat :=
  match p.parent? index with
  | some start => if start < index then start :: p.ancestors start else [start]
  | none => []
termination_by index

end Program

/-- A block that is still open at some point of a script. -/
inductive OpenBlock where
  | ifBlock (start : Nat) (elseAt : Option Nat)
  | forBlock (start : Nat)
  | selectBlock (start : Nat) (firstCase : Option Nat)
  | caseBlock (start select : Nat)
  deriving DecidableEq, Repr

namespace OpenBlock

/-- The index of the statement that opened the block. -/
def start : OpenBlock → Nat
  | .ifBlock start _ | .forBlock start | .selectBlock start _ | .caseBlock start _ => start

/-- The start of a `For` block. -/
def forStart? : OpenBlock → Option Nat
  | .forBlock start => some start
  | _ => none

/-- Whether this is an `If` block. -/
def isIf : OpenBlock → Bool
  | .ifBlock .. => true
  | _ => false

/-- Whether this is the block of a `Case` or `Default`. -/
def isCase : OpenBlock → Bool
  | .caseBlock .. => true
  | _ => false

end OpenBlock

/-- The statements matched so far: links and parents of each, the labels they declare and the
    blocks that are open, innermost first. -/
structure Linker where
  links : Array Link
  parents : Array (Option Nat)
  labels : List (String × Nat)
  blocks : List OpenBlock

namespace Linker

/-- Nothing has been matched. -/
def start : Linker := ⟨#[], #[], [], []⟩

/-- Sets the link of a statement. -/
def setLink (l : Linker) (index : Nat) (link : Link) : Linker :=
  { l with links := l.links.setIfInBounds index link }

/-- Whether a statement ends the `Case` or `Default` before it. -/
def endsCase (command : Command) : Bool :=
  match command.keyword? with
  | some .caseOf | some .defaultCase | some .endSelect => true
  | _ => false

/-- Closes the innermost block if it is a case, whose next statement is at `index`. -/
def closeCase (l : Linker) (index : Nat) : Linker :=
  match l.blocks with
  | .caseBlock start select :: rest =>
    { l.setLink start (.caseOf index select) with blocks := rest }
  | _ => l

/-- Adds a statement inside the innermost open block. -/
def add (l : Linker) : Linker :=
  { l with
    links := l.links.push .none
    parents := l.parents.push (l.blocks.head?.map OpenBlock.start) }

/-- The case that a `Break` ends: the innermost block around it that is no `If`. -/
def breakTarget? (blocks : List OpenBlock) : Option Nat :=
  match blocks.dropWhile OpenBlock.isIf with
  | .caseBlock start _ :: _ => some start
  | _ => none

/-- Opens, closes and links blocks for the statement at `index`, which has just been added. -/
def enter (l : Linker) (index : Nat) (s : Statement) : Except LoadError Linker :=
  let unexpected (expected : Place) : Except LoadError Linker :=
    .error ⟨s.line, .unexpectedToken s.command.kindName expected⟩
  match s.command with
  | .ifTest .. => .ok { l with blocks := .ifBlock index none :: l.blocks }
  | .otherwise =>
    match l.blocks with
    | .ifBlock start none :: rest => .ok { l with blocks := .ifBlock start (some index) :: rest }
    | _ => unexpected .openIf
  | .endIf =>
    match l.blocks with
    | .ifBlock start elseAt :: rest =>
      let linked := { l.setLink start (.ifTest elseAt index) with blocks := rest }
      .ok (match elseAt with
        | some elsePos => linked.setLink elsePos (.otherwise index)
        | none => linked)
    | _ => unexpected .ifBlock
  | .forLoop _ => .ok { l with blocks := .forBlock index :: l.blocks }
  | .endFor =>
    match l.blocks with
    | .forBlock start :: rest =>
      .ok { (l.setLink start (.loop index)).setLink index (.loopControl start) with blocks := rest }
    | _ => unexpected .forBlock
  | .continueLoop | .exitLoop =>
    match l.blocks.findSome? OpenBlock.forStart? with
    | some start => .ok (l.setLink index (.loopControl start))
    | none => unexpected .forBlock
  | .select _ | .selectVar _ | .selectString _ =>
    .ok { l with blocks := .selectBlock index none :: l.blocks }
  | .caseOf _ | .defaultCase =>
    match l.blocks with
    | .selectBlock start first :: rest =>
      .ok { l with
        blocks := .caseBlock index start :: .selectBlock start (some (first.getD index)) :: rest }
    | _ => unexpected .selectBlock
  | .breakCase =>
    match breakTarget? l.blocks with
    | some caseAt => .ok (l.setLink index (.breakCase caseAt))
    | none => unexpected .caseBlock
  | .endSelect =>
    match l.blocks with
    | .selectBlock start first :: rest =>
      .ok { l.setLink start (.select (first.getD index) index) with blocks := rest }
    | _ => unexpected .selectBlock
  | .label name =>
    match l.labels.lookup name with
    | some _ => .error ⟨s.line, .duplicateLabel name⟩
    | none => .ok { l with labels := (name, index) :: l.labels }
  | _ => .ok l

/-- Matches the next statement. A statement that ends a case does so before it is added, so it is
    not inside that case. -/
def step (l : Linker) (index : Nat) (s : Statement) : Except LoadError Linker :=
  let l := if endsCase s.command then l.closeCase index else l
  l.add.enter index s

/-- Matches the statements from `index` on. -/
def run (l : Linker) (index : Nat) : List Statement → Except LoadError Linker
  | [] => .ok l
  | s :: rest => do (← l.step index s).run (index + 1) rest

/-- Fails if a block is still open. A case is closed by its select, which is what is reported. -/
def checkClosed (l : Linker) (statements : Array Statement) : Except LoadError Unit :=
  match l.blocks.find? (!·.isCase) with
  | none => .ok ()
  | some block =>
    match statements[block.start]? with
    | some s => .error ⟨s.line, .unclosedBlock s.command.kindName⟩
    | none => .ok ()

end Linker

namespace Program

/-- Links the statement at `index` if it is a `Goto`. A jump may leave blocks, but the innermost
    block around its label has to be around the `Goto` as well. -/
def linkGoto (p : Program) (index : Nat) (s : Statement) : Except LoadError Program :=
  match s.command with
  | .goto name =>
    match p.label? name with
    | none => .error ⟨s.line, .unknownLabel name⟩
    | some target =>
      match p.parent? target with
      | some block =>
        if (p.ancestors index).contains block then
          .ok { p with links := p.links.setIfInBounds index (.goto target) }
        else .error ⟨s.line, .gotoIntoBlock name⟩
      | none => .ok { p with links := p.links.setIfInBounds index (.goto target) }
  | _ => .ok p

/-- Links every `Goto` from `index` on. -/
def linkGotos (p : Program) (index : Nat) : List Statement → Except LoadError Program
  | [] => .ok p
  | s :: rest => do (← p.linkGoto index s).linkGotos (index + 1) rest

/-- Builds a program from statements without comments. -/
def ofStatements (statements : List Statement) : Except LoadError Program := do
  let linked ← Linker.start.run 0 statements
  linked.checkClosed statements.toArray
  linkGotos ⟨statements.toArray, linked.links, linked.parents, linked.labels⟩ 0 statements

/-- Loads a program from its text. -/
def parse (text : String) : Except LoadError Program := do
  let all ← Script.statements text
  ofStatements (all.filter fun s => match s.command with
    | .comment _ => false
    | _ => true)

/-- What is logged when a program has been loaded. -/
def loadEvents (p : Program) : List Event :=
  let size := p.size
  let labels := p.labels.length
  [.debug s!"Loaded a script with {size} statements and {labels} labels."]

end Program

end InstallScript.Script
