import InstallScript.Script.Program

/-!
Nested programs. A block is a sequence of statements in which every `If`, `For` and select holds the
statements up to its end as blocks of its own. Writing a block out gives the flat list of statements
that loading works on, and laying it out gives what each of them should be linked to.
-/

namespace InstallScript.Script

/-- Whether a keyword names a statement that works on variables, plan or host. All others shape the
    order in which statements run. -/
def Keyword.isAction : Keyword → Bool
  | .ifTrue | .ifNot | .otherwise | .endIf | .select | .selectMany | .selectWithPreview
  | .selectManyWithPreview | .selectWithDescriptions | .selectManyWithDescriptions
  | .selectWithDescriptionsAndPreviews | .selectManyWithDescriptionsAndPreviews | .selectVar
  | .selectString | .caseOf | .defaultCase | .breakCase | .endSelect | .forLoop | .endFor
  | .continueLoop | .exitLoop | .returnEarly | .fatalError | .label | .goto | .setVar => false
  | _ => true

/-- Whether a statement neither opens nor splits nor closes a block. -/
def Command.isPlain : Command → Bool
  | .ifTest .. | .otherwise | .endIf | .forLoop _ | .endFor | .select _ | .selectVar _
  | .selectString _ | .caseOf _ | .defaultCase | .endSelect => false
  | .instruction kind _ => kind.isAction
  | _ => true

/-- A statement that neither opens nor splits nor closes a block. -/
structure PlainCommand where
  command : Command
  isPlain : command.isPlain = true

/-- What an `If` or `IfNot` tests. -/
structure Test where
  negated : Bool
  condition : Condition
  args : List String

/-- The statement that makes a test. -/
def Test.command (t : Test) : Command :=
  .ifTest t.negated t.condition t.args

/-- Where a select takes its values from: what the user picks, a variable or a text. -/
inductive Selector where
  | menu (menu : Menu)
  | named (variableName : String)
  | literal (value : String)

/-- The statement that opens a select. -/
def Selector.command : Selector → Command
  | .menu m => .select m
  | .named name => .selectVar name
  | .literal value => .selectString value

/-- What lets the statements of a case run: a value, or that no case has run. -/
inductive Guard where
  | value (text : String)
  | unmatched

/-- The statement that opens a case. -/
def Guard.command : Guard → Command
  | .value text => .caseOf text
  | .unmatched => .defaultCase

mutual

/-- A sequence of statements, each given by its first one and the rest. Every statement has the line
    it is on, a block also those of the statements that split and close it. -/
inductive Block where
  | nil
  | plain (line : Nat) (command : PlainCommand) (rest : Block)
  | ifThen (line : Nat) (test : Test) (body : Block) (stopLine : Nat) (rest : Block)
  | ifElse (line : Nat) (test : Test) (body : Block) (elseLine : Nat) (other : Block)
      (stopLine : Nat) (rest : Block)
  | loop (line : Nat) (header : LoopHeader) (body : Block) (stopLine : Nat) (rest : Block)
  | select (line : Nat) (selector : Selector) (skipped : Block) (arms : Arms) (stopLine : Nat)
      (rest : Block)

/-- The cases of a select. -/
inductive Arms where
  | nil
  | cons (line : Nat) (guard : Guard) (body : Block) (rest : Arms)

end

mutual

/-- The statements of a block in the order in which they are written. -/
def Block.statements : Block → List Statement
  | .nil => []
  | .plain line c rest => ⟨line, c.command⟩ :: rest.statements
  | .ifThen line test body stopLine rest =>
    ⟨line, test.command⟩ :: (body.statements ++ ⟨stopLine, .endIf⟩ :: rest.statements)
  | .ifElse line test body elseLine other stopLine rest =>
    ⟨line, test.command⟩ :: (body.statements ++ ⟨elseLine, .otherwise⟩ ::
      (other.statements ++ ⟨stopLine, .endIf⟩ :: rest.statements))
  | .loop line header body stopLine rest =>
    ⟨line, .forLoop header⟩ :: (body.statements ++ ⟨stopLine, .endFor⟩ :: rest.statements)
  | .select line selector skipped arms stopLine rest =>
    ⟨line, selector.command⟩ :: (skipped.statements ++
      (arms.statements ++ ⟨stopLine, .endSelect⟩ :: rest.statements))

/-- The statements of cases in the order in which they are written. -/
def Arms.statements : Arms → List Statement
  | .nil => []
  | .cons line guard body rest =>
    ⟨line, guard.command⟩ :: (body.statements ++ rest.statements)

end

/-- The number of statements of a block. -/
def Block.size (b : Block) : Nat :=
  b.statements.length

/-- The number of statements of cases. -/
def Arms.size (a : Arms) : Nat :=
  a.statements.length

/-- What kind of block a statement lies in: an `If` with both its branches, a `For`, a select, or a
    `Case` or `Default`. -/
inductive BlockKind where
  | branch
  | loop
  | select
  | arm
  deriving DecidableEq, Repr

/-- A block around a statement, named by the index of the statement that opens it. -/
structure Enclosure where
  kind : BlockKind
  start : Nat
  deriving DecidableEq, Repr

namespace Enclosure

/-- The innermost loop of the blocks around a statement, which are given innermost first. -/
def loop? (path : List Enclosure) : Option Nat :=
  (path.find? (·.kind = .loop)).map Enclosure.start

/-- The innermost of the blocks around a statement that is no `If`, provided it is a case. -/
def arm? (path : List Enclosure) : Option Nat :=
  match path.find? (·.kind ≠ .branch) with
  | some ⟨.arm, start⟩ => some start
  | _ => none

/-- The indices that name blocks. -/
def starts (path : List Enclosure) : List Nat :=
  path.map Enclosure.start

/-- Where a statement leads that neither opens nor splits nor closes a block. A `Goto` does not lead
    anywhere until labels are known. -/
def plainLink (path : List Enclosure) : Command → Link
  | .continueLoop | .exitLoop => ((loop? path).map .loopControl).getD .none
  | .breakCase => ((arm? path).map .breakCase).getD .none
  | _ => .none

end Enclosure

/-- A statement with the blocks around it, innermost first, and where it leads. -/
structure Cell where
  statement : Statement
  path : List Enclosure
  link : Link

mutual

/-- The statements of a block whose first one has index `i`, inside the blocks of `path`. -/
def Block.layout (path : List Enclosure) (i : Nat) : Block → List Cell
  | .nil => []
  | .plain line c rest =>
    ⟨⟨line, c.command⟩, path, Enclosure.plainLink path c.command⟩ ::
      rest.layout path (i + 1)
  | .ifThen line test body stopLine rest =>
    let inner := ⟨.branch, i⟩ :: path
    let stop := i + 1 + body.size
    ⟨⟨line, test.command⟩, path, .ifTest none stop⟩ :: (body.layout inner (i + 1) ++
      ⟨⟨stopLine, .endIf⟩, inner, .none⟩ :: rest.layout path (stop + 1))
  | .ifElse line test body elseLine other stopLine rest =>
    let inner := ⟨.branch, i⟩ :: path
    let middle := i + 1 + body.size
    let stop := middle + 1 + other.size
    ⟨⟨line, test.command⟩, path, .ifTest (some middle) stop⟩ ::
      (body.layout inner (i + 1) ++
      ⟨⟨elseLine, .otherwise⟩, inner, .otherwise stop⟩ ::
        (other.layout inner (middle + 1) ++
        ⟨⟨stopLine, .endIf⟩, inner, .none⟩ :: rest.layout path (stop + 1)))
  | .loop line header body stopLine rest =>
    let inner := ⟨.loop, i⟩ :: path
    let stop := i + 1 + body.size
    ⟨⟨line, .forLoop header⟩, path, .loop stop⟩ :: (body.layout inner (i + 1) ++
      ⟨⟨stopLine, .endFor⟩, inner, .loopControl i⟩ :: rest.layout path (stop + 1))
  | .select line selector skipped arms stopLine rest =>
    let inner := ⟨.select, i⟩ :: path
    let first := i + 1 + skipped.size
    let stop := first + arms.size
    ⟨⟨line, selector.command⟩, path, .select first stop⟩ :: (skipped.layout inner (i + 1) ++
      (arms.layout inner i first ++
        ⟨⟨stopLine, .endSelect⟩, inner, .none⟩ :: rest.layout path (stop + 1)))

/-- The statements of cases whose first one has index `i`, inside the blocks of `path`, of which the
    select that `start` opens is the innermost. -/
def Arms.layout (path : List Enclosure) (start i : Nat) : Arms → List Cell
  | .nil => []
  | .cons line guard body rest =>
    let next := i + 1 + body.size
    ⟨⟨line, guard.command⟩, path, .caseOf next start⟩ ::
      (body.layout (⟨.arm, i⟩ :: path) (i + 1) ++ rest.layout path start next)

end

mutual

/-- Laying a block out keeps its statements and their order. -/
theorem Block.map_statement_layout (b : Block) (path : List Enclosure) (i : Nat) :
    (b.layout path i).map Cell.statement = b.statements := by
  match b with
  | .nil => rfl
  | .plain line c rest => simp [Block.layout, Block.statements, rest.map_statement_layout]
  | .ifThen line test body stopLine rest =>
    simp [Block.layout, Block.statements, body.map_statement_layout, rest.map_statement_layout]
  | .ifElse line test body elseLine other stopLine rest =>
    simp [Block.layout, Block.statements, body.map_statement_layout, other.map_statement_layout,
      rest.map_statement_layout]
  | .loop line header body stopLine rest =>
    simp [Block.layout, Block.statements, body.map_statement_layout, rest.map_statement_layout]
  | .select line selector skipped arms stopLine rest =>
    simp [Block.layout, Block.statements, skipped.map_statement_layout, arms.map_statement_layout,
      rest.map_statement_layout]

theorem Arms.map_statement_layout (a : Arms) (path : List Enclosure) (start i : Nat) :
    (a.layout path start i).map Cell.statement = a.statements := by
  match a with
  | .nil => rfl
  | .cons line guard body rest =>
    simp [Arms.layout, Arms.statements, body.map_statement_layout, rest.map_statement_layout]

end

section Size

variable (line stopLine : Nat) (test : Test) (body other rest : Block)

@[simp] theorem Block.size_plain (c : PlainCommand) :
    (Block.plain line c rest).size = rest.size + 1 := rfl

@[simp] theorem Block.size_ifThen :
    (Block.ifThen line test body stopLine rest).size = body.size + rest.size + 2 := by
  simp only [size, statements, List.length_cons, List.length_append]
  omega

@[simp] theorem Block.size_ifElse (elseLine : Nat) :
    (Block.ifElse line test body elseLine other stopLine rest).size =
      body.size + other.size + rest.size + 3 := by
  simp only [size, statements, List.length_cons, List.length_append]
  omega

@[simp] theorem Block.size_loop (header : LoopHeader) :
    (Block.loop line header body stopLine rest).size = body.size + rest.size + 2 := by
  simp only [size, statements, List.length_cons, List.length_append]
  omega

@[simp] theorem Block.size_select (selector : Selector) (arms : Arms) :
    (Block.select line selector body arms stopLine rest).size =
      body.size + arms.size + rest.size + 2 := by
  simp only [size, Arms.size, statements, List.length_cons, List.length_append]
  omega

@[simp] theorem Arms.size_cons (guard : Guard) (arms : Arms) :
    (Arms.cons line guard body arms).size = body.size + arms.size + 1 := by
  simp only [size, Block.size, statements, List.length_cons, List.length_append]

end Size

@[simp] theorem Block.length_layout (b : Block) (path : List Enclosure) (i : Nat) :
    (b.layout path i).length = b.size := by
  rw [Block.size, ← b.map_statement_layout path i, List.length_map]

@[simp] theorem Arms.length_layout (a : Arms) (path : List Enclosure) (start i : Nat) :
    (a.layout path start i).length = a.size := by
  rw [Arms.size, ← a.map_statement_layout path start i, List.length_map]

end InstallScript.Script
