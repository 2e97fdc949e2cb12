import InstallScript.Script.Line
import InstallScript.Script.LoadError
import InstallScript.Script.Statement

/-!
Reading a line as a statement. The first word names the statement, the number of the others is
checked against its arity, and a few statements check the shape of their arguments as well.
-/

namespace InstallScript.Script

open Text

/-- Cuts a list into pieces of `size` elements. What does not fill a piece is left out. -/
def chunks (size : Nat) (xs : List α) : List (List α) :=
  if size = 0 || xs.length < size then []
  else xs.take size :: chunks size (xs.drop size)
termination_by xs.length
decreasing_by
  simp_all only [Bool.or_eq_true, decide_eq_true_eq, not_or, List.length_drop]
  omega

namespace Line

/-- An error on this line. -/
def fail (line : Line) (cause : LoadCause) : Except LoadError α :=
  .error ⟨line.number, cause⟩

/-- Checks a number of arguments. -/
def checkCount (line : Line) (keyword : String) (arity : Arity) (found : Nat) :
    Except LoadError Unit :=
  if arity.admits found then .ok ()
  else line.fail (.wrongArgumentCount line.text keyword arity found)

/-- Reads the arguments of an `If` or `IfNot`. -/
def readIf (line : Line) (negated : Bool) (name : String) (args : List String) :
    Except LoadError Command :=
  match Condition.ofName? name with
  | none => line.fail (.unknownCondition name)
  | some condition => do
    line.checkCount condition.name condition.arity args.length
    return .ifTest negated condition args

/-- Reads the arguments of a `For`. -/
def readFor (line : Line) (args : List String) : Except LoadError LoopHeader :=
  let word (i : Nat) := args.getD i ""
  if sameName countWord (word 0) then do
    line.checkCount "For Count" ⟨4, some 5⟩ args.length
    return .count (word 1) (word 2) (word 3) args[4]?
  else if sameName eachWord (word 0) then
    match Enumeration.ofName? (word 1) with
    | none => line.fail (.unknownEnumeration (word 1))
    | some kind => .ok (.each kind (word 2) (word 3) args[4]? args[5]?)
  else line.fail (.unknownEnumeration (word 0))

/-- Reads one option of a select from the arguments that describe it. -/
def readChoice (shape : SelectShape) (words : List String) : Choice :=
  ⟨words.getD 0 "",
    if shape.previews then some (words.getD 1 "") else none,
    if shape.descriptions then some (words.getD (1 + shape.previews.toNat) "") else none⟩

/-- Reads the arguments of a prompting select: a title, then the options. -/
def readMenu (line : Line) (shape : SelectShape) (title : String) (options : List String) :
    Except LoadError Menu :=
  if options.isEmpty || options.length % shape.perOption ≠ 0 then
    line.fail (.malformedSelect line.text shape.perOption options.length)
  else .ok ⟨shape, title, (chunks shape.perOption options).map (readChoice shape)⟩

/-- Reads the arguments of a statement whose number of arguments is right. -/
def readCommand (line : Line) (kind : Keyword) (args : List String) : Except LoadError Command :=
  match kind.selectShape? with
  | some shape => (line.readMenu shape (args.headD "") args.tail).map .select
  | none =>
    let word (i : Nat) := args.getD i ""
    match kind with
    | .ifTrue => line.readIf false (args.headD "") args.tail
    | .ifNot => line.readIf true (args.headD "") args.tail
    | .forLoop => (line.readFor args).map .forLoop
    | .conflictsWith | .dependsOn | .conflictsWithRegex | .dependsOnRegex =>
      -- Versions come in a group of four numbers, so four arguments fit no shape.
      if args.length = 4 then line.fail (.malformedConflict line.text)
      else .ok (.instruction kind args)
    | .otherwise => .ok .otherwise
    | .endIf => .ok .endIf
    | .endFor => .ok .endFor
    | .continueLoop => .ok .continueLoop
    | .exitLoop => .ok .exitLoop
    | .selectVar => .ok (.selectVar (word 0))
    | .selectString => .ok (.selectString (word 0))
    | .caseOf => .ok (.caseOf (word 0))
    | .defaultCase => .ok .defaultCase
    | .breakCase => .ok .breakCase
    | .endSelect => .ok .endSelect
    | .label => .ok (.label (word 0))
    | .goto => .ok (.goto (word 0))
    | .returnEarly => .ok .returnEarly
    | .fatalError => .ok .fatalError
    | .setVar => .ok (.setVar (word 0) (word 1))
    | kind => .ok (.instruction kind args)

/-- Reads a line that is no comment, split into words. A line without words is an empty comment. -/
def readWords (line : Line) : List String → Except LoadError Command
  | [] => .ok (.comment "")
  | word :: args =>
    match Keyword.ofWord? word with
    | none => line.fail (.unknownKeyword word)
    | some kind => do
      line.checkCount kind.name kind.arity args.length
      line.readCommand kind args

/-- Reads a line as a statement. -/
def parse (line : Line) : Except LoadError Statement :=
  match line.comment with
  | some text => .ok ⟨line.number, .comment text⟩
  | none =>
    match splitWords line.text with
    | none => line.fail (.unterminatedQuote line.text)
    | some words => (line.readWords words).map fun command => ⟨line.number, command⟩

end Line

/-- The statements of a script, comments included. -/
def statements (text : String) : Except LoadError (List Statement) :=
  (logicalLines text).mapM Line.parse

end InstallScript.Script
