import InstallScript.Script.Keyword
import InstallScript.Script.Word

/-!
Statements: the typed form of a script line. Every statement can be written back as a line with the
same keyword and arguments.
-/

namespace InstallScript.Script

/-- The header of a loop. Numbers and flags stay as text, since they may hold variables. -/
inductive LoopHeader where
  | count (variableName start stop : String) (step : Option String)
  | each (kind : Enumeration) (variableName folder : String) (recurse pattern : Option String)
  deriving DecidableEq, Repr

/-- The variable a loop sets before each round. -/
def LoopHeader.variableName : LoopHeader → String
  | .count name .. => name
  | .each _ name .. => name

/-- One option of a prompting select. -/
structure Choice where
  item : String
  preview : Option String
  description : Option String
  deriving DecidableEq, Repr

/-- The arguments that describe an option. -/
def Choice.words (c : Choice) : List String :=
  c.item :: (c.preview.toList ++ c.description.toList)

/-- A prompting select. Options have a preview or a description exactly if its shape says so. -/
structure Menu where
  shape : SelectShape
  title : String
  choices : List Choice
  deriving DecidableEq, Repr

namespace Menu

/-- The texts of the options. -/
def items (m : Menu) : List String :=
  m.choices.map (·.item)

/-- The previews of the options, if the select has any. -/
def previews (m : Menu) : Option (List String) :=
  if m.shape.previews then some (m.choices.map (·.preview.getD "")) else none

/-- The descriptions of the options, if the select has any. -/
def descriptions (m : Menu) : Option (List String) :=
  if m.shape.descriptions then some (m.choices.map (·.description.getD "")) else none

end Menu

/-- What a statement does. -/
inductive Command where
  | comment (text : String)
  | ifTest (negated : Bool) (condition : Condition) (args : List String)
  | otherwise
  | endIf
  | forLoop (header : LoopHeader)
  | endFor
  | continueLoop
  | exitLoop
  | select (menu : Menu)
  | selectVar (variableName : String)
  | selectString (value : String)
  | caseOf (value : String)
  | defaultCase
  | breakCase
  | endSelect
  | label (name : String)
  | goto (name : String)
  | returnEarly
  | fatalError
  | setVar (variableName value : String)
  | instruction (kind : Keyword) (args : List String)
  deriving DecidableEq, Repr

namespace Command

/-- The keyword of a statement. Comments have none. -/
def keyword? : Command → Option Keyword
  | .comment _ => none
  | .ifTest negated .. => some (if negated then .ifNot else .ifTrue)
  | .otherwise => some .otherwise
  | .endIf => some .endIf
  | .forLoop _ => some .forLoop
  | .endFor => some .endFor
  | .continueLoop => some .continueLoop
  | .exitLoop => some .exitLoop
  | .select menu => some menu.shape.keyword
  | .selectVar _ => some .selectVar
  | .selectString _ => some .selectString
  | .caseOf _ => some .caseOf
  | .defaultCase => some .defaultCase
  | .breakCase => some .breakCase
  | .endSelect => some .endSelect
  | .label _ => some .label
  | .goto _ => some .goto
  | .returnEarly => some .returnEarly
  | .fatalError => some .fatalError
  | .setVar .. => some .setVar
  | .instruction kind _ => some kind

/-- The name of a statement's kind, which is a semicolon for comments. -/
def kindName (c : Command) : String :=
  match c.keyword? with
  | some k => k.name
  | none => ";"

/-- Whether a later statement has to close the block that this one opens. -/
def opensBlock : Command → Bool
  | .ifTest .. | .forLoop _ | .select _ | .selectVar _ | .selectString _ => true
  | _ => false

/-- The arguments of a statement, as a line would give them. -/
def arguments : Command → List String
  | .ifTest _ condition args => condition.name :: args
  | .forLoop (.count name start stop step) => countWord :: name :: start :: stop :: step.toList
  | .forLoop (.each kind name folder recurse pattern) =>
    eachWord :: kind.name :: name :: folder :: (recurse.toList ++ pattern.toList)
  | .select menu => menu.title :: menu.choices.flatMap Choice.words
  | .selectVar name => [name]
  | .selectString value | .caseOf value => [value]
  | .label name | .goto name => [name]
  | .setVar name value => [name, value]
  | .instruction _ args => args
  | _ => []

end Command

/-- A statement with the number of the line it starts on. -/
structure Statement where
  line : Nat
  command : Command
  deriving DecidableEq, Repr

/-- Writes a statement as a line: comments after a semicolon, and otherwise the keyword and the
    arguments with single blanks between them. -/
def Statement.text (s : Statement) : String :=
  match s.command with
  | .comment text => ";" ++ text
  | command => String.intercalate " " (command.kindName :: command.arguments.map quoteWord)

end InstallScript.Script
