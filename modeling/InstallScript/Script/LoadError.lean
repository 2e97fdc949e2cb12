import InstallScript.Script.Keyword

/-!
What can be wrong with a script before it runs: a line that is no statement, or statements that do
not form blocks.
-/

namespace InstallScript.Script

/-- Where a structural statement has to stand. -/
inductive Place where
  | openIf
  | ifBlock
  | forBlock
  | selectBlock
  | caseBlock
  deriving DecidableEq, Repr

/-- A place in words. -/
def Place.text : Place → String
  | .openIf => "an 'If' block without an 'Else'"
  | .ifBlock => "an 'If' block"
  | .forBlock => "a 'For' block"
  | .selectBlock => "a select block"
  | .caseBlock => "a 'Case' block"

/-- Why a script cannot be loaded. A `text` is the line the error is on. -/
inductive LoadCause where
  | unterminatedQuote (text : String)
  | unknownKeyword (word : String)
  | wrongArgumentCount (text keyword : String) (arity : Arity) (found : Nat)
  | unknownCondition (word : String)
  | unknownEnumeration (word : String)
  | malformedSelect (text : String) (perOption found : Nat)
  | malformedConflict (text : String)
  | unexpectedToken (keyword : String) (expected : Place)
  | unclosedBlock (keyword : String)
  | duplicateLabel (name : String)
  | unknownLabel (name : String)
  | gotoIntoBlock (name : String)
  deriving DecidableEq, Repr

/-- An error found while loading a script, with the line it is on. -/
structure LoadError where
  line : Nat
  cause : LoadCause
  deriving DecidableEq, Repr

/-- The error in words. -/
def LoadError.message (e : LoadError) : String :=
  let line := e.line
  match e.cause with
  | .unterminatedQuote text => s!"Line {line} has an unterminated quote: {text}"
  | .unknownKeyword word => s!"Line {line} starts with the unknown statement '{word}'."
  | .wrongArgumentCount text keyword arity found =>
    let contract := arity.text
    s!"Line {line} passes {found} arguments to '{keyword}', but it expects {contract}: {text}"
  | .unknownCondition word => s!"Line {line} uses the unknown condition '{word}'."
  | .unknownEnumeration word => s!"Line {line} uses the unknown loop kind '{word}'."
  | .malformedSelect text perOption found =>
    s!"Line {line} has {found} option arguments, which isn't a multiple of {perOption}: {text}"
  | .malformedConflict text =>
    s!"Line {line} has a conflict declaration with an invalid number of arguments: {text}"
  | .unexpectedToken keyword expected =>
    let place := expected.text
    s!"Line {line} has a '{keyword}' that is not inside {place}."
  | .unclosedBlock keyword => s!"The '{keyword}' on line {line} is never closed."
  | .duplicateLabel name => s!"Line {line} declares the label '{name}' a second time."
  | .unknownLabel name => s!"Line {line} jumps to the label '{name}', which doesn't exist."
  | .gotoIntoBlock name => s!"Line {line} jumps into a block through the label '{name}'."

end InstallScript.Script
