import InstallScript.Disk.Basic
import InstallScript.Expr.Basic
import InstallScript.Package.Entry
import InstallScript.Script.LoadError

/-!
How a script run can fail. Whatever the reason, the plan built so far is thrown away.
-/

namespace InstallScript

open Script (LoadError)

/-- What an argument should have been. -/
inductive Expected where
  | nonZeroStep
  | truthValue
  | deactivation
  | conflictLevel
  | archiveName
  deriving DecidableEq, Repr

/-- The expectation in words. -/
def Expected.text : Expected → String
  | .nonZeroStep => "a non-zero step"
  | .truthValue => "'True' or 'False'"
  | .deactivation => "'Allow', 'WarnAgainst', or 'Disallow'"
  | .conflictLevel => "'Unusable', 'Major', or 'Minor'"
  | .archiveName => "a BSA name without ',', ';', or '='"

/-- What is wrong with the options a host picked. -/
inductive SelectionFault where
  | notSingle (picked : Nat)
  | outOfRange (option count : Nat)
  deriving DecidableEq, Repr

/-- The fault in words. -/
def SelectionFault.text : SelectionFault → String
  | .notSingle picked => s!"a single select needs exactly one option, but {picked} were chosen"
  | .outOfRange option count => s!"option {option} is out of range for {count} options"

/-- Why a statement could not be carried out. -/
inductive RunCause where
  | undefinedVariable (name : String)
  | missingFile (kind : FileKind) (name : String)
  | missingFolder (name : String)
  | invalidNumber (value : String)
  | invalidVersion (value : String)
  | invalidArgument (value : String) (expected : Expected)
  | invalidPath (path : String)
  | invalidPattern (pattern : String)
  | malformedExpression (expression : String) (fault : Expr.Fault)
  | outOfRange (start stop length : Nat)
  | invalidSelection (fault : SelectionFault)
  | badNesting (keyword : String)
  | nested (error : LoadError)
  | nestedTooDeep (limit : Nat)
  | host (reason : String)
  | disk (fault : DiskFault)
  /-- The statement has fewer arguments than it needs, which loading rules out. -/
  | missingArgument (index : Nat)
  deriving DecidableEq, Repr

/-- An error raised by the statement on a line. -/
structure RunError where
  line : Nat
  cause : RunCause
  deriving DecidableEq, Repr

/-- The error in words. What the pattern reader has to say about a pattern is left out. -/
def RunError.message (e : RunError) : String :=
  let line := e.line
  match e.cause with
  | .undefinedVariable name => s!"Line {line} references the undefined variable '{name}'."
  | .missingFile kind name =>
    let what := kind.text
    s!"Line {line} references the {what} '{name}', which is not part of this OMOD."
  | .missingFolder name =>
    s!"Line {line} references the folder '{name}', which holds no files in this OMOD."
  | .invalidNumber value => s!"Line {line} expected a number, but found '{value}'."
  | .invalidVersion value => s!"Line {line} expected a version, but found '{value}'."
  | .invalidArgument value expected =>
    let what := expected.text
    s!"Line {line} expected {what}, but found '{value}'."
  | .invalidPath path => s!"Line {line} uses the invalid output path '{path}'."
  | .invalidPattern pattern => s!"Line {line} has the invalid pattern '{pattern}'"
  | .malformedExpression expression fault =>
    let reason := fault.message
    s!"Line {line} has an invalid expression '{expression}': {reason}"
  | .outOfRange start stop length =>
    s!"Line {line} asks for characters {start}..{stop} of a {length} character string."
  | .invalidSelection fault =>
    let reason := fault.text
    s!"Line {line} received an invalid selection: {reason}"
  | .badNesting keyword => s!"Line {line} reached '{keyword}' outside of its enclosing block."
  | .nested error =>
    let reason := error.message
    s!"Line {line} passes lines to 'ExecLines' that fail to load: {reason}"
  | .nestedTooDeep limit => s!"Line {line} nests 'ExecLines' deeper than {limit} levels."
  | .host reason => s!"Line {line} failed while calling into the host: {reason}"
  | .disk fault =>
    let reason := fault.message
    s!"Line {line} failed to read the extracted files: {reason}"
  | .missingArgument index => s!"Line {line} lacks argument {index}."

/-- Why a run did not come to a normal end. -/
inductive Failure where
  | load (error : LoadError)
  | run (error : RunError)
  | fatal (line : Nat)
  | cancelled (line : Nat)
  deriving DecidableEq, Repr

namespace Failure

/-- The failure in words. -/
def message : Failure → String
  | .load error => error.message
  | .run error => error.message
  | .fatal line => s!"The script aborted the install with 'FatalError' on line {line}."
  | .cancelled line => s!"The install was cancelled by the user on line {line}."

/-- Whether the script or the user wanted the run to stop. -/
def isExpected : Failure → Bool
  | .fatal _ | .cancelled _ => true
  | _ => false

end Failure

end InstallScript
