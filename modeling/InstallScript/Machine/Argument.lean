import InstallScript.Machine.Session
import InstallScript.Number.Decimal

/-!
Reading the arguments of a statement once variables have been put in. Numbers and truth values may
have white space around them; an error shows the argument as it was given.
-/

namespace InstallScript.Argument

open Text

/-- The argument at an index. -/
def get (args : List String) (index : Nat) : Except RunCause String :=
  match args[index]? with
  | some arg => .ok arg
  | none => .error (.missingArgument index)

/-- Reads an integer of a range. -/
def integer (range : Number.Range) (value : String) : Except RunCause Int :=
  match range.read (trim value.toList) with
  | some n => .ok n
  | none => .error (.invalidNumber value)

/-- Reads a natural number below `2 ^ bits`. -/
def word (bits : Nat) (value : String) : Except RunCause Nat :=
  (integer (.unsigned bits) value).map Int.toNat

/-- Reads a floating-point number of double precision. -/
def real (value : String) : Except RunCause Float :=
  match Number.readDouble (trim value.toList) with
  | some x => .ok x
  | none => .error (.invalidNumber value)

/-- Reads the bits of a floating-point number of single precision. -/
def singleBits (value : String) : Except RunCause UInt32 :=
  match Number.readBits .single (trim value.toList) with
  | some bits => .ok (UInt32.ofNat bits)
  | none => .error (.invalidNumber value)

/-- Reads a version. -/
def version (value : String) : Except RunCause Version :=
  match Version.read value with
  | some v => .ok v
  | none => .error (.invalidVersion value)

/-- Reads `True` or `False`, in any case. -/
def truth (value : String) : Except RunCause Bool :=
  if sameName (trimmed value) "true" then .ok true
  else if sameName (trimmed value) "false" then .ok false
  else .error (.invalidArgument value .truthValue)

/-- Reads a flag that is off unless it is given. -/
def flag (value : Option String) : Except RunCause Bool :=
  match value with
  | some value => truth value
  | none => .ok false

/-- Looks a file of the package up. -/
def entry (files : FileSet) (kind : FileKind) (name : String) : Except RunCause Entry :=
  match files.find? kind name with
  | some e => .ok e
  | none => .error (.missingFile kind name)

/-- The data files in a folder, of which there has to be at least one. -/
def folder (files : FileSet) (name : String) (recurse : Bool) : Except RunCause (List Entry) :=
  match files.inFolder .data name recurse with
  | [] => .error (.missingFolder name)
  | entries => .ok entries

/-- The canonical form of an output path, which has to stay inside the game's data folder. -/
def output (path : String) : Except RunCause String :=
  if Path.isSafe path && !(Path.normalize path).isEmpty then .ok (Path.normalize path)
  else .error (.invalidPath path)

end InstallScript.Argument
