import InstallScript.Text.Blank
import InstallScript.Text.Letter

/-!
Arithmetic expressions. They have sums, products and powers, signs and parentheses, and calls of
named functions with one argument. An expression is evaluated while it is read, so the first thing
that goes wrong from the left is what is reported.
-/

namespace InstallScript.Expr

/-- The binary operators. -/
inductive Op where
  | add
  | sub
  | mul
  | div
  | mod
  | pow
  deriving DecidableEq, Repr

/-- What the reader of an expression was missing. -/
inductive Missing where
  | closing
  | argument
  | value
  deriving DecidableEq, Repr

/-- Why an expression has no value. -/
inductive Fault where
  | unexpectedChar (c : Char)
  | badNumber (text : String)
  | unknownFunction (name : String)
  | expected (what : Missing)
  | divideByZero
  | overflow
  | tooDeep (limit : Nat)
  deriving DecidableEq, Repr

/-- The missing part in words. -/
def Missing.text : Missing → String
  | .closing => "')'"
  | .argument => "'(' after a function name"
  | .value => "a value"

/-- The fault in words. -/
def Fault.message : Fault → String
  | .unexpectedChar c => "unexpected character '" ++ c.toString ++ "'"
  | .badNumber text => s!"'{text}' is not a valid number"
  | .unknownFunction name => s!"unknown function '{name}'"
  | .expected what => "expected " ++ what.text
  | .divideByZero => "division by zero"
  | .overflow => "the result does not fit in an integer"
  | .tooDeep limit => s!"the expression nests deeper than {limit} levels"

/-- How deeply parentheses, signs and exponents may nest. -/
def maxDepth : Nat := 128

/-- The numbers an expression is evaluated in. -/
structure Arithmetic (α : Type) where
  read : String → Option α
  binary : Op → α → α → Except Fault α
  negate : α → Except Fault α
  call : String → α → Except Fault α

/-- Reads a value from the start of a text, and gives the rest of the text. -/
abbrev Reader (α : Type) := List Char → Except Fault (α × List Char)

/-- Skips white space. -/
def skip (cs : List Char) : List Char :=
  Text.trimStart cs

/-- The operators of a sum. -/
def sumOp? : Char → Option Op
  | '+' => some .add
  | '-' => some .sub
  | _ => none

/-- The operators of a product. -/
def productOp? : Char → Option Op
  | '*' => some .mul
  | '/' => some .div
  | '%' => some .mod
  | _ => none

/-- Continues a chain of operands joined by left-associative operators. Each round takes at least
    the operator from the text, so its length bounds the number of rounds. -/
def chainFrom (A : Arithmetic α) (op? : Char → Option Op) (operand : Reader α) :
    Nat → α → List Char → Except Fault (α × List Char)
  | 0, value, rest => .ok (value, rest)
  | rounds + 1, value, rest =>
    match skip rest with
    | [] => .ok (value, [])
    | c :: after =>
      match op? c with
      | none => .ok (value, c :: after)
      | some op => do
        let (next, rest) ← operand after
        let value ← A.binary op value next
        chainFrom A op? operand rounds value rest

/-- A chain of operands joined by left-associative operators. -/
def chain (A : Arithmetic α) (op? : Char → Option Op) (operand : Reader α)
    (cs : List Char) : Except Fault (α × List Char) := do
  let (value, rest) ← operand cs
  chainFrom A op? operand rest.length value rest

/-- A sum of products of operands. -/
def sum (A : Arithmetic α) (operand : Reader α) : Reader α :=
  chain A sumOp? (chain A productOp? operand)

/-- A sum in parentheses, where the opening one has been read. -/
def enclosed (A : Arithmetic α) (operand : Reader α) (cs : List Char) :
    Except Fault (α × List Char) := do
  let (value, rest) ← sum A operand cs
  match skip rest with
  | ')' :: rest => .ok (value, rest)
  | _ => .error (.expected .closing)

/-- The characters a number may be written with. -/
def isNumberChar (c : Char) : Bool :=
  c.isAlphanum || c == '.'

/-- A number, a sum in parentheses or a function call, with no white space before it. -/
def atom (A : Arithmetic α) (operand : Reader α) (cs : List Char) :
    Except Fault (α × List Char) :=
  match cs with
  | [] => .error (.expected .value)
  | c :: after =>
    if c = '(' then enclosed A operand after
    else if c.isDigit || c == '.' then
      let text := String.ofList (cs.takeWhile isNumberChar)
      match A.read text with
      | some value => .ok (value, cs.dropWhile isNumberChar)
      | none => .error (.badNumber text)
    else if Text.isLetter c then
      let name := String.ofList (cs.takeWhile Char.isAlphanum)
      match skip (cs.dropWhile Char.isAlphanum) with
      | '(' :: after => do
        let (argument, rest) ← enclosed A operand after
        let value ← A.call name argument
        return (value, rest)
      | _ => .error (.expected .argument)
    else .error (.unexpectedChar c)

/-- An operand with its signs, at most `depth` levels deep. A power binds tighter than a sign on
    its left, and its exponent is an operand again. -/
def operand (A : Arithmetic α) : Nat → List Char → Except Fault (α × List Char)
  | 0, _ => .error (.tooDeep maxDepth)
  | depth + 1, cs =>
    match skip cs with
    | '-' :: after => do
      let (value, rest) ← operand A depth after
      let value ← A.negate value
      return (value, rest)
    | '+' :: after => operand A depth after
    | cs => do
      let (base, rest) ← atom A (operand A depth) cs
      match skip rest with
      | '^' :: after => do
        let (exponent, rest) ← operand A depth after
        let value ← A.binary .pow base exponent
        return (value, rest)
      | rest => return (base, rest)

/-- The value of an expression. Nothing but white space may follow it. -/
def eval (A : Arithmetic α) (text : String) : Except Fault α := do
  let (value, rest) ← sum A (operand A maxDepth) text.toList
  match skip rest with
  | [] => return value
  | c :: _ => throw (.unexpectedChar c)

end InstallScript.Expr
