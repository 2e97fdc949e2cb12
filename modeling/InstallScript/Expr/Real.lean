import InstallScript.Expr.Basic
import InstallScript.Number.Decimal
import InstallScript.Text.Lower

/-!
Expressions over 64-bit floating-point numbers, with a few functions.
-/

namespace InstallScript.Expr

open Number

/-- The functions an expression can call, by their names in lower case. -/
def functionNamed? (name : String) : Option (Float → Float) :=
  match name with
  | "sin" => some Float.sin
  | "cos" => some Float.cos
  | "tan" => some Float.tan
  | "sinh" => some Float.sinh
  | "cosh" => some Float.cosh
  | "tanh" => some Float.tanh
  | "exp" => some Float.exp
  | "log" => some Float.log
  | "log10" => some Float.log10
  | "sqrt" => some Float.sqrt
  | "abs" => some Float.abs
  | _ => none

/-- Floating-point arithmetic, in which no operation fails. -/
def reals : Arithmetic Float where
  read text := readDouble text.toList
  binary op a b := .ok <|
    match op with
    | .add => a + b
    | .sub => a - b
    | .mul => a * b
    | .div => a / b
    | .mod => remainder a b
    | .pow => a ^ b
  negate a := .ok (-a)
  call name a :=
    match functionNamed? (Text.lower name) with
    | some f => .ok (f a)
    | none => .error (.unknownFunction name)

/-- The value of a floating-point expression. -/
def evalReal (text : String) : Except Fault Float :=
  eval reals text

end InstallScript.Expr
