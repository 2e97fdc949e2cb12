import InstallScript.Expr.Basic
import InstallScript.Number.Integer

/-!
Integer expressions. Every literal and every intermediate result has to fit a signed word of 64
bits; nothing wraps.
-/

namespace InstallScript.Expr

open Number

/-- A result that fits. -/
def fit (n : Int) : Except Fault Int :=
  if long.contains n then .ok n else .error .overflow

/-- A power with a whole exponent. An exponent that is negative or has more than 32 bits does not
    fit, and the power is only computed where it can. -/
def power (base exponent : Int) : Except Fault Int :=
  if exponent < 0 || Int.pow 2 32 ≤ exponent then .error .overflow
  else if base.natAbs ≤ 1 then
    .ok (if exponent = 0 then 1 else if exponent % 2 = 0 then base * base else base)
  else if 64 ≤ exponent then .error .overflow
  else fit (Int.pow base exponent.toNat)

/-- Integer arithmetic. Division truncates, and a remainder has the sign of the dividend. -/
def integers : Arithmetic Int where
  read text := long.read text.toList
  binary op a b :=
    match op with
    | .add => fit (a + b)
    | .sub => fit (a - b)
    | .mul => fit (a * b)
    | .div => if b = 0 then .error .divideByZero else fit (a.tdiv b)
    | .mod =>
      if b = 0 then .error .divideByZero
      else if long.contains (a.tdiv b) then .ok (a.tmod b)
      else .error .overflow
    | .pow => power a b
  negate a := fit (-a)
  call name _ := .error (.unknownFunction name)

/-- The value of an integer expression. -/
def evalInt (text : String) : Except Fault Int :=
  eval integers text

end InstallScript.Expr
