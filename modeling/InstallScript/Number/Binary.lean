/-!
Binary floating point. A finite number is `m * 2 ^ q` for a whole `m`, and a quotient of whole
numbers is rounded to the nearest such number, a tie going to the even `m`.
-/

namespace InstallScript.Number

/-- A binary interchange format, given by the width of its fraction and of its exponent. -/
structure BinaryFormat where
  fractionBits : Nat
  exponentBits : Nat
  deriving DecidableEq, Repr

namespace BinaryFormat

/-- The format of 64-bit numbers. -/
def double : BinaryFormat := ⟨52, 11⟩

/-- The format of 32-bit numbers. -/
def single : BinaryFormat := ⟨23, 8⟩

/-- The exponent `q` of the smallest positive number. -/
def minExponent (f : BinaryFormat) : Int :=
  2 - (Nat.pow 2 (f.exponentBits - 1) : Nat) - f.fractionBits

/-- The bits of positive infinity. -/
def infinity (f : BinaryFormat) : Nat :=
  (Nat.pow 2 f.exponentBits - 1) * Nat.pow 2 f.fractionBits

/-- The bits of a number that is none. -/
def nan (f : BinaryFormat) : Nat :=
  f.infinity + Nat.pow 2 (f.fractionBits - 1)

/-- The bit that makes a number negative. -/
def signBit (f : BinaryFormat) : Nat :=
  Nat.pow 2 (f.fractionBits + f.exponentBits)

/-- Sets the sign of a number given by its bits. -/
def signed (f : BinaryFormat) (negative : Bool) (bits : Nat) : Nat :=
  if negative then f.signBit + bits else bits

/-- A whole quotient, rounded to nearest with ties to even. -/
def roundDiv (num den : Nat) : Nat :=
  let low := num / den
  let rest := 2 * (num % den)
  if rest < den then low
  else if den < rest then low + 1
  else low + low % 2

/-- The largest `e` with `2 ^ e ≤ num / den`, for positive `num` and `den`. -/
def logQuotient (num den : Nat) : Int :=
  let guess : Int := (num.log2 : Int) - den.log2
  let reaches :=
    if 0 ≤ guess then den * Nat.pow 2 guess.toNat ≤ num
      else den ≤ num * Nat.pow 2 (-guess).toNat
  if reaches then guess else guess - 1

/-- The bits of the number nearest to `num / den`, where `den` is positive. -/
def round (f : BinaryFormat) (num den : Nat) : Nat :=
  if num = 0 then 0
  else
    let q := max (logQuotient num den - f.fractionBits) f.minExponent
    let m := if 0 ≤ q then roundDiv num (den * Nat.pow 2 q.toNat)
      else roundDiv (num * Nat.pow 2 (-q).toNat) den
    let bits := (q - f.minExponent).toNat * Nat.pow 2 f.fractionBits + m
    min bits f.infinity

/-- The parts of a finite positive number: `m` and `q` with value `m * 2 ^ q`. -/
def parts (f : BinaryFormat) (bits : Nat) : Nat × Int :=
  let fraction := bits % Nat.pow 2 f.fractionBits
  let exponent := bits / Nat.pow 2 f.fractionBits
  if exponent = 0 then (fraction, f.minExponent)
  else (Nat.pow 2 f.fractionBits + fraction, f.minExponent + (exponent - 1 : Nat))

/-- What the bits of a number mean. -/
inductive Reading where
  | notANumber
  | infinite (negative : Bool)
  | finite (negative : Bool) (m : Nat) (q : Int)
  deriving DecidableEq, Repr

/-- Reads the bits of a number. -/
def reading (f : BinaryFormat) (bits : Nat) : Reading :=
  let negative := f.signBit ≤ bits
  let magnitude := bits % f.signBit
  if f.infinity < magnitude then .notANumber
  else if magnitude = f.infinity then .infinite negative
  else
    let (m, q) := f.parts magnitude
    .finite negative m q

end BinaryFormat

end InstallScript.Number
