import InstallScript.Number.Integer
import InstallScript.Number.Binary

/-!
Floating-point numbers as decimal text. Reading takes the nearest number of the format. Writing
takes the fewest digits that read back as the same number, and of those the nearest; it never uses
an exponent.
-/

namespace InstallScript.Number

/-- A decimal literal, before it is rounded to a format. -/
inductive Literal where
  | infinity
  | notANumber
  | scaled (digits : Nat) (exponent : Int)
  deriving DecidableEq, Repr

/-- An exponent that stops growing once it is far out of every format's range. -/
def exponentValue (cs : List Char) : Nat :=
  cs.foldl (fun n c => if n < 65536 then 10 * n + digitValue c else n) 0

/-- Reads what follows the digits of a literal: nothing, or `e`, an optional sign and digits. -/
def readExponent : List Char → Option Int
  | [] => some 0
  | c :: rest =>
    if c = 'e' || c = 'E' then
      let (negative, ds) := match rest with
        | '-' :: ds => (true, ds)
        | '+' :: ds => (false, ds)
        | ds => (false, ds)
      if ds.isEmpty || !ds.all Char.isDigit then none
      else some (if negative then -(exponentValue ds : Int) else exponentValue ds)
    else none

/-- Reads an unsigned literal. At least one digit has to stand before or after the point. -/
def readLiteral (cs : List Char) : Option Literal :=
  let word := cs.map Char.toLower
  if word = "inf".toList || word = "infinity".toList then some .infinity
  else if word = "nan".toList then some .notANumber
  else
    let whole := cs.takeWhile Char.isDigit
    let (fraction, rest) := match cs.dropWhile Char.isDigit with
      | '.' :: rest => (rest.takeWhile Char.isDigit, rest.dropWhile Char.isDigit)
      | rest => ([], rest)
    if whole.isEmpty && fraction.isEmpty then none
    else (readExponent rest).map fun e =>
      .scaled (ofDigits (whole ++ fraction)) (e - fraction.length)

/-- How many decimal digits a number has; zero has none. -/
def digitCount (n : Nat) : Nat :=
  if n = 0 then 0 else (decimal n).length

/-- The bits of the number nearest to a literal. Exponents beyond every format's range are settled
    without computing the power. -/
def Literal.bits (f : BinaryFormat) : Literal → Nat
  | .infinity => f.infinity
  | .notANumber => f.nan
  | .scaled digits exponent =>
    let top := exponent + digitCount digits
    if digits = 0 || top < -400 then 0
    else if 400 < top then f.infinity
    else if 0 ≤ exponent then f.round (digits * Nat.pow 10 exponent.toNat) 1
    else f.round digits (Nat.pow 10 (-exponent).toNat)

/-- Reads a number with an optional sign. -/
def readBits (f : BinaryFormat) (cs : List Char) : Option Nat :=
  match cs with
  | '-' :: rest => (readLiteral rest).map fun l => f.signed true (l.bits f)
  | '+' :: rest => (readLiteral rest).map (·.bits f)
  | rest => (readLiteral rest).map (·.bits f)

/-- A decimal number `digits * 10 ^ exponent`. -/
structure Scaled where
  digits : Nat
  exponent : Int
  deriving DecidableEq, Repr

/-- The number of digits before the point of `num / den`; zero or negative if leading zeros follow
    the point. -/
def pointPosition (num den : Nat) : Int :=
  if den ≤ num then digitCount (num / den) else 1 - (digitCount ((den - 1) / num) : Int)

/-- The `count`-digit neighbours of `value / den`, given how far a number may be off, and the one
    to use if it reads back. Where both do, the nearer wins, and the larger of two equally near. -/
def neighbour (value low high den : Nat) (closed : Bool) (count : Nat) : Option Scaled :=
  let shift : Int := count - pointPosition value den
  let up := Nat.pow 10 shift.toNat
  let unit := den * Nat.pow 10 (-shift).toNat
  let floor := value * up / unit
  let ceil := if value * up % unit = 0 then floor else floor + 1
  let floorFits := low * up < floor * unit || (closed && low * up == floor * unit)
  let ceilFits := ceil * unit < high * up || (closed && ceil * unit == high * up)
  if floorFits && ceilFits then
    some ⟨if 2 * (value * up % unit) < unit then floor else ceil, -shift⟩
  else if floorFits then some ⟨floor, -shift⟩
  else if ceilFits then some ⟨ceil, -shift⟩
  else none

/-- The fewest digits that read back as the positive number `m * 2 ^ q`. The numbers that do lie
    between the midpoints to its two neighbours, which belong to them exactly if `m` is even. -/
def shortest (f : BinaryFormat) (m : Nat) (q : Int) : Scaled :=
  let below := if m = Nat.pow 2 f.fractionBits && f.minExponent < q then 1 else 2
  let num := Nat.pow 2 (q - 2).toNat
  let den := Nat.pow 2 (2 - q).toNat
  let value := 4 * m * num
  let low := (4 * m - below) * num
  let high := (4 * m + 2) * num
  ((List.range 17).findSome? fun i => neighbour value low high den (m % 2 == 0) (i + 1)).getD
    ⟨value / den, 0⟩

/-- Writes a decimal number without an exponent, and without zeros at the end of its fraction. -/
def Scaled.positional (s : Scaled) : List Char :=
  let digits := decimal s.digits
  if 0 ≤ s.exponent then digits ++ List.replicate s.exponent.toNat '0'
  else
    let places := (-s.exponent).toNat
    let padded := List.replicate (places + 1 - digits.length) '0' ++ digits
    let whole := padded.take (padded.length - places)
    let fraction := ((padded.drop (padded.length - places)).reverse.dropWhile (· == '0')).reverse
    if fraction.isEmpty then whole else whole ++ '.' :: fraction

/-- The text of a number given by its bits. -/
def textOfBits (f : BinaryFormat) (bits : Nat) : String :=
  let sign (negative : Bool) (cs : List Char) := String.ofList (if negative then '-' :: cs else cs)
  match f.reading bits with
  | .notANumber => "NaN"
  | .infinite negative => sign negative "inf".toList
  | .finite negative 0 _ => sign negative ['0']
  | .finite negative m q => sign negative (shortest f m q).positional

/-- Reads a 64-bit number. -/
def readDouble (cs : List Char) : Option Float :=
  (readBits .double cs).map fun bits => Float.ofBits bits.toUInt64

/-- The text of a 64-bit number. -/
def textOfDouble (x : Float) : String :=
  textOfBits .double x.toBits.toNat

/-- The remainder of a division that truncates, exact and with the sign of the dividend. -/
def remainder (x y : Float) : Float :=
  let f := BinaryFormat.double
  match f.reading x.toBits.toNat, f.reading y.toBits.toNat with
  | .finite negative m q, .finite _ n r =>
    if n = 0 then Float.ofBits f.nan.toUInt64
    else
      let base := min q r
      let rest := m * Nat.pow 2 (q - base).toNat % (n * Nat.pow 2 (r - base).toNat)
      let bits :=
        if 0 ≤ base then f.round (rest * Nat.pow 2 base.toNat) 1
          else f.round rest (Nat.pow 2 (-base).toNat)
      Float.ofBits (f.signed negative bits).toUInt64
  | .finite .., .infinite _ => x
  | _, _ => Float.ofBits f.nan.toUInt64

end InstallScript.Number
