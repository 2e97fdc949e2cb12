/-!
Integers as text. Scripts write them in decimal, with an optional sign, and each use of one has a
range that it must fit.
-/

namespace InstallScript.Number

/-- The value of a decimal digit. -/
def digitValue (c : Char) : Nat :=
  c.toNat - '0'.toNat

/-- The number that a list of digits denotes, most significant first. -/
def ofDigits (cs : List Char) : Nat :=
  cs.foldl (fun n c => 10 * n + digitValue c) 0

/-- Reads one or more digits. -/
def readDigits (cs : List Char) : Option Nat :=
  if !cs.isEmpty && cs.all Char.isDigit then some (ofDigits cs) else none

/-- The decimal digit of a value below ten. -/
def digitChar (d : Nat) : Char :=
  Char.ofNat ('0'.toNat + d)

/-- The decimal digits of a number, without leading zeros. -/
def decimal (n : Nat) : List Char :=
  if n < 10 then [digitChar n] else decimal (n / 10) ++ [digitChar (n % 10)]
termination_by n
decreasing_by omega

/-- The decimal text of a natural number. -/
def textOfNat (n : Nat) : String :=
  String.ofList (decimal n)

/-- The decimal text of an integer. -/
def textOfInt (n : Int) : String :=
  String.ofList (if n < 0 then '-' :: decimal n.natAbs else decimal n.natAbs)

/-- A range of integers, both ends included. -/
structure Range where
  lo : Int
  hi : Int
  deriving DecidableEq, Repr

namespace Range

/-- The range of a signed word of `bits` bits. -/
def signed (bits : Nat) : Range :=
  ⟨-(Nat.pow 2 (bits - 1) : Nat), (Nat.pow 2 (bits - 1) : Nat) - 1⟩

/-- The range of an unsigned word of `bits` bits. -/
def unsigned (bits : Nat) : Range :=
  ⟨0, (Nat.pow 2 bits : Nat) - 1⟩

/-- Whether an integer lies in the range. -/
def contains (r : Range) (n : Int) : Bool :=
  r.lo ≤ n && n ≤ r.hi

/-- An integer that lies in the range. -/
def check (r : Range) (n : Int) : Option Int :=
  if r.contains n then some n else none

/-- Reads an integer of the range. A plus sign is always allowed, a minus sign only if the range
    reaches below zero. -/
def read (r : Range) (cs : List Char) : Option Int :=
  match cs with
  | '+' :: ds => (readDigits ds).bind fun n => r.check n
  | '-' :: ds => if r.lo < 0 then (readDigits ds).bind fun n => r.check (-n) else none
  | ds => (readDigits ds).bind fun n => r.check n

end Range

/-- The integers that script variables count with. -/
def long : Range := .signed 64

end InstallScript.Number
