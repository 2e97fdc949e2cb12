import InstallScript.Number.Integer
import InstallScript.Text.Blank
import InstallScript.Text.Pieces

/-!
Versions with four parts, such as `1.2.416.0`. Parts that are not written are zero.
-/

namespace InstallScript

structure Version where
  major : UInt32
  minor : UInt32
  build : UInt32
  revision : UInt32
  deriving DecidableEq, Repr

namespace Version

/-- The version whose parts are all zero. -/
def zero : Version := ⟨0, 0, 0, 0⟩

instance : Inhabited Version := ⟨zero⟩

/-- The four parts, most significant first. -/
def parts (v : Version) : List Nat :=
  [v.major.toNat, v.minor.toNat, v.build.toNat, v.revision.toNat]

/-- Versions are compared part by part. -/
protected def compare (a b : Version) : Ordering :=
  compare a.parts b.parts

/-- Whether one version comes before another. -/
def before (a b : Version) : Bool :=
  a.compare b == .lt

/-- All four parts, with points between them. -/
def text (v : Version) : String :=
  String.ofList (Text.joinWith ['.'] (v.parts.map Number.decimal))

/-- Reads one part, with white space around it. -/
def readPart (cs : List Char) : Option Nat :=
  ((Number.Range.unsigned 32).read (Text.trim cs)).map Int.toNat

/-- Reads one to four parts with points between them. -/
def read (s : String) : Option Version :=
  let pieces := Text.splitAt (· == '.') (Text.trim s.toList)
  if 4 < pieces.length then none
  else (pieces.mapM readPart).map fun parts =>
    let part (i : Nat) := UInt32.ofNat (parts.getD i 0)
    ⟨part 0, part 1, part 2, part 3⟩

/-- The version of the mod manager that scripts are written against. -/
def manager : Version := ⟨1, 1, 12, 0⟩

/-- The version of the game that is assumed when the real one is not known. -/
def game : Version := ⟨1, 2, 416, 0⟩

end Version

end InstallScript
