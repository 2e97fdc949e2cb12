/-!
Tables of characters: sorted ranges for a class, and runs of equally spaced pairs for a case
mapping.
-/

namespace InstallScript.Text

/-- Whether a character lies in one of the ranges, both ends included. -/
def inRanges (ranges : Array (Nat × Nat)) (c : Char) : Bool :=
  ranges.any fun (lo, hi) => lo ≤ c.toNat && c.toNat ≤ hi

/-- A run of a case mapping: the characters `first, first + step, …, last` go to
    `target, target + step, …`. -/
structure CaseRun where
  first : Nat
  last : Nat
  step : Nat
  target : Nat

/-- Whether the run maps a character. -/
def CaseRun.covers (r : CaseRun) (c : Char) : Bool :=
  r.first ≤ c.toNat && c.toNat ≤ r.last && (c.toNat - r.first) % r.step == 0

/-- The image of a character under a mapping. A character that no run covers stays as it is. -/
def CaseRun.apply (runs : Array CaseRun) (c : Char) : Char :=
  match runs.find? (·.covers c) with
  | some r => Char.ofNat (r.target + (c.toNat - r.first))
  | none => c

end InstallScript.Text
