/-!
Names that are compared without regard to the case of ASCII letters: keywords, file names, INI keys.
-/

namespace InstallScript.Text

/-- The spelling under which names are compared: ASCII letters in lower case, all else as it is. -/
def nameKey (s : String) : List Char :=
  s.toList.map Char.toLower

/-- Whether two names are equal up to the case of ASCII letters. -/
def sameName (a b : String) : Bool :=
  nameKey a == nameKey b

theorem sameName_iff {a b : String} : sameName a b = true ↔ nameKey a = nameKey b := by
  simp [sameName]

theorem sameName_refl (a : String) : sameName a a = true := by
  simp [sameName]

theorem sameName_comm (a b : String) : sameName a b = sameName b a := by
  rw [Bool.eq_iff_iff, sameName_iff, sameName_iff, eq_comm]

end InstallScript.Text
