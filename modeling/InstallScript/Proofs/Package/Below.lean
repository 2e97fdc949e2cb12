import InstallScript.Proofs.Path.Joined

/-!
What a package has below a folder. What is left of the name of a file there is the same text for
every spelling of the folder, and tells the files below one folder apart.
-/

namespace InstallScript.Entry

open Text

/-- Whether a file lies below a folder, directly or at any depth if `recurse` is set, and `rest` is
    left of its name there. The empty folder holds every file under its whole name. -/
def LiesBelow (e : Entry) (folder : String) (recurse : Bool) (rest : String) : Prop :=
  (if Path.normalize folder = "" then rest = e.name
    else rest ≠ "" ∧ ∃ dir, e.name = Path.join dir rest ∧
      sameName dir (Path.normalize folder) = true) ∧
  (recurse = true ∨ '\\' ∉ rest.toList)

variable {e f : Entry} {folder rest rest' : String} {recurse : Bool}

theorem liesBelow_iff : e.LiesBelow folder recurse rest ↔
    Path.stripFolder e.name folder = some rest ∧ (recurse = true ∨ '\\' ∉ rest.toList) := by
  refine and_congr_left' ?_
  by_cases hempty : Path.normalize folder = ""
  · rw [if_pos hempty, Path.stripFolder_of_empty hempty, Option.some.injEq, eq_comm]
  · rw [if_neg hempty, Path.stripFolder_eq_some_iff hempty]
    simp only [← Path.toList_join, String.toList_inj]

theorem isInFolder_iff : e.isInFolder folder recurse = true ↔
    ∃ rest, e.LiesBelow folder recurse rest := by
  simp only [liesBelow_iff, isInFolder]
  cases Path.stripFolder e.name folder with
  | none => simp
  | some rest => simp

theorem LiesBelow.isTail (h : e.LiesBelow folder recurse rest) :
    Path.IsTail rest.toList e.name.toList :=
  Path.isTail_of_stripFolder (liesBelow_iff.mp h).1

theorem LiesBelow.eq_name (h : e.LiesBelow folder recurse rest)
    (hempty : Path.normalize folder = "") :
    rest = e.name := by
  rw [LiesBelow, if_pos hempty] at h
  exact h.1

theorem LiesBelow.exists_dir (h : e.LiesBelow folder recurse rest)
    (hne : Path.normalize folder ≠ "") :
    ∃ dir, e.name = Path.join dir rest ∧ sameName dir (Path.normalize folder) = true := by
  rw [LiesBelow, if_neg hne] at h
  exact h.1.2

/-- Files of one folder whose names differ there have different names, up to lower-casing. -/
theorem LiesBelow.lower_name_inj (he : e.LiesBelow folder recurse rest)
    (hf : f.LiesBelow folder recurse rest') (h : lower rest = lower rest') :
    lower e.name = lower f.name := by
  by_cases hempty : Path.normalize folder = ""
  · rw [← he.eq_name hempty, ← hf.eq_name hempty, h]
  · obtain ⟨dir, hname, hdir⟩ := he.exists_dir hempty
    obtain ⟨dir', hname', hdir'⟩ := hf.exists_dir hempty
    rw [hname, hname', Path.lower_join, Path.lower_join, h, lower_eq_of_sameName hdir,
      lower_eq_of_sameName hdir']

end InstallScript.Entry
