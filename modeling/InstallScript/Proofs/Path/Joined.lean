import InstallScript.Proofs.Path.Output
import InstallScript.Proofs.Path.Settled
import InstallScript.Proofs.Text.Breaks

/-!
Paths that are put together from a folder and what lies below another one. The canonical form of the
folder and the end of a canonical path make up a path that is canonical as it is, and its key is
made up of the lower-case forms of the two.
-/

namespace InstallScript.Path

open Text

/-- Whether a text is divided as canonical paths are, by single backslashes between parts that are
    not empty. -/
structure Divided (cs : List Char) : Prop where
  noSlash : '/' ∉ cs
  noGap : [] ∉ splitAt (· == '\\') cs

namespace Divided

variable {cs xs ys : List Char} {path : String}

theorem ne_nil (h : Divided cs) : cs ≠ [] := by
  rintro rfl
  exact h.noGap (by simp [splitAt])

theorem append_iff : Divided (xs ++ '\\' :: ys) ↔ Divided xs ∧ Divided ys := by
  have hpieces : splitAt (· == '\\') (xs ++ '\\' :: ys) =
      splitAt (· == '\\') xs ++ splitAt (· == '\\') ys :=
    splitAt_append_cons rfl xs ys
  constructor
  · rintro ⟨hslash, hgap⟩
    simp only [hpieces, List.mem_append, List.mem_cons, not_or] at hslash hgap
    exact ⟨⟨hslash.1, hgap.1⟩, hslash.2.2, hgap.2⟩
  · rintro ⟨hxs, hys⟩
    refine ⟨?_, ?_⟩
    · simp [hxs.noSlash, hys.noSlash]
    · rw [hpieces]
      simp [hxs.noGap, hys.noGap]

theorem normalize (h : Path.normalize path ≠ "") : Divided (Path.normalize path).toList := by
  refine ⟨fun hslash => ?_, ?_⟩
  · rcases of_mem_normalize hslash with heq | ⟨hsep, -⟩
    · cases heq
    · cases hsep
  · have hparts : parts path ≠ [] := by
      intro hnil
      rw [Path.normalize, hnil] at h
      exact h rfl
    rw [splitAt_normalize rfl (fun c hc => by simp [isSeparator, beq_iff_eq.mp hc]) hparts]
    exact fun hmem => (mem_parts.mp hmem).2 rfl

/-- A text that is divided as canonical paths are is the canonical form of itself if there is
    nothing to trim. -/
theorem normalize_eq (h : Divided path.toList) (htrim : trim path.toList = path.toList) :
    Path.normalize path = path := by
  have hsplit : splitAt isSeparator path.toList = splitAt (· == '\\') path.toList := by
    refine splitAt_congr fun c hc => ?_
    have hne : c ≠ '/' := fun heq => h.noSlash (heq ▸ hc)
    simp [isSeparator, hne]
  have hparts : parts path = splitAt (· == '\\') path.toList := by
    rw [parts, htrim, hsplit]
    refine List.filter_eq_self.mpr fun piece hpiece => ?_
    have hne : piece ≠ [] := fun heq => h.noGap (heq ▸ hpiece)
    simpa using hne
  rw [Path.normalize, hparts, joinWith_splitAt, String.ofList_toList]

end Divided

/-- Whether a text can start a canonical path, in front of a backslash. -/
def Leads (cs : List Char) : Prop :=
  Divided cs ∧ ∀ c, cs.head? = some c → isBlank c = false

/-- Whether a text can end a canonical path, behind a backslash. -/
def Trails (cs : List Char) : Prop :=
  Divided cs ∧ ∀ c, cs.getLast? = some c → isBlank c = false

/-- The canonical form of a safe path can start another one. White space at its end makes no
    difference there. -/
theorem leads_of_isSafe {path : String} (hsafe : isSafe path = true) (hne : normalize path ≠ "") :
    Leads (normalize path).toList :=
  ⟨.normalize hne, fun c hc => ((Confined.of_isSafe hsafe).normalize.anchored c hc).2⟩

theorem trails_of_normalize_eq {path : String} (h : normalize path = path) (hne : path ≠ "") :
    Trails path.toList := by
  have hsettled : Settled path := normalize_normalize_iff.mp (by rw [h, h])
  rw [Settled, h] at hsettled
  have hdivided : Divided (normalize path).toList := .normalize (h.symm ▸ hne)
  rw [h] at hdivided
  exact ⟨hdivided, (trim_eq_self_iff.mp hsettled).2⟩

/-- What follows a backslash ends a canonical path as the whole does. -/
theorem Trails.of_isTail {rest path : List Char} (h : Trails path) (htail : IsTail rest path) :
    Trails rest := by
  rcases htail with rfl | ⟨dir, rfl⟩
  · exact h
  · have hrest : Divided rest := (Divided.append_iff.mp h.1).2
    refine ⟨hrest, fun c hc => h.2 c ?_⟩
    rw [List.getLast?_append, List.getLast?_cons, hc]
    rfl

section Join

variable {folder rest : String}

/-- A path below a folder. -/
def join (folder rest : String) : String :=
  folder ++ "\\" ++ rest

theorem toList_join (folder rest : String) :
    (join folder rest).toList = folder.toList ++ '\\' :: rest.toList := by
  simp [join]

theorem normalize_join (hfolder : Leads folder.toList) (hrest : Trails rest.toList) :
    normalize (join folder rest) = join folder rest := by
  have hdivided : Divided (join folder rest).toList := by
    rw [toList_join]
    exact Divided.append_iff.mpr ⟨hfolder.1, hrest.1⟩
  obtain ⟨first, hfirst⟩ :=
    Option.ne_none_iff_exists'.mp (mt List.head?_eq_none_iff.mp hfolder.1.ne_nil)
  obtain ⟨last, hlast⟩ :=
    Option.ne_none_iff_exists'.mp (mt List.getLast?_eq_none_iff.mp hrest.1.ne_nil)
  refine hdivided.normalize_eq
    (trim_eq_self_iff.mpr ⟨fun c hc => hfolder.2 c ?_, fun c hc => hrest.2 c ?_⟩)
  · rw [toList_join, List.head?_append, hfirst] at hc
    exact hfirst.trans hc
  · rw [toList_join, List.getLast?_append, List.getLast?_cons, hlast] at hc
    exact hlast.trans hc

theorem breaksWords_backslash : BreaksWords '\\' := by
  constructor <;> decide +kernel

/-- Below a folder and apart from it, a name has one lower-case form. -/
theorem lower_join (folder rest : String) :
    lower (join folder rest) = join (lower folder) (lower rest) := by
  rw [← String.toList_inj, toList_join, lower, toList_join, breaksWords_backslash.lowerFrom_cut]
  simp [lower, lowerChar]

theorem key_join (hfolder : Leads folder.toList) (hrest : Trails rest.toList) :
    key (join folder rest) = join (lower folder) (lower rest) := by
  rw [key, normalize_join hfolder hrest, lower_join]

theorem join_inj {rest' : String} : join folder rest = join folder rest' ↔ rest = rest' := by
  simp [join, ← String.toList_inj]

end Join

end InstallScript.Path
