import InstallScript.Proofs.Path.Names
import InstallScript.Proofs.Text.Lower

/-!
When the canonical form of a path is canonical. A path is trimmed before it is cut at its
separators, so white space that stands next to a separator at either end is still there in the
canonical form. Exactly for the paths where none is left, bringing the form into canonical form once
more changes nothing, and the form is filed where the path is.
-/

namespace InstallScript

namespace Text

/-- Leaving pieces out leaves characters out. -/
theorem joinWith_sublist {xs ys : List (List Char)} (h : xs.Sublist ys) (sep : List Char) :
    (joinWith sep xs).Sublist (joinWith sep ys) := by
  induction h with
  | slnil => exact .slnil
  | @cons xs ys piece hsub ih =>
    by_cases hys : ys = []
    · subst hys
      rw [List.sublist_nil.mp hsub]
      exact List.nil_sublist _
    · rw [joinWith_cons hys]
      exact ih.trans (List.sublist_append_right _ _)
  | @cons_cons xs ys piece hsub ih =>
    by_cases hxs : xs = []
    · subst hxs
      by_cases hys : ys = []
      · subst hys
        exact List.Sublist.refl _
      · rw [joinWith_cons hys, List.append_assoc]
        exact List.sublist_append_left _ _
    · have hys : ys ≠ [] := by
        rintro rfl
        exact hxs (List.sublist_nil.mp hsub)
      rw [joinWith_cons hxs, joinWith_cons hys]
      exact (List.Sublist.refl _).append ih

theorem splitAt_congr {sep other : Char → Bool} {cs : List Char}
    (h : ∀ c ∈ cs, sep c = other c) :
    splitAt sep cs = splitAt other cs := by
  induction cs with
  | nil => rfl
  | cons c rest ih =>
    obtain ⟨hc, hrest⟩ := List.forall_mem_cons.mp h
    simp only [splitAt, hc, ih hrest]

end Text

namespace Path

open Text

/-- Whether the canonical form of a path has no white space at its ends, which separators can hide
    at the ends of the path itself. -/
def Settled (path : String) : Prop :=
  trim (normalize path).toList = (normalize path).toList

instance (path : String) : Decidable (Settled path) :=
  inferInstanceAs (Decidable (_ = _))

theorem trim_sublist (cs : List Char) : (trim cs).Sublist cs := by
  obtain ⟨xs, ys, hcs, -⟩ := exists_trim cs
  conv => rhs; rw [hcs]
  exact (List.sublist_append_right _ _).trans (List.sublist_append_left _ _)

/-- A canonical path has no separators but backslashes, and keeps characters or drops them when it
    is brought into canonical form once more. -/
theorem normalize_sublist_trim (path : String) :
    (normalize (normalize path)).toList.Sublist (trim (normalize path).toList) := by
  have hsplit : splitAt isSeparator (trim (normalize path).toList) =
      splitAt (· == '\\') (trim (normalize path).toList) := by
    refine splitAt_congr fun c hc => ?_
    rcases of_mem_normalize (mem_of_mem_trim hc) with rfl | ⟨hsep, -⟩
    · rfl
    · have hne : (c == '\\') = false := (Bool.or_eq_false_iff.mp hsep).1
      rw [hsep, hne]
  rw [toList_normalize, parts, hsplit]
  conv => rhs; rw [← joinWith_splitAt '\\' (trim (normalize path).toList)]
  exact joinWith_sublist List.filter_sublist _

theorem normalize_normalize_of_settled {path : String} (h : Settled path) :
    normalize (normalize path) = normalize path := by
  have hparts : parts (normalize path) = parts path := by
    rw [parts, h, toList_normalize]
    exact filter_splitAt_joinWith rfl (fun piece hpiece => (mem_parts.mp hpiece).2)
      fun piece hpiece c hc => (of_mem_parts hpiece c hc).1
  rw [normalize, hparts]
  rfl

theorem normalize_normalize_iff {path : String} : normalize (normalize path) = normalize path ↔
    Settled path := by
  refine ⟨fun h => ?_, normalize_normalize_of_settled⟩
  have hsub := normalize_sublist_trim path
  rw [h] at hsub
  exact (trim_sublist _).eq_of_length_le hsub.length_le

/-- The canonical form of a path has the key of the path only if nothing is left to trim from it. -/
theorem key_normalize_iff {path : String} : key (normalize path) = key path ↔ Settled path := by
  rw [← normalize_normalize_iff]
  constructor
  · intro h
    have hsub := (normalize_sublist_trim path).trans (trim_sublist _)
    exact eq_of_sublist_of_lower hsub h
  · intro h
    rw [key, h]
    rfl

end Path

end InstallScript
