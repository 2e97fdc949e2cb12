import InstallScript.Path
import InstallScript.Proofs.Text.Pieces

/-!
Paths that stay inside their folder, and what is left of this when they are brought into canonical
form.
-/

namespace InstallScript.Path

open Text

/-- The part of a path that leads to the folder above. -/
def up : List Char := ['.', '.']

theorem isBlank_of_isSeparator {c : Char} (h : isSeparator c = true) : isBlank c = false := by
  simp only [isSeparator, Bool.or_eq_true, beq_iff_eq] at h
  rcases h with rfl | rfl <;> decide

theorem isSeparator_of_isBlank {c : Char} (h : isBlank c = true) : isSeparator c = false := by
  cases hsep : isSeparator c with
  | false => rfl
  | true =>
    rw [isBlank_of_isSeparator hsep] at h
    cases h

theorem eq_dot_of_mem_up {c : Char} (h : c ∈ up) : c = '.' := by
  simpa [up] using h

section Canonical

variable {path : String} {piece : List Char}

theorem mem_parts : piece ∈ parts path ↔ piece ∈ splitAt isSeparator (trim path.toList) ∧
    piece ≠ [] := by
  simp [parts]

theorem of_mem_parts (h : piece ∈ parts path) : ∀ c ∈ piece, isSeparator c = false ∧
    c ∈ trim path.toList :=
  of_mem_splitAt (mem_parts.mp h).1

theorem toList_normalize (path : String) :
    (normalize path).toList = joinWith ['\\'] (parts path) := by
  simp [normalize]

theorem of_mem_normalize {c : Char} (h : c ∈ (normalize path).toList) :
    c = '\\' ∨ isSeparator c = false ∧ c ∈ trim path.toList := by
  rw [toList_normalize] at h
  rcases mem_joinWith h with h | ⟨piece, hpiece, h⟩
  · exact .inl (List.mem_singleton.mp h)
  · exact .inr (of_mem_parts hpiece c h)

theorem dropLast_parts_sublist (path : String) :
    (parts path).dropLast.Sublist (splitAt isSeparator (trim path.toList)).dropLast := by
  have hparts : (parts path).Sublist (splitAt isSeparator (trim path.toList)) := List.filter_sublist
  have htail := hparts.reverse.tail
  rwa [List.tail_reverse, List.tail_reverse, List.reverse_sublist] at htail

/-- The canonical form of a path that is not rooted starts as the path does. -/
theorem head?_normalize (h : ∀ c, (trim path.toList).head? = some c → isSeparator c = false) :
    (normalize path).toList.head? = (trim path.toList).head? := by
  rw [toList_normalize, parts]
  cases htrim : trim path.toList with
  | nil => rfl
  | cons c rest =>
    obtain ⟨piece, pieces, -, hcons⟩ := splitAt_cons_of_false (h c (by rw [htrim]; rfl)) rest
    rw [hcons, List.filter_cons_of_pos rfl]
    cases pieces.filter (!·.isEmpty) <;> rfl

variable {sep : Char → Bool}

/-- The canonical form of a path has the same parts. -/
theorem splitAt_normalize (hsep : sep '\\' = true)
    (hsub : ∀ c, sep c = true → isSeparator c = true) (hne : parts path ≠ []) :
    splitAt sep (normalize path).toList = parts path := by
  rw [toList_normalize]
  refine splitAt_joinWith hsep hne fun piece hpiece c hc => ?_
  cases h : sep c with
  | false => rfl
  | true =>
    have hnot := (of_mem_parts hpiece c hc).1
    rw [hsub c h] at hnot
    cases hnot

theorem up_mem_splitAt_normalize (hsep : sep '\\' = true)
    (hsub : ∀ c, sep c = true → isSeparator c = true) :
    up ∈ splitAt sep (normalize path).toList ↔
    up ∈ splitAt isSeparator (trim path.toList) := by
  have hparts : up ∈ parts path ↔ up ∈ splitAt isSeparator (trim path.toList) := by
    simp [mem_parts, up]
  by_cases hne : parts path = []
  · rw [← hparts, hne, toList_normalize, hne]
    simp [joinWith, splitAt, up]
  · rw [splitAt_normalize hsep hsub hne, hparts]

/-- What makes a path safe, read off the path as it is written. -/
theorem isSafe_iff : isSafe path = true ↔ isRooted (trim path.toList) = false ∧
    ':' ∉ trim path.toList ∧
    up ∉ splitAt isSeparator (trim path.toList) := by
  have hup : up ∈ splitAt (· == '\\') (normalize path).toList ↔
      up ∈ splitAt isSeparator (trim path.toList) :=
    up_mem_splitAt_normalize rfl fun c hc => by simp [isSeparator, beq_iff_eq.mp hc]
  rw [← hup]
  simp [isSafe, up, and_assoc]

end Canonical

section Trim

variable {cs bs : List Char}

theorem up_mem_splitAt_append (hblank : ∀ c ∈ bs, isBlank c = true)
    (h : up ∈ splitAt isSeparator (cs ++ bs)) :
    up ∈ splitAt isSeparator cs := by
  obtain ⟨front, last, hpieces, happend⟩ :=
    splitAt_append isSeparator cs fun c hc => isSeparator_of_isBlank (hblank c hc)
  rw [happend] at h
  rw [hpieces]
  rcases List.mem_append.mp h with h | h
  · exact List.mem_append_left _ h
  · -- The last piece ends in what was appended, so that has to be nothing.
    have hlast := List.mem_singleton.mp h
    cases bs with
    | nil =>
      rw [List.append_nil] at hlast
      exact List.mem_append_right _ (List.mem_singleton.mpr hlast)
    | cons c rest =>
      have hdot : c = '.' := eq_dot_of_mem_up (by simp [hlast])
      have hc := hblank c List.mem_cons_self
      rw [hdot] at hc
      cases hc

theorem up_mem_splitAt_prepend (hblank : ∀ c ∈ bs, isBlank c = true)
    (h : up ∈ splitAt isSeparator (bs ++ cs)) :
    up ∈ splitAt isSeparator cs := by
  induction bs with
  | nil => exact h
  | cons c rest ih =>
    obtain ⟨hc, hrest⟩ := List.forall_mem_cons.mp hblank
    refine ih hrest ?_
    obtain ⟨piece, pieces, hpieces, hcons⟩ :=
      splitAt_cons_of_false (isSeparator_of_isBlank hc) (rest ++ cs)
    rw [List.cons_append, hcons] at h
    rw [hpieces]
    rcases List.mem_cons.mp h with h | h
    · have hdot : c = '.' := eq_dot_of_mem_up (by simp [h])
      rw [hdot] at hc
      cases hc
    · exact List.mem_cons_of_mem piece h

theorem up_mem_splitAt_trim (h : up ∈ splitAt isSeparator cs) :
    up ∈ splitAt isSeparator (trim cs) := by
  obtain ⟨xs, ys, hcs, hxs, hys⟩ := exists_trim cs
  rw [hcs] at h
  exact up_mem_splitAt_prepend hxs (up_mem_splitAt_append hys h)

theorem mem_trim_of_mem {c : Char} (hc : isBlank c = false) (h : c ∈ cs) : c ∈ trim cs := by
  obtain ⟨xs, ys, hcs, hxs, hys⟩ := exists_trim cs
  have hnot : ∀ zs : List Char, (∀ d ∈ zs, isBlank d = true) → c ∉ zs := by
    intro zs hzs hmem
    rw [hzs c hmem] at hc
    cases hc
  rw [hcs] at h
  simpa [hnot xs hxs, hnot ys hys] using h

end Trim

/-- A path that names no drive, does not start with white space or a separator, and in which no part
    but the last leads upwards. -/
structure Confined (path : List Char) : Prop where
  anchored : ∀ c, path.head? = some c → isSeparator c = false ∧ isBlank c = false
  driveless : ':' ∉ path
  level : up ∉ (splitAt isSeparator path).dropLast

namespace Confined

variable {cs : List Char} {path : String}

theorem isRooted_eq_false (h : Confined cs) : isRooted cs = false := by
  cases cs with
  | nil => rfl
  | cons c rest => exact (h.anchored c rfl).1

theorem trimStart_eq (h : Confined cs) : trimStart cs = cs := by
  cases cs with
  | nil => rfl
  | cons c rest => exact trimStart_cons (h.anchored c rfl).2 rest

/-- Trimming keeps a path confined, since it only takes white space from the last part. -/
protected theorem trim (h : Confined cs) : Confined (trim cs) := by
  rw [Text.trim, h.trimStart_eq]
  obtain ⟨bs, hcs, hblank⟩ := exists_trimEnd cs
  refine ⟨fun c hc => h.anchored c ?_, fun hmem => h.driveless ?_, ?_⟩
  · rw [hcs, List.head?_append, hc]
    rfl
  · rw [hcs]
    exact List.mem_append_left bs hmem
  · have hlevel := dropLast_splitAt_append (trimEnd cs) fun c hc =>
      isSeparator_of_isBlank (hblank c hc)
    rw [← hlevel, ← hcs]
    exact h.level

/-- A safe path is confined. -/
theorem of_isSafe (h : isSafe path = true) : Confined (Text.trim path.toList) := by
  obtain ⟨hrooted, hdrive, hup⟩ := isSafe_iff.mp h
  refine ⟨fun c hc => ⟨?_, isBlank_head_trim hc⟩, hdrive,
    fun hmem => hup (List.dropLast_subset _ hmem)⟩
  obtain ⟨rest, hrest⟩ := List.head?_eq_some_iff.mp hc
  rw [hrest] at hrooted
  exact hrooted

/-- The canonical form of a path is confined if the path is, up to white space at its ends. -/
protected theorem normalize (h : Confined (Text.trim path.toList)) :
    Confined (normalize path).toList := by
  refine ⟨fun c hc => h.anchored c ?_, fun hmem => ?_, ?_⟩
  · rwa [head?_normalize fun d hd => (h.anchored d hd).1] at hc
  · rcases of_mem_normalize hmem with hcolon | ⟨-, hcolon⟩
    · cases hcolon
    · exact h.driveless hcolon
  · by_cases hne : parts path = []
    · rw [toList_normalize, hne]
      simp [joinWith, splitAt]
    · rw [splitAt_normalize (by decide) (fun _ hc => hc) hne]
      exact fun hmem => h.level ((dropLast_parts_sublist path).subset hmem)

end Confined

end InstallScript.Path
