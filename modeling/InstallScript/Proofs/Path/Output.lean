import InstallScript.Proofs.Path.Confined

/-!
The paths under which files are staged. White space at the end of a path hides a part that leads
upwards until the path is trimmed again, so such a path need not be safe, but it fails to be so only
by its last part.
-/

namespace InstallScript.Path

open Text

/-- Whether a path is another one, or what follows one of its backslashes. -/
def IsTail (rest path : List Char) : Prop :=
  rest = path ∨ ∃ dir, path = dir ++ '\\' :: rest

namespace IsTail

variable {rest path : List Char}

theorem subset (h : IsTail rest path) : rest ⊆ path := by
  rcases h with rfl | ⟨dir, rfl⟩
  · exact List.Subset.refl rest
  · exact fun c hc => by simp [hc]

theorem splitAt_subset (h : IsTail rest path) :
    splitAt isSeparator rest ⊆ splitAt isSeparator path := by
  rcases h with rfl | ⟨dir, rfl⟩
  · exact List.Subset.refl _
  · rw [splitAt_append_cons (by decide)]
    exact List.subset_append_right _ _

end IsTail

theorem isTail_fileName (path : String) : IsTail (fileName path).toList path.toList := by
  unfold fileName
  split
  · rename_i dir name hsplit
    exact .inr ⟨dir, by simpa using (splitLast_eq_some hsplit).1⟩
  · exact .inl rfl

theorem not_mem_fileName (path : String) : '\\' ∉ (fileName path).toList := by
  unfold fileName
  split
  · rename_i dir name hsplit
    simpa using (splitLast_eq_some hsplit).2
  · rename_i hsplit
    exact splitLast_eq_none hsplit

theorem isTail_of_stripFolder {path folder rest : String}
    (h : stripFolder path folder = some rest) :
    IsTail rest.toList path.toList := by
  unfold stripFolder at h
  dsimp only at h
  split at h
  · cases h
    exact .inl rfl
  · split at h
    · split at h
      · rename_i c tail hdrop
        cases h
        refine .inr ⟨path.toList.take (normalize folder).toList.length, ?_⟩
        rw [String.toList_ofList, ← hdrop, List.take_append_drop]
      · cases h
    · cases h

/-- A path that is confined but for white space at its ends, in canonical form. -/
def IsOutput (output : String) : Prop :=
  ∃ path, Confined (trim path.toList) ∧ normalize path = output

namespace IsOutput

variable {path output : String}

protected theorem normalize (h : IsOutput output) : IsOutput (normalize output) := by
  obtain ⟨path, hpath, rfl⟩ := h
  exact ⟨normalize path, hpath.normalize.trim, rfl⟩

theorem of_isSafe (h : isSafe path = true) : IsOutput (normalize path) :=
  ⟨path, .of_isSafe h, rfl⟩

/-- A path below a safe one, from which nothing leads upwards. -/
theorem append {rest : String} (hsafe : isSafe path = true) (hne : normalize path ≠ "")
    (hdrive : ':' ∉ rest.toList) (hup : up ∉ splitAt isSeparator rest.toList) :
    IsOutput (normalize (normalize path ++ "\\" ++ rest)) := by
  have hpath := (Confined.of_isSafe hsafe).normalize
  have hnot : up ∉ splitAt isSeparator (normalize path).toList := by
    rw [up_mem_splitAt_normalize (by decide) fun _ hc => hc]
    exact (Path.isSafe_iff.mp hsafe).2.2
  refine ⟨_, Confined.trim ?_, rfl⟩
  rw [String.toList_append, String.toList_append, List.append_assoc]
  change Confined ((normalize path).toList ++ '\\' :: rest.toList)
  refine ⟨fun c hc => hpath.anchored c ?_, by simp [hpath.driveless, hdrive], ?_⟩
  · obtain ⟨d, tail, htarget⟩ :=
      List.exists_cons_of_ne_nil fun hnil => hne (String.toList_eq_nil_iff.mp hnil)
    rw [htarget] at hc ⊢
    exact hc
  · rw [splitAt_append_cons (by decide), List.dropLast_append_of_ne_nil (splitAt_ne_nil _ _)]
    intro hmem
    rcases List.mem_append.mp hmem with hmem | hmem
    · exact hnot hmem
    · exact hup (List.dropLast_subset _ hmem)

theorem isRooted_eq_false (h : IsOutput output) : isRooted output.toList = false := by
  obtain ⟨path, hpath, rfl⟩ := h
  exact hpath.normalize.isRooted_eq_false

theorem not_mem_colon (h : IsOutput output) : ':' ∉ output.toList := by
  obtain ⟨path, hpath, rfl⟩ := h
  exact hpath.normalize.driveless

theorem level (h : IsOutput output) : up ∉ (splitAt isSeparator output.toList).dropLast := by
  obtain ⟨path, hpath, rfl⟩ := h
  exact hpath.normalize.level

/-- The last part decides whether an output is safe. -/
theorem isSafe_iff (h : IsOutput output) :
    isSafe output = true ↔ trimEnd (fileName output).toList ≠ up := by
  obtain ⟨path, hpath, rfl⟩ := h
  have hconfined := hpath.normalize
  have hname : ∀ c ∈ (fileName (normalize path)).toList, isSeparator c = false := by
    intro c hc
    rcases of_mem_normalize ((isTail_fileName _).subset hc) with rfl | ⟨hsep, -⟩
    · exact absurd hc (not_mem_fileName _)
    · exact hsep
  have hlast : splitAt isSeparator (trimEnd (fileName (normalize path)).toList) =
      [trimEnd (fileName (normalize path)).toList] := by
    obtain ⟨bs, hbs, -⟩ := exists_trimEnd (fileName (normalize path)).toList
    refine splitAt_eq_singleton fun c hc => hname c ?_
    rw [hbs]
    exact List.mem_append_left bs hc
  have hup : up ∈ splitAt isSeparator (trim (normalize path).toList) ↔
      trimEnd (fileName (normalize path)).toList = up := by
    rw [trim, hconfined.trimStart_eq]
    rcases isTail_fileName (normalize path) with heq | ⟨dir, hdir⟩
    · rw [← heq, hlast, List.mem_singleton, eq_comm]
    · have hlevel := hconfined.level
      rw [hdir, splitAt_append_cons (by decide), splitAt_eq_singleton hname,
        List.dropLast_concat] at hlevel
      rw [hdir, trimEnd_append_cons (by decide), splitAt_append_cons (by decide), hlast]
      simp only [List.mem_append, hlevel, List.mem_singleton, false_or]
      exact eq_comm
  rw [Path.isSafe_iff, hup]
  constructor
  · exact fun hsafe => hsafe.2.2
  · exact fun hne => ⟨hconfined.trim.isRooted_eq_false, hconfined.trim.driveless, hne⟩

end IsOutput

end InstallScript.Path
