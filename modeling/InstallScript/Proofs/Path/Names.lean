import InstallScript.Package.Entry
import InstallScript.Proofs.Path.Confined

/-!
Paths that are made of names. If names are such that a path keeps them as they are, then its
canonical form has exactly these names as its parts, and what lies above and below it is read off
the names.
-/

namespace InstallScript

namespace Text

variable {c : Char} {sep : Char → Bool} {pieces : List (List Char)}

/-- Joined pieces are the ones that are not empty when the text is cut again. -/
theorem filter_splitAt_joinWith (hsep : sep c = true) (hne : ∀ piece ∈ pieces, piece ≠ [])
    (h : ∀ piece ∈ pieces, ∀ d ∈ piece, sep d = false) :
    (splitAt sep (joinWith [c] pieces)).filter (!·.isEmpty) = pieces := by
  by_cases hnil : pieces = []
  · subst hnil
    rfl
  · rw [splitAt_joinWith hsep hnil h]
    refine List.filter_eq_self.mpr fun piece hpiece => ?_
    simpa using hne piece hpiece

theorem map_joinWith (f : Char → Char) (sep : List Char) (pieces : List (List Char)) :
    (joinWith sep pieces).map f = joinWith (sep.map f) (pieces.map (·.map f)) := by
  fun_induction joinWith sep pieces with
  | case1 => rfl
  | case2 piece => rfl
  | case3 piece rest hrest ih =>
    rw [List.map_append, List.map_append, ih, List.map_cons, joinWith_cons (by simpa using hrest)]

end Text

namespace Path

open Text

/-- Whether a path can keep a name as it is: the name is not empty, has no separator, and neither
    starts nor ends with white space. -/
structure IsPart (name : String) : Prop where
  ne_empty : name ≠ ""
  noSeparator : ∀ c ∈ name.toList, isSeparator c = false
  trimmed : trim name.toList = name.toList

/-- The canonical path that names lead along. -/
def ofNames (names : List String) : String :=
  normalize (String.intercalate "/" names)

section Names

variable {names : List String} {folder : String}

theorem of_mem_toList (h : ∀ name ∈ names, IsPart name) {piece : List Char}
    (hpiece : piece ∈ names.map String.toList) :
    piece ≠ [] ∧ (∀ c ∈ piece, isSeparator c = false) ∧ trim piece = piece := by
  obtain ⟨name, hname, rfl⟩ := List.mem_map.mp hpiece
  obtain ⟨hne, hsep, htrim⟩ := h name hname
  exact ⟨fun hnil => hne (String.toList_eq_nil_iff.mp hnil), hsep, htrim⟩

theorem parts_of_joinWith {c : Char} (hsep : isSeparator c = true)
    (h : ∀ name ∈ names, IsPart name) {path : String}
    (hpath : path.toList = joinWith [c] (names.map String.toList)) :
    parts path = names.map String.toList := by
  have hpieces : ∀ piece ∈ names.map String.toList, piece ≠ [] ∧
    (∀ c ∈ piece, isSeparator c = false) ∧
    trim piece = piece := fun piece hpiece => of_mem_toList h hpiece
  rw [parts, hpath, trim_joinWith fun piece hpiece =>
    ⟨(hpieces piece hpiece).1, (hpieces piece hpiece).2.2⟩]
  exact filter_splitAt_joinWith hsep (fun piece hpiece => (hpieces piece hpiece).1)
    fun piece hpiece => (hpieces piece hpiece).2.1

theorem toList_ofNames (h : ∀ name ∈ names, IsPart name) :
    (ofNames names).toList = joinWith ['\\'] (names.map String.toList) := by
  have hparts : parts (String.intercalate "/" names) = names.map String.toList := by
    refine parts_of_joinWith (c := '/') (by decide) h ?_
    rw [String.toList_intercalate, joinWith_eq_intercalate]
    rfl
  rw [ofNames, toList_normalize, hparts]

/-- A backslash in the path of names stands between those above it and those below it. -/
theorem toList_ofNames_eq_append_iff (h : ∀ name ∈ names, IsPart name) {dir rest : List Char} :
    (ofNames names).toList = dir ++ '\\' :: rest ↔ ∃ above below, names = above ++ below ∧
      above ≠ [] ∧ below ≠ [] ∧
      dir = (ofNames above).toList ∧ rest = (ofNames below).toList := by
  constructor
  · intro hpath
    rw [toList_ofNames h] at hpath
    have hne : names.map String.toList ≠ [] := by
      intro hnil
      rw [hnil] at hpath
      cases dir <;> cases hpath
    have hpieces : splitAt (· == '\\') (joinWith ['\\'] (names.map String.toList)) =
        names.map String.toList := by
      refine splitAt_joinWith rfl hne fun piece hpiece c hc => ?_
      have hsep := (of_mem_toList h hpiece).2.1 c hc
      simp only [isSeparator, Bool.or_eq_false_iff] at hsep
      exact hsep.1
    rw [hpath, splitAt_append_cons rfl] at hpieces
    obtain ⟨above, below, hnames, habove, hbelow⟩ := List.map_eq_append_iff.mp hpieces.symm
    subst hnames
    obtain ⟨ha, hb⟩ := List.forall_mem_append.mp h
    refine ⟨above, below, rfl, ?_, ?_, ?_, ?_⟩
    · rintro rfl
      exact splitAt_ne_nil _ _ habove.symm
    · rintro rfl
      exact splitAt_ne_nil _ _ hbelow.symm
    · rw [toList_ofNames ha, habove, joinWith_splitAt]
    · rw [toList_ofNames hb, hbelow, joinWith_splitAt]
  · rintro ⟨above, below, hnames, habove, hbelow, hdir, hrest⟩
    subst hnames
    obtain ⟨ha, hb⟩ := List.forall_mem_append.mp h
    rw [hdir, hrest, toList_ofNames h, toList_ofNames ha, toList_ofNames hb, List.map_append,
      joinWith_append (by simpa using habove) (by simpa using hbelow)]
    rfl

theorem stripFolder_of_empty (hempty : normalize folder = "") (path : String) :
    stripFolder path folder = some path := by
  simp [stripFolder, hempty]

/-- What lies below a folder comes after its path, however that is spelled, and a backslash. -/
theorem stripFolder_eq_some_iff (hne : normalize folder ≠ "") {path rest : String} :
    stripFolder path folder = some rest ↔ rest ≠ "" ∧ ∃ dir : String,
      path.toList = dir.toList ++ '\\' :: rest.toList ∧
      sameName dir (normalize folder) = true := by
  have hinside : (normalize folder).toList.isEmpty = false := by simpa using hne
  unfold stripFolder
  simp only [hinside, Bool.false_eq_true, if_false]
  constructor
  · intro h
    split at h
    · rename_i hhead
      split at h
      · rename_i c tail hdrop
        cases h
        refine ⟨by simp, String.ofList (path.toList.take (normalize folder).toList.length),
          ?_, ?_⟩
        · rw [String.toList_ofList, String.toList_ofList, ← hdrop, List.take_append_drop]
        · rw [sameName_iff, nameKey, nameKey, String.toList_ofList, hhead]
      · cases h
    · cases h
  · rintro ⟨hrest, dir, hpath, hsame⟩
    rw [sameName_iff, nameKey, nameKey] at hsame
    have hlength : (normalize folder).toList.length = dir.toList.length := by
      simpa using (congrArg List.length hsame).symm
    obtain ⟨c, tail, htail⟩ :=
      List.exists_cons_of_ne_nil fun hnil => hrest (String.toList_eq_nil_iff.mp hnil)
    have hresult : String.ofList (c :: tail) = rest := by rw [← htail, String.ofList_toList]
    rw [hpath, hlength, List.take_left, List.drop_left, if_pos hsame, htail]
    exact congrArg some hresult

end Names

end Path

section Folders

/-- The folders above a path end before its backslashes. -/
theorem FileSet.mem_foldersAbove_iff {path dir : List Char} :
    dir ∈ foldersAbove path ↔ ∃ rest, path = dir ++ '\\' :: rest := by
  have hgo : ∀ seen, dir ∈ foldersAbove.go seen path ↔
      ∃ inner rest, path = inner ++ '\\' :: rest ∧ dir = seen.reverse ++ inner := by
    intro seen
    induction path generalizing seen with
    | nil => simp [foldersAbove.go]
    | cons c tail ih =>
      rw [foldersAbove.go]
      split
      · rename_i hc
        subst hc
        rw [List.mem_cons, ih]
        constructor
        · rintro (rfl | ⟨inner, rest, rfl, rfl⟩)
          · exact ⟨[], tail, rfl, by simp⟩
          · exact ⟨'\\' :: inner, rest, rfl, by simp⟩
        · rintro ⟨inner, rest, htail, rfl⟩
          cases inner with
          | nil => exact .inl (by simp)
          | cons d inner =>
            cases htail
            exact .inr ⟨inner, rest, rfl, by simp⟩
      · rename_i hc
        rw [ih]
        constructor
        · rintro ⟨inner, rest, rfl, rfl⟩
          exact ⟨c :: inner, rest, rfl, by simp⟩
        · rintro ⟨inner, rest, htail, rfl⟩
          cases inner with
          | nil =>
            cases htail
            exact absurd rfl hc
          | cons d inner =>
            cases htail
            exact ⟨inner, rest, rfl, by simp⟩
  rw [foldersAbove, hgo]
  simp

end Folders

end InstallScript
