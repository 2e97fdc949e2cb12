import InstallScript.Proofs.Path.Joined
import InstallScript.Proofs.Path.Names
import InstallScript.Proofs.Script.Vocabulary

/-!
The components of a canonical path, which are what its backslashes divide. A path lies in a folder
exactly if its components start with those of the folder, up to the case of ASCII letters, and go on
behind them.
-/

namespace InstallScript

namespace Text

variable {sep : Char → Bool}

/-- A change of characters that keeps separators apart from all others goes through the pieces. -/
theorem splitAt_map {f : Char → Char} (hf : ∀ c, sep (f c) = sep c) (cs : List Char) :
    splitAt sep (cs.map f) = (splitAt sep cs).map (·.map f) := by
  induction cs with
  | nil => rfl
  | cons c rest ih =>
    rw [List.map_cons, splitAt, hf, ih, splitAt]
    cases sep c with
    | true => rfl
    | false =>
      obtain ⟨piece, pieces, hpieces⟩ := List.exists_cons_of_ne_nil (splitAt_ne_nil sep rest)
      rw [hpieces]
      rfl

theorem length_splitAt_eq_one_iff {cs : List Char} : (splitAt sep cs).length = 1 ↔
    ∀ c ∈ cs, sep c = false := by
  constructor
  · intro h c hc
    refine Bool.eq_false_iff.mpr fun hsep => ?_
    obtain ⟨xs, ys, rfl⟩ := List.append_of_mem hc
    have hxs := List.length_pos_iff.mpr (splitAt_ne_nil sep xs)
    have hys := List.length_pos_iff.mpr (splitAt_ne_nil sep ys)
    rw [splitAt_append_cons hsep, List.length_append] at h
    omega
  · intro h
    rw [splitAt_eq_singleton h]
    rfl

end Text

namespace Path

open Text

/-- The components of a canonical path. -/
def components (path : String) : List (List Char) :=
  splitAt (· == '\\') path.toList

/-- Components as they are compared, without regard to the case of ASCII letters. -/
def componentKeys (names : List (List Char)) : List (List Char) :=
  names.map (·.map Char.toLower)

/-- The components of a path are those of a folder, up to the case of ASCII letters, and then
    `rest`. -/
def Continues (path folder : String) (rest : List (List Char)) : Prop :=
  rest ≠ [] ∧ ∃ front, components path = front ++ rest ∧
    componentKeys front = componentKeys (components folder)

variable {path folder rest : String} {names : List (List Char)}

theorem components_ne_nil (path : String) : components path ≠ [] :=
  splitAt_ne_nil _ _

theorem componentKeys_eq_nil_iff : componentKeys names = [] ↔ names = [] :=
  List.map_eq_nil_iff

theorem joinWith_components (path : String) : joinWith ['\\'] (components path) = path.toList :=
  joinWith_splitAt '\\' path.toList

theorem not_mem_of_mem_components {name : List Char} (h : name ∈ components path) :
    '\\' ∉ name :=
  fun hmem => absurd (of_mem_splitAt h '\\' hmem).1 (by decide)

theorem components_of_joinWith (hne : names ≠ []) (h : ∀ name ∈ names, '\\' ∉ name)
    (hpath : path.toList = joinWith ['\\'] names) : components path = names := by
  rw [components, hpath]
  exact splitAt_joinWith rfl hne fun name hname c hc => beq_eq_false_iff_ne.mpr fun heq =>
    h name hname (heq ▸ hc)

theorem components_join (folder rest : String) :
    components (join folder rest) = components folder ++ components rest := by
  rw [components, toList_join, splitAt_append_cons rfl]
  rfl

theorem length_components_eq_one_iff : (components path).length = 1 ↔ '\\' ∉ path.toList := by
  rw [components, length_splitAt_eq_one_iff]
  constructor
  · exact fun h hmem => absurd (h '\\' hmem) (by decide)
  · exact fun h c hc => beq_eq_false_iff_ne.mpr fun heq => h (heq ▸ hc)

/-- Paths are one up to the case of ASCII letters exactly if their components are. -/
theorem sameName_iff_componentKeys {other : String} :
    sameName path other = true ↔
    componentKeys (components path) = componentKeys (components other) := by
  have hlower : '\\'.toLower = '\\' := rfl
  have hsep : ∀ c : Char, (c.toLower == '\\') = (c == '\\') := fun c => by
    rw [Bool.eq_iff_iff, beq_iff_eq, beq_iff_eq, toLower_eq_iff (by decide)]
  rw [sameName_iff, nameKey, nameKey]
  constructor
  · intro h
    rw [componentKeys, components, ← splitAt_map hsep, h, splitAt_map hsep]
    rfl
  · intro h
    rw [← joinWith_components path, ← joinWith_components other, map_joinWith, map_joinWith]
    exact congrArg (joinWith _) h

/-- Cutting the components of a path in two cuts the path at a backslash. -/
theorem exists_join_of_components {front back : List (List Char)}
    (hpath : components path = front ++ back) (hfront : front ≠ []) (hback : back ≠ []) :
    ∃ dir rest, path = join dir rest ∧ components dir = front ∧ components rest = back := by
  have hnone : ∀ name ∈ front ++ back, '\\' ∉ name :=
    fun name hname => not_mem_of_mem_components (hpath ▸ hname : name ∈ components path)
  obtain ⟨hnof, hnob⟩ := List.forall_mem_append.mp hnone
  refine ⟨String.ofList (joinWith ['\\'] front), String.ofList (joinWith ['\\'] back), ?_,
    components_of_joinWith hfront hnof String.toList_ofList,
      components_of_joinWith hback hnob String.toList_ofList⟩
  rw [← String.toList_inj, toList_join, ← joinWith_components, hpath,
    joinWith_append hfront hback, String.toList_ofList, String.toList_ofList]
  rfl

/-- What is left of a path below a folder are the components that come behind those of the
    folder. -/
theorem stripFolder_eq_some_iff_continues (hpath : [] ∉ components path)
    (hfolder : normalize folder ≠ "") :
    stripFolder path folder = some rest ↔
    Continues path (normalize folder) (components rest) := by
  rw [stripFolder_eq_some_iff hfolder]
  constructor
  · rintro ⟨-, dir, hcut, hsame⟩
    rw [← toList_join, String.toList_inj] at hcut
    subst hcut
    exact ⟨components_ne_nil rest, components dir, components_join dir rest,
      sameName_iff_componentKeys.mp hsame⟩
  · rintro ⟨hne, front, hcut, hkeys⟩
    have hfront : front ≠ [] := by
      rintro rfl
      exact components_ne_nil _ (componentKeys_eq_nil_iff.mp hkeys.symm)
    obtain ⟨dir, tail, hjoin, hdir, htail⟩ := exists_join_of_components hcut hfront hne
    have heq : tail = rest := by
      rw [← String.toList_inj, ← joinWith_components tail, htail, joinWith_components]
    refine ⟨?_, dir, ?_, ?_⟩
    · rintro rfl
      rw [hcut] at hpath
      exact hpath (List.mem_append_right front (List.mem_singleton.mpr rfl))
    · rw [hjoin, toList_join, heq]
    · rw [sameName_iff_componentKeys, hdir]
      exact hkeys

end Path

end InstallScript
