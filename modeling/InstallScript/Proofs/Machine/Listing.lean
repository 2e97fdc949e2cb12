import InstallScript.Machine.Loop
import InstallScript.Proofs.Disk.Extracted
import InstallScript.Proofs.Text.Lower

/-!
The two listings that loops walk over. For a package that was read from an orderly folder, listing
the package and listing the disk give the same paths, so a dry run walks over the same sequence as
any other run.
-/

namespace InstallScript

open Text
open Script (Enumeration LoopHeader)

namespace Node

/-- Whether a folder written in a script has the spelling of the folder it means, wherever it means
    one. -/
def Spells (node : Node) (folder : String) : Prop :=
  ∀ f ∈ node.descendants, f.node.isFolder = true →
    sameName f.path (Path.normalize folder) = true →
    f.path = Path.normalize folder

instance (node : Node) (folder : String) : Decidable (node.Spells folder) :=
  inferInstanceAs (Decidable (∀ f ∈ node.descendants, f.node.isFolder = true →
    sameName f.path (Path.normalize folder) = true → f.path = Path.normalize folder))

/-- The paths below a node of one sort, folders or files. -/
def pathsOf (node : Node) (folders : Bool) : List String :=
  (node.descendants.filter (·.node.isFolder == folders)).map Found.path

variable {node : Node} {path : String} {folders : Bool}

theorem mem_pathsOf : path ∈ node.pathsOf folders ↔
    ∃ names found, ⟨names, found⟩ ∈ node.descendants ∧ found.isFolder = folders ∧
      path = Path.ofNames names := by
  simp only [pathsOf, List.mem_map, List.mem_filter, beq_iff_eq]
  constructor
  · rintro ⟨⟨names, found⟩, ⟨hmem, hsort⟩, rfl⟩
    exact ⟨names, found, hmem, hsort, rfl⟩
  · rintro ⟨names, found, hmem, hsort, rfl⟩
    exact ⟨⟨names, found⟩, ⟨hmem, hsort⟩, rfl⟩

theorem pathsOf_sublist (node : Node) (folders : Bool) :
    (node.pathsOf folders).Sublist (node.descendants.map Found.path) :=
  List.filter_sublist.map Found.path

/-- In an orderly folder, the folders are those that files lie in. -/
theorem Orderly.mem_folders_iff (h : node.Orderly) : path ∈ node.pathsOf true ↔
    ∃ file ∈ node.pathsOf false, ∃ rest, file.toList = path.toList ++ '\\' :: rest := by
  simp only [mem_pathsOf]
  constructor
  · rintro ⟨above, inner, hinner, hfolder, rfl⟩
    have hget := (h.distinct.mem_descendants_iff.mp hinner).2
    have hbelow : ∀ f ∈ inner.descendants, f.names ≠ [] ∧
        ⟨above ++ f.names, f.node⟩ ∈ node.descendants :=
      fun f hf => (h.distinct.mem_descendants_append hget).mp hf
    have hinhabited : ∀ f ∈ inner.descendants, f.node ≠ emptyFolder :=
      fun f hf => h.inhabited ⟨above ++ f.names, f.node⟩ (hbelow f hf).2
    obtain ⟨f, hf, hfile⟩ := inner.exists_file hfolder (h.inhabited _ hinner) hinhabited
    obtain ⟨hne, hmem⟩ := hbelow f hf
    refine ⟨_, ⟨_, _, hmem, hfile, rfl⟩, (Path.ofNames f.names).toList, ?_⟩
    refine (Path.toList_ofNames_eq_append_iff (h.isPart hmem)).mpr ⟨above, f.names, rfl, ?_,
      hne, rfl, rfl⟩
    exact (h.distinct.mem_descendants_iff.mp hinner).1
  · rintro ⟨_, ⟨names, file, hmem, -, rfl⟩, rest, hpath⟩
    obtain ⟨above, below, rfl, habove, hbelow, hfolder, -⟩ :=
      (Path.toList_ofNames_eq_append_iff (h.isPart hmem)).mp hpath
    have hget := (h.distinct.mem_descendants_iff.mp hmem).2
    rw [get?_append] at hget
    obtain ⟨inner, hinner, hrest⟩ := Option.bind_eq_some_iff.mp hget
    refine ⟨above, inner, h.distinct.mem_descendants_iff.mpr ⟨habove, hinner⟩, ?_,
      String.toList_inj.mp hfolder⟩
    exact isFolder_of_get? hbelow hrest

end Node

/-- Whether the files of a package are those below a node. -/
def FileSet.ReadFrom (files : FileSet) (kind : FileKind) (node : Node) : Prop :=
  (files.entries kind).map Entry.name = node.pathsOf false

/-- The folders of a package are those of the folder that it was read from. -/
theorem FileSet.ReadFrom.folders_perm {files : FileSet} {kind : FileKind} {node : Node}
    (hfiles : files.ReadFrom kind node) (h : node.Orderly) :
    (files.folders kind).Perm (node.pathsOf true) := by
  let all := (files.entries kind).flatMap fun e => (foldersAbove e.name.toList).map String.ofList
  have hall : ∀ path, path ∈ all ↔ path ∈ node.pathsOf true := by
    intro path
    rw [h.mem_folders_iff, ← hfiles]
    simp only [all, List.mem_flatMap, List.mem_map, mem_foldersAbove_iff, exists_exists_and_eq_and]
    constructor
    · rintro ⟨e, he, dir, ⟨rest, hrest⟩, rfl⟩
      exact ⟨e, he, rest, by rwa [String.toList_ofList]⟩
    · rintro ⟨e, he, rest, hrest⟩
      exact ⟨e, he, path.toList, ⟨rest, hrest⟩, String.ofList_toList⟩
  have hsame : ∀ a ∈ all, ∀ b ∈ all, sameName a b = true → a = b := by
    intro a ha b hb hab
    have hsub := (node.pathsOf_sublist true).subset
    exact h.lowerDistinct a (hsub ((hall a).mp ha)) b (hsub ((hall b).mp hb))
      (lower_eq_of_sameName hab)
  obtain ⟨hnodup, hmem⟩ := foldl_addFolder hsame
  have hperm : (all.foldl addFolder []).Perm (node.pathsOf true) := by
    refine (List.perm_ext_iff_of_nodup hnodup
      (h.nodup_paths.sublist (node.pathsOf_sublist true))).mpr fun path => ?_
    rw [hmem, hall]
  exact (sortByLower_perm _).trans hperm

namespace Listing

section Listings

variable {node : Node} {folder : String} {recurse folders : Bool}

end Listings

end Listing

end InstallScript
