import InstallScript.Proofs.Package.Below
import InstallScript.Proofs.Package.Folders
import InstallScript.Proofs.Path.Components
import Mathlib.Data.List.Infix

/-!
Which folders files lie in. Whether a file lies in a folder is read off the components of the two
paths, and the folders of a package are the starts of its names that end between two components.
-/

namespace InstallScript

open Text (joinWith lower sameName splitAt)
open InstallScript.Path (Continues components normalize stripFolder)

section Continues

variable {e : Entry} {path folder r : String} {rest : List (List Char)} {recurse : Bool}

theorem Path.Continues.components_joinWith (h : Continues path folder rest) :
    components (String.ofList (joinWith ['\\'] rest)) = rest := by
  obtain ⟨hne, front, hpath, -⟩ := h
  refine Path.components_of_joinWith hne (fun name hname => ?_) String.toList_ofList
  exact Path.not_mem_of_mem_components (hpath ▸ List.mem_append_right front hname :
    name ∈ components path)

theorem Path.stripFolder_eq_some_iff_rest (hpath : [] ∉ components path)
    (hfolder : normalize folder ≠ "") :
    stripFolder path folder = some r ↔
      ∃ rest, Continues path (normalize folder) rest ∧
        r = String.ofList (joinWith ['\\'] rest) := by
  rw [stripFolder_eq_some_iff_continues hpath hfolder]
  constructor
  · intro h
    exact ⟨components r, h, by rw [joinWith_components, String.ofList_toList]⟩
  · rintro ⟨rest, h, rfl⟩
    rw [h.components_joinWith]
    exact h

theorem Entry.isInFolder_iff_rest (hname : [] ∉ components e.name)
    (hfolder : normalize folder ≠ "") :
    e.isInFolder folder recurse = true ↔
      ∃ rest, Continues e.name (normalize folder) rest ∧
        (recurse = false → rest.length = 1) := by
  rw [Entry.isInFolder_iff]
  simp only [Entry.liesBelow_iff, Path.stripFolder_eq_some_iff_rest hname hfolder]
  have hdirect : ∀ {rest : List (List Char)}, Continues e.name (normalize folder) rest →
      (rest.length = 1 ↔ '\\' ∉ (String.ofList (joinWith ['\\'] rest)).toList) := by
    intro rest h
    rw [← Path.length_components_eq_one_iff, h.components_joinWith]
  constructor
  · rintro ⟨_, ⟨rest, h, rfl⟩, hdepth⟩
    refine ⟨rest, h, fun hrecurse => ?_⟩
    rw [hrecurse] at hdepth
    exact (hdirect h).mpr (hdepth.resolve_left Bool.false_ne_true)
  · rintro ⟨rest, h, hdepth⟩
    refine ⟨_, ⟨rest, h, rfl⟩, ?_⟩
    cases recurse with
    | true => exact .inl rfl
    | false => exact .inr ((hdirect h).mp (hdepth rfl))

/-- The empty folder holds every file at some depth. -/
theorem Entry.isInFolder_iff_of_empty (hfolder : normalize folder = "") :
    e.isInFolder folder recurse = true ↔ recurse = true ∨ '\\' ∉ e.name.toList := by
  rw [Entry.isInFolder_iff]
  simp only [Entry.liesBelow_iff, Path.stripFolder_of_empty hfolder, Option.some.injEq]
  constructor
  · rintro ⟨_, rfl, h⟩
    exact h
  · exact fun h => ⟨e.name, rfl, h⟩

end Continues

section Starts

variable {α : Type} {front xs : List α} {x : α}

/-- The starts of a list that are neither empty nor the whole of it, the shortest first. -/
def starts (xs : List α) : List (List α) :=
  xs.inits.tail.dropLast

theorem starts_cons (x : α) (xs : List α) :
    starts (x :: xs) = xs.inits.dropLast.map (x :: ·) := by
  rw [starts, List.inits_cons, List.tail_cons, List.map_dropLast]

theorem dropLast_inits (h : xs ≠ []) : xs.inits.dropLast = [] :: starts xs := by
  obtain ⟨x, rest, rfl⟩ := List.exists_cons_of_ne_nil h
  rw [starts, List.inits_cons, List.tail_cons]
  refine List.dropLast_cons_of_ne_nil fun hnil => ?_
  have hmem := (List.mem_inits [] rest).mpr List.nil_prefix
  rw [List.map_eq_nil_iff.mp hnil] at hmem
  cases hmem

theorem ne_nil_of_mem_starts (h : front ∈ starts xs) : front ≠ [] := by
  cases xs with
  | nil => cases h
  | cons x rest =>
    rw [starts_cons] at h
    obtain ⟨_, -, rfl⟩ := List.mem_map.mp h
    exact List.cons_ne_nil _ _

theorem mem_starts_iff : front ∈ starts xs ↔ ∃ back, xs = front ++ back ∧ front ≠ [] ∧
    back ≠ [] := by
  induction xs generalizing front with
  | nil => simp [starts]
  | cons x rest ih =>
    by_cases hrest : rest = []
    · subst hrest
      simp only [starts_cons, List.inits, List.dropLast_singleton, List.map_nil,
        List.not_mem_nil, false_iff]
      rintro ⟨back, happend, hfront, hback⟩
      cases front with
      | nil => exact hfront rfl
      | cons _ front =>
        cases front <;> cases happend
        exact hback rfl
    · rw [starts_cons, dropLast_inits hrest, List.map_cons, List.mem_cons, List.mem_map]
      constructor
      · rintro (rfl | ⟨inner, hinner, rfl⟩)
        · exact ⟨rest, rfl, List.cons_ne_nil _ _, hrest⟩
        · obtain ⟨back, rfl, -, hback⟩ := ih.mp hinner
          exact ⟨back, rfl, List.cons_ne_nil _ _, hback⟩
      · rintro ⟨back, happend, hfront, hback⟩
        cases front with
        | nil => exact absurd rfl hfront
        | cons _ inner =>
          cases happend
          by_cases hinner : inner = []
          · exact .inl (by rw [hinner])
          · exact .inr ⟨inner, ih.mpr ⟨back, rfl, hinner, hback⟩, rfl⟩

end Starts

namespace FileSet

variable {files : FileSet} {kind : FileKind} {path folder : String}

/-- The folders that a path lies in, outermost first. -/
def folderPrefixes (path : String) : List String :=
  (starts (components path)).map fun names => String.ofList (joinWith ['\\'] names)

/-- The folders that files of one kind lie in, in the order and the spellings in which they are
    met. -/
def met (files : FileSet) (kind : FileKind) : List String :=
  (files.entries kind).flatMap fun e => folderPrefixes e.name

theorem mem_met_iff : folder ∈ files.met kind ↔
    ∃ e ∈ files.entries kind, ∃ front back, components e.name = front ++ back ∧
      front ≠ [] ∧ back ≠ [] ∧
      folder = String.ofList (joinWith ['\\'] front) := by
  simp only [met, folderPrefixes, List.mem_flatMap, List.mem_map, mem_starts_iff]
  constructor
  · rintro ⟨e, he, front, ⟨back, hcut, hfront, hback⟩, rfl⟩
    exact ⟨e, he, front, back, hcut, hfront, hback, rfl⟩
  · rintro ⟨e, he, front, back, hcut, hfront, hback, rfl⟩
    exact ⟨e, he, front, ⟨back, hcut, hfront, hback⟩, rfl⟩

/-- A folder ends before each backslash, which is behind each component but the last. -/
theorem go_eq_map_starts (seen path : List Char) : foldersAbove.go seen path =
    (starts (splitAt (· == '\\') path)).map fun names =>
      seen.reverse ++ joinWith ['\\'] names := by
  induction path generalizing seen with
  | nil => rfl
  | cons c rest ih =>
    obtain ⟨piece, pieces, hpieces⟩ :=
      List.exists_cons_of_ne_nil (Text.splitAt_ne_nil (· == '\\') rest)
    rw [foldersAbove.go, ih]
    split
    · rename_i hc
      subst hc
      have hcut : splitAt (· == '\\') ('\\' :: rest) = [] :: splitAt (· == '\\') rest := rfl
      rw [hcut, starts_cons, dropLast_inits (Text.splitAt_ne_nil _ _), List.map_cons,
        List.map_cons, List.map_map]
      refine congrArg₂ _ (by simp [joinWith]) (List.map_congr_left fun names hnames => ?_)
      simp [Text.joinWith_cons (ne_nil_of_mem_starts hnames)]
    · rename_i hc
      have hsep : (c == '\\') = false := beq_eq_false_iff_ne.mpr hc
      have hcut : splitAt (· == '\\') (c :: rest) = (c :: piece) :: pieces := by
        rw [splitAt, hpieces, hsep]
      rw [hcut, hpieces, starts_cons, starts_cons, List.map_map, List.map_map]
      refine List.map_congr_left fun names _ => ?_
      cases names <;> simp [joinWith]

theorem met_eq (files : FileSet) (kind : FileKind) : files.met kind =
    (files.entries kind).flatMap fun e => (foldersAbove e.name.toList).map String.ofList := by
  have habove : ∀ path : String, (foldersAbove path.toList).map String.ofList =
      folderPrefixes path := by
    intro path
    rw [foldersAbove, go_eq_map_starts, List.map_map]
    rfl
  simp only [met, habove]

theorem folders_perm (files : FileSet) (kind : FileKind) :
    (files.folders kind).Perm ((files.met kind).foldl addFolder []) := by
  rw [met_eq]
  exact sortByLower_perm _

/-- The folders of a package are those that its files lie in, each in the spelling that is met
    first. -/
theorem mem_folders_iff : folder ∈ files.folders kind ↔ ∃ before after,
    files.met kind = before ++ folder :: after ∧
    ∀ other ∈ before, sameName other folder = false := by
  rw [(files.folders_perm kind).mem_iff, mem_foldl_addFolder_iff]
  simp

theorem exists_folder_iff : (∃ known ∈ files.folders kind, sameName known folder = true) ↔
    ∃ other ∈ files.met kind, sameName other folder = true := by
  constructor
  · rintro ⟨known, hknown, hsame⟩
    obtain ⟨before, after, hmet, -⟩ := mem_folders_iff.mp hknown
    exact ⟨known, by simp [hmet], hsame⟩
  · rintro ⟨other, hother, hsame⟩
    obtain ⟨first, hfirst⟩ :
        ∃ first, (files.met kind).find? (sameName · folder) = some first :=
      Option.isSome_iff_exists.mp (List.find?_isSome.mpr ⟨other, hother, hsame⟩)
    obtain ⟨hkey, before, after, hmet, hnone⟩ := List.find?_eq_some_iff_append.mp hfirst
    refine ⟨first, mem_folders_iff.mpr ⟨before, after, hmet, fun name hname => ?_⟩, hkey⟩
    have hdiffer : sameName name folder = false := by simpa using hnone name hname
    rw [sameName_eq_false_iff] at hdiffer ⊢
    rw [Text.sameName_iff.mp hkey]
    exact hdiffer

theorem pairwise_folders (files : FileSet) (kind : FileKind) :
    (files.folders kind).Pairwise fun a b => sameName a b = false := by
  have hsymm : ∀ {a b : String}, sameName a b = false → sameName b a = false := by
    intro a b h
    rw [Text.sameName_comm, h]
  exact ((files.folders_perm kind).pairwise_iff hsymm).mpr
    (pairwise_foldl_addFolder List.Pairwise.nil)

end FileSet

/-- A file lies in a folder exactly if its components are those of the folder, up to the case of
    ASCII letters, and at least one more, or exactly one more if only what is directly in the folder
    counts. What is left of its name there are these components. Every file lies in the empty
    folder, and those without a separator lie directly in it. The folders of a package are the
    starts of its names that end between two components, each once up to the case of ASCII letters
    and in the spelling that is met first, in the order of their lower-case forms. -/
theorem lies_componentwise :
    (∀ (path folder : String) (crc : UInt32) (length offset : UInt64) (e : Entry),
      e = Entry.ofPath path crc length offset → e.name ≠ "" →
        (normalize folder ≠ "" →
          (∀ recurse, e.isInFolder folder recurse = true ↔
            ∃ rest, Continues e.name (normalize folder) rest ∧
              (recurse = false → rest.length = 1)) ∧
          ∀ r, stripFolder e.name folder = some r ↔
            ∃ rest, Continues e.name (normalize folder) rest ∧
              r = String.ofList (joinWith ['\\'] rest)) ∧
        (normalize folder = "" →
          e.isInFolder folder true = true ∧
          (e.isInFolder folder false = true ↔ '\\' ∉ e.name.toList) ∧
            stripFolder e.name folder = some e.name)) ∧
    ∀ (files : FileSet) (kind : FileKind),
      (files.folders kind).Pairwise (fun a b => lower a ≤ lower b) ∧
      (files.folders kind).Pairwise (fun a b => sameName a b = false) ∧
      (∀ folder, folder ∈ files.folders kind ↔
        ∃ before after, files.met kind = before ++ folder :: after ∧
        ∀ other ∈ before, sameName other folder = false) ∧
      ∀ folder, (∃ known ∈ files.folders kind, sameName known folder = true) ↔
        ∃ e ∈ files.entries kind, ∃ front back, components e.name = front ++ back ∧
          front ≠ [] ∧ back ≠ [] ∧
          sameName (String.ofList (joinWith ['\\'] front)) folder = true := by
  refine ⟨fun path folder crc length offset e he hname =>
    ⟨fun hfolder => ?_, fun hfolder => ?_⟩, fun files kind => ?_⟩
  · have hcomponents : [] ∉ components e.name := by
      rw [he] at hname ⊢
      exact (Path.Divided.normalize hname).noGap
    exact ⟨fun recurse => Entry.isInFolder_iff_rest hcomponents hfolder,
      fun r => Path.stripFolder_eq_some_iff_rest hcomponents hfolder⟩
  · refine ⟨(Entry.isInFolder_iff_of_empty hfolder).mpr (.inl rfl), ?_,
      Path.stripFolder_of_empty hfolder e.name⟩
    simp [Entry.isInFolder_iff_of_empty hfolder]
  · refine ⟨pairwise_sortByLower _, files.pairwise_folders kind,
      fun _ => FileSet.mem_folders_iff, fun folder => ?_⟩
    rw [FileSet.exists_folder_iff]
    simp only [FileSet.mem_met_iff]
    constructor
    · rintro ⟨_, ⟨e, he, front, back, hcut, hfront, hback, rfl⟩, hsame⟩
      exact ⟨e, he, front, back, hcut, hfront, hback, hsame⟩
    · rintro ⟨e, he, front, back, hcut, hfront, hback, hsame⟩
      exact ⟨_, ⟨e, he, front, back, hcut, hfront, hback, rfl⟩, hsame⟩

/-- A folder that is spelled with other letters and separators holds the file. -/
theorem lies_in_respelled_folder :
    (Entry.ofPath "Meshes/Armor/Iron.nif" 1 2 0).isInFolder "\\meshes//ARMOR" false = true ∧
      stripFolder (Entry.ofPath "Meshes/Armor/Iron.nif" 1 2 0).name "\\meshes//ARMOR" =
        some "Iron.nif" := by
  obtain ⟨hlies, -⟩ :=
    lies_componentwise.1 "Meshes/Armor/Iron.nif" "\\meshes//ARMOR" 1 2 0 _ rfl (by decide +kernel)
  obtain ⟨hinside, hstrip⟩ := hlies (by decide +kernel)
  have hrest : Continues (Entry.ofPath "Meshes/Armor/Iron.nif" 1 2 0).name
      (normalize "\\meshes//ARMOR") ["Iron.nif".toList] :=
    ⟨by decide, ["Meshes".toList, "Armor".toList], by decide +kernel, by decide +kernel⟩
  exact ⟨(hinside false).mpr ⟨_, hrest, fun _ => rfl⟩,
    (hstrip _).mpr ⟨_, hrest, by decide +kernel⟩⟩

end InstallScript
