import InstallScript.Disk.Scan

/-!
Folder trees. What is found below a folder is what names lead to from there, each once, if no folder
has two children of one name; and a folder in which no folder is empty has files wherever it has
anything.
-/

namespace InstallScript

/-- Something found, seen from the folder above. -/
def Found.under (name : String) (f : Found) : Found :=
  { f with names := name :: f.names }

namespace Node

/-- What names lead to from a node. -/
def get? : Node → List String → Option Node
  | node, [] => some node
  | .folder children, name :: rest => (children.lookup name).bind fun child => child.get? rest
  | .file _, _ :: _ => none

theorem get?_append (node : Node) (above below : List String) :
    node.get? (above ++ below) = (node.get? above).bind (·.get? below) := by
  induction above generalizing node with
  | nil => simp [get?]
  | cons name rest ih =>
    cases node with
    | file content => rfl
    | folder children =>
      simp only [List.cons_append, get?]
      cases children.lookup name with
      | none => rfl
      | some child => exact ih child

/-- A child of a folder and everything below it. -/
def withinChild (child : String × Node) : List Found :=
  ⟨[child.1], child.2⟩ :: child.2.descendants.map (Found.under child.1)

theorem branches_eq_map (children : List (String × Node)) :
    branches children = children.map fun child => (child.1, withinChild child) := by
  induction children with
  | nil => simp [branches]
  | cons child rest ih =>
    obtain ⟨name, node⟩ := child
    rw [branches, ih]
    rfl

/-- Everything below a folder is what is within its children, in some order. -/
theorem descendants_perm (children : List (String × Node)) :
    (folder children).descendants.Perm (children.flatMap withinChild) := by
  have hsorted := (branches children).mergeSort_perm fun a b => !decide (b.1 < a.1)
  have hflat := hsorted.flatMap_right Prod.snd
  rw [branches_eq_map, List.flatMap_map] at hflat
  rw [descendants, branches_eq_map]
  exact hflat

theorem mem_descendants_folder {children : List (String × Node)} {f : Found} :
    f ∈ (folder children).descendants ↔ ∃ child ∈ children, f ∈ withinChild child := by
  rw [(descendants_perm children).mem_iff, List.mem_flatMap]

theorem mem_withinChild {child : String × Node} {f : Found} :
    f ∈ withinChild child ↔
      f = ⟨[child.1], child.2⟩ ∨
      ∃ g ∈ child.2.descendants, f = ⟨child.1 :: g.names, g.node⟩ := by
  rw [withinChild, List.mem_cons, List.mem_map]
  refine or_congr Iff.rfl (exists_congr fun g => and_congr_right fun _ => ?_)
  exact eq_comm

/-- Whether the names that lead to what is below a node are different for each. -/
def Distinct (node : Node) : Prop :=
  (node.descendants.map Found.names).Nodup

/-- If what is below a folder has different names, so have its children and what is below each of
    them. -/
theorem Distinct.of_folder {children : List (String × Node)} (h : (folder children).Distinct) :
    (children.map Prod.fst).Nodup ∧ ∀ child ∈ children, child.2.Distinct := by
  have hperm := (descendants_perm children).map Found.names
  rw [List.map_flatMap] at hperm
  obtain ⟨hwithin, hacross⟩ := List.pairwise_flatMap.mp (hperm.nodup_iff.mp h)
  constructor
  · refine List.pairwise_map.mpr (hacross.imp fun {a b} hab hsame => ?_)
    exact hab [a.1] (by simp [withinChild]) [b.1] (by simp [withinChild]) (by rw [hsame])
  · intro child hchild
    have hinner := (List.pairwise_cons.mp (hwithin child hchild)).2
    rw [List.map_map] at hinner
    rw [Distinct]
    refine List.pairwise_map.mpr ((List.pairwise_map.mp hinner).imp fun {f g} hfg hsame => hfg ?_)
    simp [Found.under, hsame]

/-- The child of a folder under a name is the only one of that name. -/
theorem Distinct.lookup_eq {children : List (String × Node)} (h : (folder children).Distinct)
    {child : String × Node} (hchild : child ∈ children) :
    children.lookup child.1 = some child.2 := by
  have hnodup := h.of_folder.1
  clear h
  induction children with
  | nil => cases hchild
  | cons first rest ih =>
    obtain ⟨name, node⟩ := first
    rw [List.map_cons, List.nodup_cons] at hnodup
    rcases List.mem_cons.mp hchild with rfl | hrest
    · exact List.lookup_cons_self
    · have hne : child.1 ≠ name := by
        rintro rfl
        exact hnodup.1 (List.mem_map.mpr ⟨child, hrest, rfl⟩)
      rw [List.lookup_cons, beq_false_of_ne hne]
      exact ih hrest hnodup.2

theorem mem_of_lookup {children : List (String × Node)} {name : String} {child : Node}
    (h : children.lookup name = some child) : (name, child) ∈ children := by
  obtain ⟨front, back, rfl, -⟩ := List.lookup_eq_some_iff.mp h
  simp

/-- What is found below a node is what names lead to from it. -/
theorem Distinct.mem_descendants_iff {node found : Node} (h : node.Distinct) {names : List String} :
    ⟨names, found⟩ ∈ node.descendants ↔ names ≠ [] ∧ node.get? names = some found := by
  induction names generalizing node with
  | nil =>
    cases node with
    | file content => simp [descendants]
    | folder children =>
      rw [mem_descendants_folder]
      simp [mem_withinChild]
  | cons name rest ih =>
    cases node with
    | file content => simp [descendants, get?]
    | folder children =>
      -- The child is either what is found itself, or the names after the first lead to it from
      -- there.
      have hbelow : ∀ child : Node, (name, child) ∈ children →
          (⟨name :: rest, found⟩ ∈ withinChild (name, child) ↔
              child.get? rest = some found) := by
        intro child hchild
        have hrest : ⟨rest, found⟩ ∈ child.descendants ↔ rest ≠ [] ∧
            child.get? rest = some found :=
          ih (h.of_folder.2 (name, child) hchild)
        rw [mem_withinChild]
        constructor
        · rintro (heq | ⟨⟨names, below⟩, hg, heq⟩)
          · cases heq
            rfl
          · cases heq
            exact (hrest.mp hg).2
        · intro hget
          cases rest with
          | nil =>
            cases hget
            exact .inl rfl
          | cons next rest =>
            exact .inr ⟨⟨next :: rest, found⟩,
              hrest.mpr ⟨List.cons_ne_nil next rest, hget⟩, rfl⟩
      rw [mem_descendants_folder]
      constructor
      · rintro ⟨⟨other, child⟩, hchild, hmem⟩
        have hname : name = other := by
          rcases mem_withinChild.mp hmem with heq | ⟨g, -, heq⟩
          · cases heq
            rfl
          · cases heq
            rfl
        subst hname
        refine ⟨List.cons_ne_nil name rest, ?_⟩
        have hlookup : children.lookup name = some child := h.lookup_eq hchild
        rw [get?, hlookup]
        exact (hbelow child hchild).mp hmem
      · rintro ⟨-, hget⟩
        rw [get?] at hget
        obtain ⟨child, hlookup, hrest⟩ := Option.bind_eq_some_iff.mp hget
        have hchild := mem_of_lookup hlookup
        exact ⟨(name, child), hchild, (hbelow child hchild).mpr hrest⟩

/-- Names stay different further down. -/
protected theorem Distinct.get? {node below : Node} (h : node.Distinct) {names : List String}
    (hget : node.get? names = some below) : below.Distinct := by
  induction names generalizing node with
  | nil =>
    cases hget
    exact h
  | cons name rest ih =>
    cases node with
    | file content => cases hget
    | folder children =>
      rw [Node.get?] at hget
      obtain ⟨child, hlookup, hrest⟩ := Option.bind_eq_some_iff.mp hget
      exact ih (h.of_folder.2 (name, child) (mem_of_lookup hlookup)) hrest

/-- Only below a folder do names lead on. -/
theorem isFolder_of_get? {node found : Node} {names : List String} (hne : names ≠ [])
    (h : node.get? names = some found) : node.isFolder = true := by
  obtain ⟨name, rest, rfl⟩ := List.exists_cons_of_ne_nil hne
  cases node with
  | file content => cases h
  | folder children => rfl

/-- What is below something that is found is found below it. -/
theorem Distinct.mem_descendants_append {node inner found : Node} (h : node.Distinct)
    {above below : List String} (hinner : node.get? above = some inner) :
    ⟨below, found⟩ ∈ inner.descendants ↔
      below ≠ [] ∧ ⟨above ++ below, found⟩ ∈ node.descendants := by
  rw [(h.get? hinner).mem_descendants_iff, h.mem_descendants_iff, get?_append, hinner,
    Option.bind_some]
  refine and_congr_right fun hne => ?_
  simp [hne]

/-- If nothing below a folder is an empty folder, and it is none itself, then there is a file in
    it. -/
theorem exists_file (node : Node) (hfolder : node.isFolder = true) (hne : node ≠ emptyFolder)
    (h : ∀ f ∈ node.descendants, f.node ≠ emptyFolder) :
    ∃ f ∈ node.descendants, f.node.isFolder = false := by
  match node with
  | .folder [] => exact absurd rfl hne
  | .folder ((name, child) :: rest) =>
    have hchild : ∀ f ∈ withinChild (name, child),
        f ∈ (folder ((name, child) :: rest)).descendants :=
      fun f hf => mem_descendants_folder.mpr ⟨(name, child), List.mem_cons_self, hf⟩
    cases hkind : child.isFolder with
    | false => exact ⟨⟨[name], child⟩, hchild _ (mem_withinChild.mpr (.inl rfl)), hkind⟩
    | true =>
      have hbelow : ∀ g ∈ child.descendants, ⟨name :: g.names, g.node⟩ ∈
          withinChild (name, child) :=
        fun g hg => mem_withinChild.mpr (.inr ⟨g, hg, rfl⟩)
      have hinner : ∀ g ∈ child.descendants, g.node ≠ emptyFolder :=
        fun g hg => h ⟨name :: g.names, g.node⟩ (hchild _ (hbelow g hg))
      have hchildNe : child ≠ emptyFolder :=
        h ⟨[name], child⟩ (hchild _ (mem_withinChild.mpr (.inl rfl)))
      obtain ⟨g, hg, hfile⟩ := exists_file child hkind hchildNe hinner
      exact ⟨⟨name :: g.names, g.node⟩, hchild _ (hbelow g hg), hfile⟩

end Node

end InstallScript
