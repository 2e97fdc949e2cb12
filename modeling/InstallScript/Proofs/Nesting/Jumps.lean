import InstallScript.Proofs.Nesting.Linking
import InstallScript.Proofs.Nesting.Placing
import InstallScript.Proofs.Result

/-!
Labels and jumps to them. Labels are found where they are declared, and linking jumps changes
nothing but the links of the jumps.
-/

namespace InstallScript.Script

/-- The label that a statement declares. -/
def Command.label? : Command → Option String
  | .label name => some name
  | _ => none

theorem Command.label?_eq_some_iff {c : Command} {name : String} : c.label? = some name ↔
    c = .label name := by
  cases c <;> simp [label?]

/-- The labels that statements declare, in order. -/
def labelNames (statements : List Statement) : List String :=
  statements.filterMap (·.command.label?)

/-- Whether a `Continue` or `Exit` lies in a loop, and for a `Break` the innermost block around it
    that is no `If` is a case. -/
def Cell.Enclosed (c : Cell) : Prop :=
  match c.statement.command with
  | .continueLoop | .exitLoop => ∃ e ∈ c.path, e.kind = .loop
  | .breakCase => ∃ e, c.path.find? (·.kind ≠ .branch) = some e ∧ e.kind = .arm
  | _ => True

theorem Enclosure.isSome_loop?_iff (path : List Enclosure) :
    (Enclosure.loop? path).isSome ↔ ∃ e ∈ path, e.kind = .loop := by
  simp [Enclosure.loop?, List.find?_isSome]

theorem Enclosure.isSome_arm?_iff (path : List Enclosure) :
    (Enclosure.arm? path).isSome ↔ ∃ e, path.find? (·.kind ≠ .branch) = some e ∧
      e.kind = .arm := by
  unfold Enclosure.arm?
  split
  · rename_i start heq
    exact iff_of_true rfl ⟨_, heq, rfl⟩
  · rename_i hne
    simp only [Option.isSome_none, Bool.false_eq_true, false_iff, not_exists, not_and]
    rintro ⟨kind, start⟩ he rfl
    exact hne start he

namespace Cell

theorem fits_iff (c : Cell) (labels : List (String × Nat)) :
    c.Fits labels ↔ c.Enclosed ∧ ∀ name, c.statement.command.label? = some name →
      labels.lookup name = none := by
  obtain ⟨⟨line, command⟩, path, link⟩ := c
  cases command with
  | continueLoop | exitLoop => simp [Fits, Enclosed, Command.label?, Enclosure.isSome_loop?_iff]
  | breakCase => simp [Fits, Enclosed, Command.label?, Enclosure.isSome_arm?_iff]
  | _ => simp [Fits, Enclosed, Command.label?]

theorem declare_eq (c : Cell) (i : Nat) (labels : List (String × Nat)) :
    c.declare i labels = match c.statement.command.label? with
      | some name => (name, i) :: labels
      | none => labels := by
  obtain ⟨⟨line, command⟩, path, link⟩ := c
  cases command <;> rfl

theorem lookup_declare_eq_none_iff (c : Cell) (i : Nat) (labels : List (String × Nat))
    (name : String) :
    (c.declare i labels).lookup name = none ↔
      c.statement.command.label? ≠ some name ∧ labels.lookup name = none := by
  rw [declare_eq]
  cases c.statement.command.label? with
  | none => simp
  | some other =>
    by_cases hname : name = other
    · simp [hname]
    · have hne : (name == other) = false := by simpa using hname
      simp only [List.lookup_cons, hne, ne_eq, Option.some.injEq, Ne.symm hname,
        not_false_eq_true, true_and]

/-- Statements fit exactly if each has its blocks around it and no label is declared twice. -/
theorem fitAll_iff (i : Nat) (labels : List (String × Nat)) (cells : List Cell) :
    FitAll i labels cells ↔ (∀ c ∈ cells, c.Enclosed) ∧
      (labelNames (cells.map Cell.statement)).Nodup ∧
      ∀ name ∈ labelNames (cells.map Cell.statement), labels.lookup name = none := by
  induction cells generalizing i labels with
  | nil => simp [FitAll, labelNames]
  | cons c rest ih =>
    rw [FitAll, ih, fits_iff]
    simp only [labelNames, lookup_declare_eq_none_iff, List.map_cons, List.filterMap_cons,
      List.forall_mem_cons]
    cases c.statement.command.label? with
    | none => simp [and_assoc]
    | some name =>
      simp only [Option.some.injEq, List.nodup_cons, List.forall_mem_cons]
      grind

theorem lookup_declareAll_eq_none_iff (i : Nat) (labels : List (String × Nat)) (cells : List Cell)
    (name : String) : (declareAll i labels cells).lookup name = none ↔
      name ∉ labelNames (cells.map Cell.statement) ∧ labels.lookup name = none := by
  induction cells generalizing i labels with
  | nil => simp [declareAll, labelNames]
  | cons c rest ih =>
    rw [declareAll, ih, lookup_declare_eq_none_iff]
    simp only [labelNames, List.map_cons, List.filterMap_cons]
    cases c.statement.command.label? with
    | none => simp
    | some other =>
      simp only [ne_eq, Option.some.injEq, List.mem_cons, not_or, eq_comm (a := other)]
      grind

/-- A label is found where it is declared. -/
theorem of_lookup_declareAll {i : Nat} {labels : List (String × Nat)} {cells : List Cell}
    {name : String} {target : Nat} (h : (declareAll i labels cells).lookup name = some target) :
    labels.lookup name = some target ∨
      ∃ k c, cells[k]? = some c ∧ c.statement.command = .label name ∧ target = i + k := by
  induction cells generalizing i labels with
  | nil => exact .inl h
  | cons c rest ih =>
    rcases ih h with hearlier | ⟨k, d, hd, hlabel, rfl⟩
    · rw [declare_eq] at hearlier
      cases hname : c.statement.command.label? with
      | none =>
        simp only [hname] at hearlier
        exact .inl hearlier
      | some other =>
        simp only [hname, List.lookup_cons] at hearlier
        split at hearlier
        · rename_i heq
          obtain rfl : name = other := by simpa using heq
          cases hearlier
          exact .inr ⟨0, c, rfl, Command.label?_eq_some_iff.mp hname, rfl⟩
        · exact .inl hearlier
    · exact .inr ⟨k + 1, d, by simpa using hd, hlabel, by omega⟩

end Cell

/-- Two statements that declare the same label are the same one if no label is declared twice. -/
theorem eq_of_nodup_labelNames {statements : List Statement} (h : (labelNames statements).Nodup)
    {j k : Nat} {s t : Statement} {name : String} (hj : statements[j]? = some s)
    (hk : statements[k]? = some t) (hs : s.command = .label name) (ht : t.command = .label name) :
    j = k := by
  have hpairs := List.pairwise_filterMap.mp h
  obtain ⟨hlt, rfl⟩ := List.getElem?_eq_some_iff.mp hj
  obtain ⟨hlt', rfl⟩ := List.getElem?_eq_some_iff.mp hk
  have hdistinct := List.pairwise_iff_getElem.mp hpairs
  have hne : ∀ (a b : Nat) (ha : a < statements.length) (hb : b < statements.length), a < b →
      statements[a].command = .label name → statements[b].command ≠ .label name := by
    intro a b ha hb hab hla hlb
    exact hdistinct a b ha hb hab name (by simp [hla, Command.label?]) name
      (by simp [hlb, Command.label?]) rfl
  rcases Nat.lt_trichotomy j k with hjk | hjk | hjk
  · exact absurd ht (hne j k hlt hlt' hjk hs)
  · exact hjk
  · exact absurd hs (hne k j hlt' hlt hjk ht)

namespace Program

/-- Whether two programs differ in their links only. -/
structure SameBlocks (p q : Program) : Prop where
  statements : q.statements = p.statements
  parents : q.parents = p.parents
  labels : q.labels = p.labels

theorem ancestors_congr {p q : Program} (h : q.parents = p.parents) (index : Nat) :
    q.ancestors index = p.ancestors index := by
  induction index using Nat.strongRecOn with
  | ind index ih =>
    rw [ancestors, ancestors, parent?, parent?, h]
    split
    · rename_i start _
      split
      · rename_i hlt
        rw [ih start hlt]
      · rfl
    · rfl

/-- Whether the statement at an index, if it is a jump, has a label to go to, and the innermost
    block around that label is around the jump. -/
def JumpFits (p : Program) (index : Nat) (s : Statement) : Prop :=
  ∀ name, s.command = .goto name → ∃ target, p.label? name = some target ∧
    ∀ block, p.parent? target = some block → block ∈ p.ancestors index

theorem SameBlocks.jumpFits_iff {p q : Program} (h : p.SameBlocks q) (index : Nat) (s : Statement) :
    q.JumpFits index s ↔ p.JumpFits index s := by
  simp only [JumpFits, label?, parent?, h.labels, h.parents, ancestors_congr h.parents]

/-- What linking one statement does. -/
structure Links (p : Program) (index : Nat) (s : Statement) (q : Program) : Prop where
  same : p.SameBlocks q
  fits : p.JumpFits index s
  size : q.links.size = p.links.size
  frame : ∀ j, j ≠ index → q.link j = p.link j
  plain : (∀ name, s.command ≠ .goto name) → q.link index = p.link index
  jump : ∀ name target, s.command = .goto name → p.label? name = some target →
    index < p.links.size →
    q.link index = .goto target

/-- A jump that fits is linked to its label. -/
theorem links_goto (p : Program) (index line target : Nat) (name : String)
    (hlabel : p.label? name = some target)
    (hblock : ∀ block, p.parent? target = some block → block ∈ p.ancestors index) :
    p.Links index ⟨line, .goto name⟩
    { p with links := p.links.setIfInBounds index (.goto target) } where
  same := ⟨rfl, rfl, rfl⟩
  fits _ hname := by
    cases hname
    exact ⟨target, hlabel, hblock⟩
  size := by simp
  frame j hj := by
    simp only [link, Array.getD_eq_getD_getElem?]
    rw [Array.getElem?_setIfInBounds_ne (Ne.symm hj)]
  plain hne := absurd rfl (hne name)
  jump _ other hname hother hlt := by
    cases hname
    cases hlabel.symm.trans hother
    simp [link, Array.getD_eq_getD_getElem?, hlt]

theorem links_of_linkGoto {p q : Program} {index : Nat} {s : Statement}
    (h : p.linkGoto index s = .ok q) :
    p.Links index s q := by
  obtain ⟨line, command⟩ := s
  cases command with
  | goto name =>
    simp only [linkGoto] at h
    cases hlabel : p.label? name with
    | none => simp [hlabel] at h
    | some target =>
      simp only [hlabel] at h
      cases hparent : p.parent? target with
      | none =>
        simp only [hparent] at h
        cases h
        exact links_goto p index line target name hlabel (by simp [hparent])
      | some block =>
        simp only [hparent] at h
        split at h
        · rename_i hmem
          cases h
          refine links_goto p index line target name hlabel fun other hother => ?_
          cases hparent.symm.trans hother
          exact List.contains_iff_mem.mp hmem
        · cases h
  | _ =>
    cases h
    exact ⟨⟨rfl, rfl, rfl⟩, by simp [JumpFits], rfl, fun _ _ => rfl, fun _ => rfl, by simp⟩

theorem exists_linkGoto {p : Program} {index : Nat} {s : Statement} (h : p.JumpFits index s) :
    ∃ q, p.linkGoto index s = .ok q := by
  obtain ⟨line, command⟩ := s
  cases command with
  | goto name =>
    obtain ⟨target, hlabel, hblock⟩ := h name rfl
    refine ⟨{ p with links := p.links.setIfInBounds index (.goto target) }, ?_⟩
    simp only [linkGoto, hlabel]
    cases hparent : p.parent? target with
    | none => rfl
    | some block => exact if_pos (List.contains_iff_mem.mpr (hblock block hparent))
  | _ => exact ⟨p, rfl⟩

/-- What linking the statements from an index on does. -/
theorem linkGotos_eq_ok {p q : Program} {i : Nat} {xs : List Statement}
    (h : p.linkGotos i xs = .ok q) :
    p.SameBlocks q ∧ (∀ j, j < i → q.link j = p.link j) ∧ ∀ k s, xs[k]? = some s →
      p.JumpFits (i + k) s ∧
      ((∀ name, s.command ≠ .goto name) → q.link (i + k) = p.link (i + k)) ∧
      (∀ name target, s.command = .goto name → p.label? name = some target →
        i + k < p.links.size →
        q.link (i + k) = .goto target) := by
  induction xs generalizing p i with
  | nil =>
    cases h
    exact ⟨⟨rfl, rfl, rfl⟩, fun _ _ => rfl, by simp⟩
  | cons s rest ih =>
    obtain ⟨m, hm, hrest⟩ := Except.bind_eq_ok_iff.mp h
    have hlinks := links_of_linkGoto hm
    obtain ⟨hsame, hframe, heach⟩ := ih hrest
    refine ⟨⟨hsame.statements.trans hlinks.same.statements,
      hsame.parents.trans hlinks.same.parents,
      hsame.labels.trans hlinks.same.labels⟩, fun j hj => ?_, fun k t hk => ?_⟩
    · exact (hframe j (by omega)).trans (hlinks.frame j (by omega))
    · cases k with
      | zero =>
        cases hk
        have hkeep : q.link i = m.link i := hframe i (Nat.lt_succ_self i)
        exact ⟨hlinks.fits, fun hne => hkeep.trans (hlinks.plain hne),
          fun name target hs hlabel hlt => hkeep.trans (hlinks.jump name target hs hlabel hlt)⟩
      | succ k =>
        have hindex : i + 1 + k = i + (k + 1) := by omega
        obtain ⟨hfits, hplain, hjump⟩ := heach k t (by simpa using hk)
        rw [hindex] at hfits hplain hjump
        refine ⟨(hlinks.same.jumpFits_iff _ t).mp hfits, fun hne => ?_,
          fun name target ht hlabel hlt => ?_⟩
        · exact (hplain hne).trans (hlinks.frame _ (by omega))
        · refine hjump name target ht ?_ (by rw [hlinks.size]; exact hlt)
          rw [label?, hlinks.same.labels]
          exact hlabel

/-- Linking succeeds if all jumps fit. -/
theorem exists_linkGotos {p : Program} {i : Nat} {xs : List Statement}
    (h : ∀ k s, xs[k]? = some s → p.JumpFits (i + k) s) : ∃ q, p.linkGotos i xs = .ok q := by
  induction xs generalizing p i with
  | nil => exact ⟨p, rfl⟩
  | cons s rest ih =>
    obtain ⟨m, hm⟩ := exists_linkGoto (h 0 s rfl)
    have hsame := (links_of_linkGoto hm).same
    have hrest : ∀ k t, rest[k]? = some t → m.JumpFits (i + 1 + k) t := by
      intro k t hk
      rw [hsame.jumpFits_iff]
      simpa [Nat.add_assoc, Nat.add_comm 1] using h (k + 1) t (by simpa using hk)
    obtain ⟨q, hq⟩ := ih hrest
    exact ⟨q, Except.bind_eq_ok_iff.mpr ⟨m, hm, hq⟩⟩

/-- The blocks that are recorded around a statement are those of the path to it. -/
theorem ancestors_eq_starts {p : Program} {cells : List Cell}
    (h : p.parents.toList = cells.map Cell.parent) {path : List Enclosure} {j : Nat}
    (hpath : Surrounds cells path j) (hparent : p.parent? j = path.head?.map Enclosure.start) :
    p.ancestors j = Enclosure.starts path := by
  induction path generalizing j with
  | nil =>
    rw [ancestors, hparent]
    rfl
  | cons e outer ih =>
    obtain ⟨hlt, ⟨opener, hopener, rfl, -⟩, houter⟩ := hpath
    have hparent' : p.parent? e.start = opener.path.head?.map Enclosure.start := by
      rw [parent?, Array.getD_eq_getD_getElem?, ← Array.getElem?_toList, h,
        List.getElem?_map, hopener]
      rfl
    rw [ancestors, hparent]
    simp only [List.head?_cons, Option.map_some, if_pos hlt]
    rw [ih houter hparent']
    rfl

end Program

end InstallScript.Script
