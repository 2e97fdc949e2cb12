import InstallScript.Proofs.Nesting.Ahead
import InstallScript.Proofs.Nesting.Matching

/-!
How far blocks reach. The blocks that a program records around a statement are exactly those that
the statement lies in, and two blocks have no statement in common unless one of them lies in the
other.
-/

namespace InstallScript.Script

/-- The index behind the block that a statement with this link opens. An `If`, a `For` and a
    select hold the statement that closes them, a case ends before the next one or the end of its
    select. -/
def Link.blockEnd? : Link → Option Nat
  | .ifTest _ stop | .loop stop | .select _ stop => some (stop + 1)
  | .caseOf next _ => some next
  | _ => Option.none

/-- Whether a statement lies in the block that another one opens. -/
def Program.Contains (p : Program) (start i : Nat) : Prop :=
  ∃ kind stop, p.Opens start kind ∧ (p.link start).blockEnd? = some stop ∧
    start < i ∧ i < stop

/-- Whether the blocks of `path` are around all statements from an index up to another one. -/
def Inside (all : List Cell) (path : List Enclosure) (i j : Nat) : Prop :=
  ∀ k, i ≤ k → k < j → ∃ c, all[k]? = some c ∧ path <:+ c.path

section Inside

variable {all : List Cell} {path inner : List Enclosure} {i j k : Nat}

theorem Inside.append (h : Inside all path i j) (h' : Inside all path j k) :
    Inside all path i k := by
  intro m hi hk
  rcases Nat.lt_or_ge m j with hj | hj
  · exact h m hi hj
  · exact h' m hj hk

theorem Inside.mono (h : Inside all inner i j) (hpath : path <:+ inner) : Inside all path i j := by
  intro k hi hj
  obtain ⟨c, hc, hinner⟩ := h k hi hj
  exact ⟨c, hc, hpath.trans hinner⟩

theorem Inside.of_getElem? {c : Cell} (hc : all[i]? = some c) (hpath : path <:+ c.path) :
    Inside all path i (i + 1) := by
  intro k hi hj
  obtain rfl : k = i := by omega
  exact ⟨c, hc, hpath⟩

mutual

/-- The statements of a block lie in the blocks around the block. -/
theorem Block.inside_layout (b : Block) (path : List Enclosure) (i : Nat)
    (hplaced : Cell.Placed all i (b.layout path i)) : Inside all path i (i + b.size) := by
  match b with
  | .nil => exact fun k hi hj => absurd (Nat.lt_of_le_of_lt hi hj) (Nat.lt_irrefl i)
  | .plain line c rest =>
    obtain ⟨hhead, hrest⟩ := hplaced
    have hafter := rest.inside_layout path (i + 1) hrest
    rw [Block.size_plain, Nat.add_comm rest.size, ← Nat.add_assoc]
    exact (Inside.of_getElem? hhead (List.suffix_refl _)).append hafter
  | .ifThen line test body stopLine rest =>
    simp only [Block.layout, Cell.Placed, Cell.Each, Cell.each_append,
      Block.length_layout] at hplaced
    obtain ⟨hhead, hbody, hstop, hrest⟩ := hplaced
    have hinner : path <:+ ⟨.branch, i⟩ :: path := List.suffix_cons _ _
    have hafter := rest.inside_layout path _ hrest
    have hend : i + 1 + body.size + 1 + rest.size =
        i + (Block.ifThen line test body stopLine rest).size := by
      rw [Block.size_ifThen]
      omega
    rw [← hend]
    exact (Inside.of_getElem? hhead (List.suffix_refl _)).append <|
      ((body.inside_layout _ _ hbody).mono hinner).append <|
        (Inside.of_getElem? hstop hinner).append hafter
  | .ifElse line test body elseLine other stopLine rest =>
    simp only [Block.layout, Cell.Placed, Cell.Each, Cell.each_append,
      Block.length_layout] at hplaced
    obtain ⟨hhead, hbody, helse, hother, hstop, hrest⟩ := hplaced
    have hinner : path <:+ ⟨.branch, i⟩ :: path := List.suffix_cons _ _
    have hafter := rest.inside_layout path _ hrest
    have hend : i + 1 + body.size + 1 + other.size + 1 + rest.size =
        i + (Block.ifElse line test body elseLine other stopLine rest).size := by
      rw [Block.size_ifElse]
      omega
    rw [← hend]
    exact (Inside.of_getElem? hhead (List.suffix_refl _)).append <|
      ((body.inside_layout _ _ hbody).mono hinner).append <|
        (Inside.of_getElem? helse hinner).append <|
      ((other.inside_layout _ _ hother).mono hinner).append <|
        (Inside.of_getElem? hstop hinner).append hafter
  | .loop line header body stopLine rest =>
    simp only [Block.layout, Cell.Placed, Cell.Each, Cell.each_append,
      Block.length_layout] at hplaced
    obtain ⟨hhead, hbody, hstop, hrest⟩ := hplaced
    have hinner : path <:+ ⟨.loop, i⟩ :: path := List.suffix_cons _ _
    have hafter := rest.inside_layout path _ hrest
    have hend : i + 1 + body.size + 1 + rest.size = i +
        (Block.loop line header body stopLine rest).size := by
      rw [Block.size_loop]
      omega
    rw [← hend]
    exact (Inside.of_getElem? hhead (List.suffix_refl _)).append <|
      ((body.inside_layout _ _ hbody).mono hinner).append <|
        (Inside.of_getElem? hstop hinner).append hafter
  | .select line selector skipped arms stopLine rest =>
    simp only [Block.layout, Cell.Placed, Cell.Each, Cell.each_append, Block.length_layout,
      Arms.length_layout] at hplaced
    obtain ⟨hhead, hskipped, harms, hstop, hrest⟩ := hplaced
    have hinner : path <:+ ⟨.select, i⟩ :: path := List.suffix_cons _ _
    have hafter := rest.inside_layout path _ hrest
    have hend : i + 1 + skipped.size + arms.size + 1 + rest.size =
        i + (Block.select line selector skipped arms stopLine rest).size := by
      rw [Block.size_select]
      omega
    rw [← hend]
    exact (Inside.of_getElem? hhead (List.suffix_refl _)).append <|
      ((skipped.inside_layout _ _ hskipped).mono hinner).append <|
      ((arms.inside_layout _ _ _ harms).mono hinner).append <|
        (Inside.of_getElem? hstop hinner).append hafter

theorem Arms.inside_layout (a : Arms) (path : List Enclosure) (start i : Nat)
    (hplaced : Cell.Placed all i (a.layout path start i)) : Inside all path i (i + a.size) := by
  match a with
  | .nil => exact fun k hi hj => absurd (Nat.lt_of_le_of_lt hi hj) (Nat.lt_irrefl i)
  | .cons line guard body rest =>
    simp only [Arms.layout, Cell.Placed, Cell.Each, Cell.each_append,
      Block.length_layout] at hplaced
    obtain ⟨hhead, hbody, hrest⟩ := hplaced
    have hafter := rest.inside_layout path start _ hrest
    have hend : i + 1 + body.size + rest.size = i + (Arms.cons line guard body rest).size := by
      rw [Arms.size_cons]
      omega
    rw [← hend]
    exact (Inside.of_getElem? hhead (List.suffix_refl _)).append <|
      ((body.inside_layout _ _ hbody).mono (List.suffix_cons _ _)).append hafter

end

end Inside

/-- Whether the block that a statement opens is around every statement up to its end. -/
def Cell.Holds (all : List Cell) (j : Nat) (c : Cell) : Prop :=
  ∀ stop, c.link.blockEnd? = some stop →
    ∃ kind path, Inside all (⟨kind, j⟩ :: path) (j + 1) stop

section Holds

variable {all : List Cell}

theorem Cell.holds_of_inside {c : Cell} {kind : BlockKind} {path : List Enclosure} {j stop : Nat}
    (hlink : c.link.blockEnd? = some stop) (h : Inside all (⟨kind, j⟩ :: path) (j + 1) stop) :
    c.Holds all j := by
  intro other hother
  cases hlink.symm.trans hother
  exact ⟨kind, path, h⟩

theorem Cell.holds_of_blockEnd?_eq_none {c : Cell} {j : Nat} (hlink : c.link.blockEnd? = none) :
    c.Holds all j := by
  intro stop hstop
  cases hlink.symm.trans hstop

theorem Link.blockEnd?_plainLink (path : List Enclosure) (c : Command) :
    (Enclosure.plainLink path c).blockEnd? = Option.none := by
  unfold Enclosure.plainLink
  split
  · cases Enclosure.loop? path <;> rfl
  · cases Enclosure.loop? path <;> rfl
  · cases Enclosure.arm? path <;> rfl
  · rfl

mutual

/-- Every block is around all statements up to its end. -/
theorem Block.each_holds (b : Block) (path : List Enclosure) (i : Nat)
    (hplaced : Cell.Placed all i (b.layout path i)) :
    Cell.Each (Cell.Holds all) i (b.layout path i) := by
  match b with
  | .nil => trivial
  | .plain line c rest =>
    obtain ⟨-, hrest⟩ := hplaced
    exact ⟨Cell.holds_of_blockEnd?_eq_none (Link.blockEnd?_plainLink path _),
      rest.each_holds path (i + 1) hrest⟩
  | .ifThen line test body stopLine rest =>
    simp only [Block.layout, Cell.Placed, Cell.Each, Cell.each_append,
      Block.length_layout] at hplaced ⊢
    obtain ⟨-, hbody, hstop, hrest⟩ := hplaced
    have hinside := (body.inside_layout _ _ hbody).append (.of_getElem? hstop (List.suffix_refl _))
    exact ⟨Cell.holds_of_inside rfl hinside, body.each_holds _ _ hbody,
      Cell.holds_of_blockEnd?_eq_none rfl,
      rest.each_holds _ _ hrest⟩
  | .ifElse line test body elseLine other stopLine rest =>
    simp only [Block.layout, Cell.Placed, Cell.Each, Cell.each_append,
      Block.length_layout] at hplaced ⊢
    obtain ⟨-, hbody, helse, hother, hstop, hrest⟩ := hplaced
    have hinside := (body.inside_layout _ _ hbody).append <|
      (Inside.of_getElem? helse (List.suffix_refl _)).append <|
      (other.inside_layout _ _ hother).append (.of_getElem? hstop (List.suffix_refl _))
    exact ⟨Cell.holds_of_inside rfl hinside, body.each_holds _ _ hbody,
      Cell.holds_of_blockEnd?_eq_none rfl,
      other.each_holds _ _ hother, Cell.holds_of_blockEnd?_eq_none rfl, rest.each_holds _ _ hrest⟩
  | .loop line header body stopLine rest =>
    simp only [Block.layout, Cell.Placed, Cell.Each, Cell.each_append,
      Block.length_layout] at hplaced ⊢
    obtain ⟨-, hbody, hstop, hrest⟩ := hplaced
    have hinside := (body.inside_layout _ _ hbody).append (.of_getElem? hstop (List.suffix_refl _))
    exact ⟨Cell.holds_of_inside rfl hinside, body.each_holds _ _ hbody,
      Cell.holds_of_blockEnd?_eq_none rfl,
      rest.each_holds _ _ hrest⟩
  | .select line selector skipped arms stopLine rest =>
    simp only [Block.layout, Cell.Placed, Cell.Each, Cell.each_append, Block.length_layout,
      Arms.length_layout] at hplaced ⊢
    obtain ⟨-, hskipped, harms, hstop, hrest⟩ := hplaced
    have hinside := (skipped.inside_layout _ _ hskipped).append <|
      (arms.inside_layout _ _ _ harms).append
      (.of_getElem? hstop (List.suffix_refl _))
    exact ⟨Cell.holds_of_inside rfl hinside, skipped.each_holds _ _ hskipped,
      arms.each_holds _ _ _ harms,
      Cell.holds_of_blockEnd?_eq_none rfl, rest.each_holds _ _ hrest⟩

theorem Arms.each_holds (a : Arms) (path : List Enclosure) (start i : Nat)
    (hplaced : Cell.Placed all i (a.layout path start i)) :
    Cell.Each (Cell.Holds all) i (a.layout path start i) := by
  match a with
  | .nil => trivial
  | .cons line guard body rest =>
    simp only [Arms.layout, Cell.Placed, Cell.Each, Cell.each_append,
      Block.length_layout] at hplaced ⊢
    obtain ⟨-, hbody, hrest⟩ := hplaced
    exact ⟨Cell.holds_of_inside rfl (body.inside_layout _ _ hbody), body.each_holds _ _ hbody,
      rest.each_holds _ _ _ hrest⟩

end

end Holds

/-- Inner blocks start later. -/
theorem Surrounds.pairwise_starts {all : List Cell} {path : List Enclosure} {j : Nat}
    (h : Surrounds all path j) :
    (Enclosure.starts path).Pairwise (· > ·) := by
  induction path generalizing j with
  | nil => exact List.Pairwise.nil
  | cons e outer ih =>
    obtain ⟨-, -, houter⟩ := h
    refine List.pairwise_cons.mpr ⟨fun start hstart => ?_, ih houter⟩
    obtain ⟨o, ho, rfl⟩ := List.mem_map.mp hstart
    exact houter.lt_of_mem ho

/-- A block that is left to behind an index ends behind it. -/
theorem Cell.Flows.exists_blockEnd {all : List Cell} {c : Cell} {i j : Nat} {kind : BlockKind}
    (h : c.Flows all j) (hkind : c.statement.command.opens? = some kind) (hspans : c.link.Spans i) :
    ∃ stop, c.link.blockEnd? = some stop ∧ i < stop := by
  obtain ⟨⟨line, command⟩, path, link⟩ := c
  cases command with
  | ifTest =>
    obtain ⟨elseAt, stop, rfl, -⟩ := h
    exact ⟨stop + 1, rfl, Nat.lt_succ_of_le hspans⟩
  | forLoop =>
    obtain ⟨stop, rfl, -⟩ := h
    exact ⟨stop + 1, rfl, Nat.lt_succ_of_le hspans⟩
  | select | selectVar | selectString =>
    obtain ⟨first, stop, rfl, -⟩ := h
    exact ⟨stop + 1, rfl, Nat.lt_succ_of_le hspans⟩
  | caseOf | defaultCase =>
    obtain ⟨start, outer, next, -, rfl, -⟩ := h
    exact ⟨next, rfl, hspans⟩
  | _ => cases hkind

namespace Program

section Layout

variable {p : Program} {b : Block} (hp : p.LaidOut (b.layout [] 0)) {i j : Nat}
include hp

/-- Nothing is around what is not there. -/
theorem LaidOut.ancestors_eq_nil (hi : p.size ≤ i) : p.ancestors i = [] := by
  have hsize : p.parents.size = p.size := by
    rw [hp.size_eq, ← Array.length_toList, hp.parents, List.length_map]
  have hparent : p.parent? i = none := by
    rw [parent?, Array.getD_eq_getD_getElem?, Array.getElem?_eq_none (by omega)]
    rfl
  rw [ancestors, hparent]

theorem LaidOut.exists_cell_of_mem_ancestors (hj : j ∈ p.ancestors i) :
    ∃ c : Cell, (b.layout [] 0)[i]? = some c ∧ p.ancestors i = Enclosure.starts c.path := by
  have hlt : i < (b.layout [] 0).length := by
    rw [← hp.size_eq]
    refine Nat.lt_of_not_le fun hi => ?_
    rw [hp.ancestors_eq_nil hi] at hj
    cases hj
  exact ⟨_, List.getElem?_eq_getElem hlt, hp.ancestors_eq (List.getElem?_eq_getElem hlt)
    (b.sound_layout (List.getElem?_eq_getElem hlt)).1⟩

/-- The blocks that are recorded around a statement are those that it lies in. -/
theorem LaidOut.mem_ancestors_iff : j ∈ p.ancestors i ↔ p.Contains j i := by
  constructor
  · intro hj
    obtain ⟨c, hc, hancestors⟩ := hp.exists_cell_of_mem_ancestors hj
    obtain ⟨e, he, rfl⟩ := List.mem_map.mp (hancestors ▸ hj)
    have hpath := (b.sound_layout hc).1
    obtain ⟨opener, hopener, hkind⟩ := hpath.exists_opener he
    have hspans := (b.ahead_layout hc).2 e he opener hopener
    obtain ⟨stop, hstop, hlt⟩ := (b.sound_layout hopener).2.exists_blockEnd hkind hspans
    exact ⟨e.kind, stop, hp.opens hopener hkind, by rw [hp.link_opener hopener hkind, hstop],
      hpath.lt_of_mem he, hlt⟩
  · rintro ⟨kind, stop, ⟨s, hs, hkind⟩, hstop, hlt, hend⟩
    obtain ⟨opener, hopener, rfl⟩ := hp.exists_cell hs
    rw [hp.link_opener hopener hkind] at hstop
    have heach := (Cell.each_iff_getElem? 0 _).mp (b.each_holds [] 0 (Cell.placed_self _))
      j opener hopener
    rw [Nat.zero_add] at heach
    obtain ⟨kind, path, hinside⟩ := heach stop hstop
    obtain ⟨c, hc, hsuffix⟩ := hinside i hlt hend
    rw [hp.ancestors_eq hc (b.sound_layout hc).1]
    exact List.mem_map_of_mem (hsuffix.subset List.mem_cons_self)

theorem LaidOut.pairwise_ancestors : (p.ancestors i).Pairwise (· > ·) := by
  cases h : p.ancestors i with
  | nil => exact List.Pairwise.nil
  | cons j outer =>
    obtain ⟨c, hc, hancestors⟩ :=
      hp.exists_cell_of_mem_ancestors (i := i) (j := j) (by simp [h])
    rw [← h, hancestors]
    exact (b.sound_layout hc).1.pairwise_starts

/-- The blocks around a block are around every statement in it. -/
theorem LaidOut.suffix_ancestors (hj : j ∈ p.ancestors i) :
    j :: p.ancestors j <:+ p.ancestors i := by
  obtain ⟨c, hc, hancestors⟩ := hp.exists_cell_of_mem_ancestors hj
  obtain ⟨e, he, rfl⟩ := List.mem_map.mp (hancestors ▸ hj)
  obtain ⟨inner, outer, hsplit⟩ := List.append_of_mem he
  have hpath := (b.sound_layout hc).1
  rw [hsplit] at hpath
  obtain ⟨-, ⟨opener, hopener, houter, -⟩, -⟩ := hpath.of_append
  rw [hancestors, hsplit, hp.ancestors_eq hopener (b.sound_layout hopener).1, houter]
  exact ⟨Enclosure.starts inner, by simp [Enclosure.starts]⟩

/-- Of two blocks, the one that starts later lies in the other with all its statements, or they have
    no statement in common. -/
theorem LaidOut.nested_or_disjoint (hij : i < j) :
    (p.Contains i j ∧ ∀ k, p.Contains j k → p.Contains i k) ∨
      ∀ k, ¬(p.Contains i k ∧ p.Contains j k) := by
  simp only [← hp.mem_ancestors_iff]
  by_cases hmem : i ∈ p.ancestors j
  · refine .inl ⟨hmem, fun k hk => ?_⟩
    exact (hp.suffix_ancestors hk).subset (List.mem_cons_of_mem j hmem)
  -- A statement in both has both around it, and what starts later is listed first.
  · refine .inr fun k ⟨hi, hj⟩ => ?_
    obtain ⟨inner, hinner⟩ := hp.suffix_ancestors hj
    have hsorted := hp.pairwise_ancestors (i := k)
    rw [← hinner] at hi hsorted
    rcases List.mem_append.mp hi with hi | hi
    · have hgt := (List.pairwise_append.mp hsorted).2.2 i hi j List.mem_cons_self
      omega
    · rcases List.mem_cons.mp hi with rfl | hi
      · exact Nat.lt_irrefl _ hij
      · exact hmem hi

end Layout

/-- What should be true of the links of a program and of the blocks that it records around its
    statements. -/
structure WellLinked (p : Program) : Prop where
  /-- Every statement is linked as it should be. -/
  links : ∀ i s, p.statements[i]? = some s → p.LinksAs i s.command
  /-- Inner blocks come first, and so they start later. -/
  pairwise_ancestors : ∀ i, (p.ancestors i).Pairwise (· > ·)
  /-- The blocks around a statement are those that it lies in. -/
  mem_ancestors_iff : ∀ i j, j ∈ p.ancestors i ↔ p.Contains j i
  /-- Blocks do not overlap. -/
  nested_or_disjoint : ∀ i j, i < j →
    (p.Contains i j ∧ ∀ k, p.Contains j k → p.Contains i k) ∨
      ∀ k, ¬(p.Contains i k ∧ p.Contains j k)

/-- Loading links every statement as it should be, and records around each of them exactly the
    blocks that it lies in, which do not overlap. -/
theorem wellLinked_of_parse {text : String} {p : Program} (h : Program.parse text = .ok p) :
    p.WellLinked := by
  obtain ⟨b, hb⟩ := exists_block_of_parse h
  have hlaid := laidOut_of_parse h hb
  exact ⟨fun _ _ => linksAs_of_parse h, fun _ => hlaid.pairwise_ancestors,
    fun _ _ => hlaid.mem_ancestors_iff,
    fun _ _ => hlaid.nested_or_disjoint⟩

/-- A jump out of an `If` in a case of a select in a loop, to before the loop. -/
theorem wellLinked_of_jump_out_of_case :
    let text :=
      "Label top\nFor Count i 1 2\nSelectVar v\nCase x\nIf Equal %i% 2\nGoto top\nEndIf\nBreak\nDefault\n" ++
        "EndSelect\nEndFor"
    ∃ p, Program.parse text = .ok p ∧ p.link 5 = .goto 0 ∧ p.ancestors 5 = [4, 3, 2, 1] ∧
        p.WellLinked := by
  intro text
  have hlinked : (Program.parse text).toOption.map (fun p => (p.link 5, p.ancestors 5)) =
      some (.goto 0, [4, 3, 2, 1]) := by
    decide +kernel
  obtain ⟨p, hp, heq⟩ := Option.map_eq_some_iff.mp hlinked
  obtain ⟨hlink, hancestors⟩ := Prod.mk.inj heq
  have hparse := Except.toOption_eq_some_iff.mp hp
  exact ⟨p, hparse, hlink, hancestors, wellLinked_of_parse hparse⟩

end Program

end InstallScript.Script
