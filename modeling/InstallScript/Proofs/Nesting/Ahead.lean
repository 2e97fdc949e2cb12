import InstallScript.Proofs.Nesting.Placing

/-!
Links that lead on. In a nested program every link other than that of a loop control leads to a
later statement, and what follows a block lies behind every statement in it.
-/

namespace InstallScript.Script

/-- Whether a statement at index `j` with this link leads only to later ones. Loop controls and
    breaks name the block that they work on and lead on from there. -/
def Link.Ahead (j : Nat) : Link → Prop
  | .ifTest elseAt stop => (∀ middle, elseAt = some middle → j < middle) ∧ j < stop
  | .otherwise stop | .loop stop | .goto stop => j < stop
  | .select first _ => j < first
  | .caseOf next _ => j < next
  | _ => True

/-- Whether the block that a statement with this link opens is left to behind index `j`. -/
def Link.Spans (j : Nat) : Link → Prop
  | .ifTest _ stop | .loop stop | .select _ stop => j ≤ stop
  | .caseOf next _ => j < next
  | _ => True

/-- Whether all blocks of `path` are left to behind index `j`. -/
def Encloses (all : List Cell) (path : List Enclosure) (j : Nat) : Prop :=
  ∀ e ∈ path, ∀ opener, all[e.start]? = some opener → opener.link.Spans j

/-- Whether a statement at index `j` leads to later ones only, and the blocks around it are left to
    behind it. -/
def Cell.Ahead (all : List Cell) (j : Nat) (c : Cell) : Prop :=
  c.link.Ahead j ∧ Encloses all c.path j

theorem Encloses.cons {all : List Cell} {path : List Enclosure} {kind : BlockKind} {start j : Nat}
    {opener : Cell} (h : Encloses all path j) (hopener : all[start]? = some opener)
    (hspans : opener.link.Spans j) :
    Encloses all (⟨kind, start⟩ :: path) j := by
  intro e he found hfound
  rcases List.mem_cons.mp he with rfl | he
  · cases hopener.symm.trans hfound
    exact hspans
  · exact h e he found hfound

theorem Link.ahead_plainLink (path : List Enclosure) (c : Command) (j : Nat) :
    (Enclosure.plainLink path c).Ahead j := by
  unfold Enclosure.plainLink
  split
  · cases Enclosure.loop? path <;> trivial
  · cases Enclosure.loop? path <;> trivial
  · cases Enclosure.arm? path <;> trivial
  · trivial

mutual

/-- Every statement of a block leads on, provided the blocks around the block go on to its end. -/
theorem Block.each_ahead {all : List Cell} (b : Block) (path : List Enclosure) (i : Nat)
    (hplaced : Cell.Placed all i (b.layout path i))
    (hpath : ∀ j < i + b.size, Encloses all path j) :
    Cell.Each (Cell.Ahead all) i (b.layout path i) := by
  match b with
  | .nil => trivial
  | .plain line c rest =>
    obtain ⟨-, hrest⟩ := hplaced
    rw [Block.size_plain] at hpath
    refine ⟨⟨Link.ahead_plainLink path _ i, hpath i (by omega)⟩, ?_⟩
    exact rest.each_ahead path (i + 1) hrest fun j hj => hpath j (by omega)
  | .ifThen line test body stopLine rest =>
    simp only [Block.layout, Cell.Placed, Cell.Each, Cell.each_append,
      Block.length_layout] at hplaced ⊢
    obtain ⟨hhead, hbody, hstop, hrest⟩ := hplaced
    rw [Block.size_ifThen] at hpath
    have hinner : ∀ j < i + 1 + body.size + 1, Encloses all (⟨.branch, i⟩ :: path) j :=
      fun j hj => (hpath j (by omega)).cons hhead (Nat.le_of_lt_succ hj)
    refine ⟨⟨⟨by simp, ?_⟩, hpath i (by omega)⟩, ?_,
      ⟨trivial, hinner _ (by omega)⟩, ?_⟩
    · omega
    · exact body.each_ahead _ _ hbody fun j hj => hinner j (by omega)
    · exact rest.each_ahead _ _ hrest fun j hj => hpath j (by omega)
  | .ifElse line test body elseLine other stopLine rest =>
    simp only [Block.layout, Cell.Placed, Cell.Each, Cell.each_append,
      Block.length_layout] at hplaced ⊢
    obtain ⟨hhead, hbody, helse, hother, hstop, hrest⟩ := hplaced
    rw [Block.size_ifElse] at hpath
    have hinner : ∀ j < i + 1 + body.size + 1 + other.size + 1,
        Encloses all (⟨.branch, i⟩ :: path) j :=
      fun j hj => (hpath j (by omega)).cons hhead (Nat.le_of_lt_succ hj)
    refine ⟨⟨⟨?_, ?_⟩, hpath i (by omega)⟩, ?_, ⟨?_, hinner _ (by omega)⟩, ?_,
      ⟨trivial, hinner _ (by omega)⟩, ?_⟩
    · rintro middle ⟨⟩
      omega
    · omega
    · exact body.each_ahead _ _ hbody fun j hj => hinner j (by omega)
    · simp only [Link.Ahead]
      omega
    · exact other.each_ahead _ _ hother fun j hj => hinner j (by omega)
    · exact rest.each_ahead _ _ hrest fun j hj => hpath j (by omega)
  | .loop line header body stopLine rest =>
    simp only [Block.layout, Cell.Placed, Cell.Each, Cell.each_append,
      Block.length_layout] at hplaced ⊢
    obtain ⟨hhead, hbody, hstop, hrest⟩ := hplaced
    rw [Block.size_loop] at hpath
    have hinner : ∀ j < i + 1 + body.size + 1, Encloses all (⟨.loop, i⟩ :: path) j :=
      fun j hj => (hpath j (by omega)).cons hhead (Nat.le_of_lt_succ hj)
    refine ⟨⟨?_, hpath i (by omega)⟩, ?_, ⟨trivial, hinner _ (by omega)⟩, ?_⟩
    · simp only [Link.Ahead]
      omega
    · exact body.each_ahead _ _ hbody fun j hj => hinner j (by omega)
    · exact rest.each_ahead _ _ hrest fun j hj => hpath j (by omega)
  | .select line selector skipped arms stopLine rest =>
    simp only [Block.layout, Cell.Placed, Cell.Each, Cell.each_append, Block.length_layout,
      Arms.length_layout] at hplaced ⊢
    obtain ⟨hhead, hskipped, harms, hstop, hrest⟩ := hplaced
    rw [Block.size_select] at hpath
    have hinner : ∀ j < i + 1 + skipped.size + arms.size + 1,
        Encloses all (⟨.select, i⟩ :: path) j := fun j hj =>
      (hpath j (by omega)).cons hhead (Nat.le_of_lt_succ hj)
    refine ⟨⟨?_, hpath i (by omega)⟩, ?_, ?_, ⟨trivial, hinner _ (by omega)⟩, ?_⟩
    · simp only [Link.Ahead]
      omega
    · exact skipped.each_ahead _ _ hskipped fun j hj => hinner j (by omega)
    · exact arms.each_ahead _ i _ harms fun j hj => hinner j (by omega)
    · exact rest.each_ahead _ _ hrest fun j hj => hpath j (by omega)

theorem Arms.each_ahead {all : List Cell} (a : Arms) (path : List Enclosure) (select i : Nat)
    (hplaced : Cell.Placed all i (a.layout path select i))
    (hpath : ∀ j < i + a.size, Encloses all path j) :
    Cell.Each (Cell.Ahead all) i (a.layout path select i) := by
  match a with
  | .nil => trivial
  | .cons line guard body rest =>
    simp only [Arms.layout, Cell.Placed, Cell.Each, Cell.each_append,
      Block.length_layout] at hplaced ⊢
    obtain ⟨hhead, hbody, hrest⟩ := hplaced
    rw [Arms.size_cons] at hpath
    have hinner : ∀ j < i + 1 + body.size, Encloses all (⟨.arm, i⟩ :: path) j := fun j hj =>
      (hpath j (by omega)).cons hhead hj
    refine ⟨⟨?_, hpath i (by omega)⟩, body.each_ahead _ _ hbody hinner, ?_⟩
    · simp only [Link.Ahead]
      omega
    · exact rest.each_ahead _ select _ hrest fun j hj => hpath j (by omega)

end

/-- Every statement of a nested program leads on, and so do the blocks around it. -/
theorem Block.ahead_layout (b : Block) {j : Nat} {c : Cell} (h : (b.layout [] 0)[j]? = some c) :
    c.Ahead (b.layout [] 0) j := by
  have heach := b.each_ahead [] 0 (Cell.placed_self _) fun _ _ _ he => by cases he
  simpa using (Cell.each_iff_getElem? 0 _).mp heach j c h

end InstallScript.Script
