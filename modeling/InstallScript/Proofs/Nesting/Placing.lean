import InstallScript.Proofs.Nesting.Block

/-!
Statements at their indices. Seen from one statement of a program, the blocks around it are opened
by earlier statements, and wherever it leads, the blocks open there are those around the statement
found there. The only exception is the end of a case, which is met with that case still open.
-/

namespace InstallScript.Script

/-- The kind of block that a statement opens. -/
def Command.opens? : Command → Option BlockKind
  | .ifTest .. => some .branch
  | .forLoop _ => some .loop
  | .select _ | .selectVar _ | .selectString _ => some .select
  | .caseOf _ | .defaultCase => some .arm
  | _ => none

@[simp] theorem Command.opens?_selector (s : Selector) : s.command.opens? = some .select := by
  cases s <;> rfl

@[simp] theorem Command.opens?_guard (g : Guard) : g.command.opens? = some .arm := by
  cases g <;> rfl

/-- Whether statements, the first of which has index `i`, each have a property at their index. -/
def Cell.Each (q : Nat → Cell → Prop) (i : Nat) : List Cell → Prop
  | [] => True
  | c :: rest => q i c ∧ Each q (i + 1) rest

namespace Cell

variable {q r : Nat → Cell → Prop}

theorem each_append (i : Nat) (xs ys : List Cell) :
    Each q i (xs ++ ys) ↔ Each q i xs ∧ Each q (i + xs.length) ys := by
  induction xs generalizing i with
  | nil => simp [Each]
  | cons c rest ih =>
    have hi : i + 1 + rest.length = i + (rest.length + 1) := by omega
    simp only [List.cons_append, Each, ih, List.length_cons, and_assoc, hi]

theorem each_iff_getElem? (i : Nat) (xs : List Cell) :
    Each q i xs ↔ ∀ k c, xs[k]? = some c → q (i + k) c := by
  induction xs generalizing i with
  | nil => simp [Each]
  | cons c rest ih =>
    rw [Each, ih]
    constructor
    · rintro ⟨hfirst, hrest⟩ k d hd
      cases k with
      | zero =>
        cases hd
        exact hfirst
      | succ k => simpa [Nat.add_assoc, Nat.add_comm 1] using hrest k d (by simpa using hd)
    · intro h
      refine ⟨h 0 c rfl, fun k d hd => ?_⟩
      simpa [Nat.add_assoc, Nat.add_comm 1] using h (k + 1) d (by simpa using hd)

/-- Whether statements are found in a program from index `i` on. -/
def Placed (all : List Cell) : Nat → List Cell → Prop :=
  Each fun j c => all[j]? = some c

theorem placed_self (all : List Cell) : Placed all 0 all :=
  (each_iff_getElem? 0 all).mpr fun k c h => by simpa using h

end Cell

/-- Whether the blocks of `path` are open where the statement at index `j` is met: they are those
    around it, except that a statement which ends a case is met with that case open. After the last
    statement nothing is open. -/
def Arrives (all : List Cell) (path : List Enclosure) (j : Nat) : Prop :=
  (path = [] ∧ j = all.length) ∨ ∃ c, all[j]? = some c ∧ (path = c.path ∨
    ∃ start select opener, path = ⟨.arm, start⟩ :: c.path ∧
      Linker.endsCase c.statement.command = true ∧
      all[start]? = some opener ∧ opener.statement.command.opens? = some .arm ∧
        opener.path = c.path ∧
      opener.link = .caseOf j select)

theorem Arrives.of_eq {all : List Cell} {path : List Enclosure} {i j : Nat} (h : Arrives all path i)
    (hij : i = j) : Arrives all path j :=
  hij ▸ h

/-- Where a block is left to: what follows a loop, and what ends a case. A loop can be run again. -/
def Leaves (all : List Cell) (e : Enclosure) (outer : List Enclosure) (link : Link) : Prop :=
  match e.kind with
  | .loop =>
    ∃ stop, link = .loop stop ∧ Arrives all outer (stop + 1) ∧
      Arrives all (e :: outer) (e.start + 1)
  | .arm => ∃ next select, link = .caseOf next select ∧ Arrives all outer next
  | _ => True

/-- Whether the blocks of `path` are those around index `j`: each is opened by an earlier statement,
    around which there are the others. -/
def Surrounds (all : List Cell) : List Enclosure → Nat → Prop
  | [], _ => True
  | e :: outer, j => e.start < j ∧
    (∃ opener, all[e.start]? = some opener ∧ opener.path = outer ∧
      opener.statement.command.opens? = some e.kind ∧ Leaves all e outer opener.link) ∧
    Surrounds all outer e.start

theorem Surrounds.mono {all : List Cell} {path : List Enclosure} {i j : Nat}
    (h : Surrounds all path i) (hij : i ≤ j) : Surrounds all path j := by
  cases path with
  | nil => trivial
  | cons e outer =>
    obtain ⟨hlt, hrest⟩ := h
    exact ⟨by omega, hrest⟩

theorem Surrounds.lt_of_mem {all : List Cell} {path : List Enclosure} {e : Enclosure} {j : Nat}
    (h : Surrounds all path j) (he : e ∈ path) : e.start < j := by
  induction path generalizing j with
  | nil => cases he
  | cons first outer ih =>
    rcases List.mem_cons.mp he with rfl | houter
    · exact h.1
    · exact Nat.lt_trans (ih h.2.2 houter) h.1

/-- Inner blocks start after the blocks around them. -/
theorem Surrounds.start_lt {all : List Cell} {inner outer : List Enclosure} {e o : Enclosure}
    {j : Nat} (h : Surrounds all (inner ++ outer) j) (he : e ∈ inner) (ho : o ∈ outer) :
    o.start < e.start := by
  induction inner generalizing j with
  | nil => cases he
  | cons first rest ih =>
    rcases List.mem_cons.mp he with rfl | hrest
    · exact h.2.2.lt_of_mem (List.mem_append_right rest ho)
    · exact ih h.2.2 hrest

/-- The blocks around a block that surrounds an index. -/
theorem Surrounds.of_append {all : List Cell} {inner path : List Enclosure} {j : Nat}
    (h : Surrounds all (inner ++ path) j) : Surrounds all path j := by
  induction inner generalizing j with
  | nil => exact h
  | cons e rest ih => exact (ih h.2.2).mono (Nat.le_of_lt h.1)

/-- Each block around an index is opened by a statement of its kind. -/
theorem Surrounds.exists_opener {all : List Cell} {path : List Enclosure} {e : Enclosure} {j : Nat}
    (h : Surrounds all path j) (he : e ∈ path) :
    ∃ opener, all[e.start]? = some opener ∧ opener.statement.command.opens? = some e.kind := by
  obtain ⟨inner, outer, rfl⟩ := List.append_of_mem he
  obtain ⟨-, ⟨opener, hopener, -, hopens, -⟩, -⟩ := h.of_append
  exact ⟨opener, hopener, hopens⟩

/-- Where a statement leads, and that the blocks open there are as they should be. -/
def Cell.Flows (all : List Cell) (j : Nat) (c : Cell) : Prop :=
  match c.statement.command with
  | .ifTest .. =>
    ∃ elseAt stop, c.link = .ifTest elseAt stop ∧
      Arrives all (⟨.branch, j⟩ :: c.path) (j + 1) ∧
    (∀ middle, elseAt = some middle → Arrives all (⟨.branch, j⟩ :: c.path) (middle + 1)) ∧
    Arrives all c.path (stop + 1)
  | .otherwise =>
    ∃ start outer stop, c.path = ⟨.branch, start⟩ :: outer ∧ c.link = .otherwise stop ∧
    Arrives all outer (stop + 1)
  | .endIf => ∃ start outer, c.path = ⟨.branch, start⟩ :: outer ∧ Arrives all outer (j + 1)
  | .forLoop _ =>
    ∃ stop, c.link = .loop stop ∧ Arrives all (⟨.loop, j⟩ :: c.path) (j + 1) ∧
    Arrives all c.path (stop + 1)
  | .endFor => ∃ start outer, c.path = ⟨.loop, start⟩ :: outer ∧ c.link = .loopControl start
  | .select _ | .selectVar _ | .selectString _ => ∃ first stop, c.link = .select first stop ∧
    Arrives all (⟨.select, j⟩ :: c.path) first
  | .caseOf _ | .defaultCase => ∃ start outer next, c.path = ⟨.select, start⟩ :: outer ∧
    c.link = .caseOf next start ∧ Arrives all (⟨.arm, j⟩ :: c.path) (j + 1) ∧
      Arrives all c.path next
  | .endSelect =>
    ∃ start outer, c.path = ⟨.select, start⟩ :: outer ∧ Arrives all outer (j + 1)
  | command => c.link = Enclosure.plainLink c.path command ∧ Arrives all c.path (j + 1)

section

variable {all : List Cell} {path : List Enclosure} {i : Nat}

/-- A block is met with the blocks around it open. -/
theorem Block.arrives (b : Block) (hplaced : Cell.Placed all i (b.layout path i))
    (hnext : Arrives all path (i + b.size)) : Arrives all path i := by
  cases b with
  | nil => exact hnext
  | plain | ifThen | ifElse | loop | select => exact .inr ⟨_, hplaced.1, .inl rfl⟩

/-- A statement is met with the blocks around it open. -/
theorem arrives_of_getElem? {c : Cell} (h : all[i]? = some c) : Arrives all c.path i :=
  .inr ⟨c, h, .inl rfl⟩

/-- What follows a case of a select ends that case: another one, or the end of the select. -/
theorem Arms.exists_ending (a : Arms) {select stopLine : Nat}
    (hplaced : Cell.Placed all i (a.layout path select i))
    (hstop : all[i + a.size]? = some ⟨⟨stopLine, .endSelect⟩, path, .none⟩) :
    ∃ c, all[i]? = some c ∧ c.path = path ∧ Linker.endsCase c.statement.command = true := by
  cases a with
  | nil => exact ⟨_, hstop, rfl, rfl⟩
  | cons line guard body rest => exact ⟨_, hplaced.1, rfl, by cases guard <;> rfl⟩

theorem Cell.flows_plain (line : Nat) (c : PlainCommand) (h : Arrives all path (i + 1)) :
    (⟨⟨line, c.command⟩, path, Enclosure.plainLink path c.command⟩ : Cell).Flows all i := by
  obtain ⟨command, hplain⟩ := c
  cases command with
  | ifTest | otherwise | endIf | forLoop | endFor | select | selectVar | selectString | caseOf
  | defaultCase | endSelect => simp [Command.isPlain] at hplain
  | _ => exact ⟨rfl, h⟩

theorem Cell.flows_selector (line first stop : Nat) (selector : Selector)
    (h : Arrives all (⟨.select, i⟩ :: path) first) :
    (⟨⟨line, selector.command⟩, path, .select first stop⟩ : Cell).Flows all i := by
  cases selector <;> exact ⟨first, stop, rfl, h⟩

theorem Cell.flows_guard (line select next : Nat) (outer : List Enclosure) (guard : Guard)
    (hinner : Arrives all (⟨.arm, i⟩ :: ⟨.select, select⟩ :: outer) (i + 1))
    (hnext : Arrives all (⟨.select, select⟩ :: outer) next) :
    (⟨⟨line, guard.command⟩, ⟨.select, select⟩ :: outer, .caseOf next select⟩ :
    Cell).Flows all i := by
  cases guard <;> exact ⟨select, outer, next, rfl, rfl, hinner, hnext⟩

end

/-- What every statement of a program should satisfy at its index. -/
def Cell.Sound (all : List Cell) (j : Nat) (c : Cell) : Prop :=
  Surrounds all c.path j ∧ c.Flows all j

mutual

/-- Every statement of a block has the blocks around it that it should, and leads to where these are
    as they should be. -/
theorem Block.each_sound {all : List Cell} (b : Block) (path : List Enclosure) (i : Nat)
    (hplaced : Cell.Placed all i (b.layout path i)) (hpath : Surrounds all path i)
    (hnext : Arrives all path (i + b.size)) : Cell.Each (Cell.Sound all) i (b.layout path i) := by
  match b with
  | .nil => trivial
  | .plain line c rest =>
    obtain ⟨hhead, hrest⟩ := hplaced
    have hafter : Arrives all path (i + 1 + rest.size) :=
      hnext.of_eq (by rw [Block.size_plain]; omega)
    exact ⟨⟨hpath, Cell.flows_plain line c (rest.arrives hrest hafter)⟩,
      rest.each_sound path (i + 1) hrest (hpath.mono (by omega)) hafter⟩
  | .ifThen line test body stopLine rest =>
    simp only [Block.layout, Cell.Placed, Cell.Each, Cell.each_append,
      Block.length_layout] at hplaced ⊢
    obtain ⟨hhead, hbody, hstop, hrest⟩ := hplaced
    have hinner : Surrounds all (⟨.branch, i⟩ :: path) (i + 1) :=
      ⟨Nat.lt_succ_self i, ⟨_, hhead, rfl, rfl, trivial⟩, hpath⟩
    have hend := arrives_of_getElem? hstop
    have hafter : Arrives all path (i + 1 + body.size + 1 + rest.size) :=
      hnext.of_eq (by rw [Block.size_ifThen]; omega)
    have hexit := rest.arrives hrest hafter
    exact ⟨⟨hpath, none, _, rfl, body.arrives hbody hend, by simp, hexit⟩,
      body.each_sound _ _ hbody hinner hend,
      ⟨hinner.mono (by omega), i, path, rfl, hexit⟩,
      rest.each_sound _ _ hrest (hpath.mono (by omega)) hafter⟩
  | .ifElse line test body elseLine other stopLine rest =>
    simp only [Block.layout, Cell.Placed, Cell.Each, Cell.each_append,
      Block.length_layout] at hplaced ⊢
    obtain ⟨hhead, hbody, helse, hother, hstop, hrest⟩ := hplaced
    have hinner : Surrounds all (⟨.branch, i⟩ :: path) (i + 1) :=
      ⟨Nat.lt_succ_self i, ⟨_, hhead, rfl, rfl, trivial⟩, hpath⟩
    have hmiddle := arrives_of_getElem? helse
    have hend := arrives_of_getElem? hstop
    have hafter : Arrives all path (i + 1 + body.size + 1 + other.size + 1 + rest.size) :=
      hnext.of_eq (by rw [Block.size_ifElse]; omega)
    have hexit := rest.arrives hrest hafter
    have hother' := other.arrives hother hend
    exact ⟨⟨hpath, some _, _, rfl,
      body.arrives hbody hmiddle, by rintro _ ⟨⟩; exact hother', hexit⟩,
      body.each_sound _ _ hbody hinner hmiddle,
      ⟨hinner.mono (by omega), i, path, _, rfl, rfl, hexit⟩,
      other.each_sound _ _ hother (hinner.mono (by omega)) hend,
      ⟨hinner.mono (by omega), i, path, rfl, hexit⟩,
      rest.each_sound _ _ hrest (hpath.mono (by omega)) hafter⟩
  | .loop line header body stopLine rest =>
    simp only [Block.layout, Cell.Placed, Cell.Each, Cell.each_append,
      Block.length_layout] at hplaced ⊢
    obtain ⟨hhead, hbody, hstop, hrest⟩ := hplaced
    have hend := arrives_of_getElem? hstop
    have hafter : Arrives all path (i + 1 + body.size + 1 + rest.size) :=
      hnext.of_eq (by rw [Block.size_loop]; omega)
    have hexit := rest.arrives hrest hafter
    have hround := body.arrives hbody hend
    have hinner : Surrounds all (⟨.loop, i⟩ :: path) (i + 1) :=
      ⟨Nat.lt_succ_self i, ⟨_, hhead, rfl, rfl, _, rfl, hexit, hround⟩, hpath⟩
    exact ⟨⟨hpath, _, rfl, hround, hexit⟩, body.each_sound _ _ hbody hinner hend,
      ⟨hinner.mono (by omega), i, path, rfl, rfl⟩,
      rest.each_sound _ _ hrest (hpath.mono (by omega)) hafter⟩
  | .select line selector skipped arms stopLine rest =>
    simp only [Block.layout, Cell.Placed, Cell.Each, Cell.each_append, Block.length_layout,
      Arms.length_layout] at hplaced ⊢
    obtain ⟨hhead, hskipped, harms, hstop, hrest⟩ := hplaced
    have hinner : Surrounds all (⟨.select, i⟩ :: path) (i + 1) :=
      ⟨Nat.lt_succ_self i, ⟨_, hhead, rfl, Command.opens?_selector selector, trivial⟩,
        hpath⟩
    have hafter : Arrives all path (i + 1 + skipped.size + arms.size + 1 + rest.size) :=
      hnext.of_eq (by rw [Block.size_select]; omega)
    have hfirst : Arrives all (⟨.select, i⟩ :: path) (i + 1 + skipped.size) := by
      obtain ⟨c, hc, hcpath, -⟩ := arms.exists_ending harms hstop
      exact hcpath ▸ arrives_of_getElem? hc
    exact ⟨⟨hpath, Cell.flows_selector line _ _ selector hfirst⟩,
      skipped.each_sound _ _ hskipped hinner hfirst,
      arms.each_sound _ i _ stopLine harms (hinner.mono (by omega)) hstop,
      ⟨hinner.mono (by omega), i, path, rfl, rest.arrives hrest hafter⟩,
      rest.each_sound _ _ hrest (hpath.mono (by omega)) hafter⟩

theorem Arms.each_sound {all : List Cell} (a : Arms) (outer : List Enclosure)
    (select i stopLine : Nat)
    (hplaced : Cell.Placed all i (a.layout (⟨.select, select⟩ :: outer) select i))
    (hpath : Surrounds all (⟨.select, select⟩ :: outer) i)
    (hstop : all[i + a.size]? =
      some ⟨⟨stopLine, .endSelect⟩, ⟨.select, select⟩ :: outer, .none⟩) :
    Cell.Each (Cell.Sound all) i (a.layout (⟨.select, select⟩ :: outer) select i) := by
  match a with
  | .nil => trivial
  | .cons line guard body rest =>
    simp only [Arms.layout, Cell.Placed, Cell.Each, Cell.each_append,
      Block.length_layout] at hplaced ⊢
    obtain ⟨hhead, hbody, hrest⟩ := hplaced
    have hstop' : all[i + 1 + body.size + rest.size]? =
        some ⟨⟨stopLine, .endSelect⟩, ⟨.select, select⟩ :: outer, .none⟩ := by
      have hsize : i + 1 + body.size + rest.size = i + (Arms.cons line guard body rest).size := by
        rw [Arms.size_cons]
        omega
      rw [hsize]
      exact hstop
    obtain ⟨c, hc, hcpath, hends⟩ := rest.exists_ending hrest hstop'
    have hnext : Arrives all (⟨.select, select⟩ :: outer) (i + 1 + body.size) :=
      hcpath ▸ arrives_of_getElem? hc
    -- The body of a case runs into the statement that ends the case while the case is open.
    have hend : Arrives all (⟨.arm, i⟩ :: ⟨.select, select⟩ :: outer) (i + 1 + body.size) :=
      .inr ⟨c, hc, .inr ⟨i, select, _, by rw [hcpath], hends, hhead, Command.opens?_guard guard,
        hcpath.symm, rfl⟩⟩
    have hinner : Surrounds all (⟨.arm, i⟩ :: ⟨.select, select⟩ :: outer) (i + 1) :=
      ⟨Nat.lt_succ_self i, ⟨_, hhead, rfl, Command.opens?_guard guard, _, select, rfl, hnext⟩,
        hpath⟩
    exact ⟨⟨hpath, Cell.flows_guard line select _ outer guard
      (body.arrives hbody hend) hnext⟩,
      body.each_sound _ _ hbody hinner hend,
      rest.each_sound outer select _ stopLine hrest (hpath.mono (by omega)) hstop'⟩

end

/-- Every statement of a nested program satisfies what it should at its index. -/
theorem Block.sound_layout (b : Block) {j : Nat} {c : Cell} (h : (b.layout [] 0)[j]? = some c) :
    c.Sound (b.layout [] 0) j := by
  have hend : Arrives (b.layout [] 0) [] (0 + b.size) := .inl ⟨rfl, by simp⟩
  have heach := b.each_sound [] 0 (Cell.placed_self _) trivial hend
  simpa using (Cell.each_iff_getElem? 0 _).mp heach j c h

/-- A program starts with no block open. -/
theorem Block.arrives_layout (b : Block) : Arrives (b.layout [] 0) [] 0 :=
  b.arrives (Cell.placed_self _) (.inl ⟨rfl, by simp⟩)

end InstallScript.Script
