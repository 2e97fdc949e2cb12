import InstallScript.Proofs.Nesting.Linking

/-!
Reading nested programs back. Whatever the linker accepts is written out by a block: at every point
the statements so far are those of the blocks that are open, each with what has been read of it.
-/

namespace InstallScript.Script

/-- Puts a block behind another one. -/
def Block.append : Block → Block → Block
  | .nil, b => b
  | .plain line c rest, b => .plain line c (rest.append b)
  | .ifThen line test body stopLine rest, b => .ifThen line test body stopLine (rest.append b)
  | .ifElse line test body elseLine other stopLine rest, b =>
    .ifElse line test body elseLine other stopLine (rest.append b)
  | .loop line header body stopLine rest, b => .loop line header body stopLine (rest.append b)
  | .select line selector skipped arms stopLine rest, b =>
    .select line selector skipped arms stopLine (rest.append b)

@[simp] theorem Block.statements_append (a b : Block) :
    (a.append b).statements = a.statements ++ b.statements := by
  cases a with
  | nil => rfl
  | plain line c rest => simp [append, statements, rest.statements_append b]
  | ifThen line test body stopLine rest => simp [append, statements, rest.statements_append b]
  | ifElse line test body elseLine other stopLine rest =>
    simp [append, statements, rest.statements_append b]
  | loop line header body stopLine rest => simp [append, statements, rest.statements_append b]
  | select line selector skipped arms stopLine rest =>
    simp [append, statements, rest.statements_append b]

/-- Puts a case behind others. -/
def Arms.concat : Arms → Nat → Guard → Block → Arms
  | .nil, line, guard, body => .cons line guard body .nil
  | .cons first firstGuard firstBody rest, line, guard, body =>
    .cons first firstGuard firstBody (rest.concat line guard body)

@[simp] theorem Arms.statements_concat (a : Arms) (line : Nat) (guard : Guard) (body : Block) :
    (a.concat line guard body).statements = a.statements ++ ⟨line, guard.command⟩ ::
      body.statements := by
  cases a with
  | nil => simp [concat, statements]
  | cons first firstGuard firstBody rest => simp [concat, statements, rest.statements_concat]

/-- Statements that leave blocks open, innermost first. In every open block some statements have
    been read; in a select that has cases, the last of these is open as well. -/
inductive Reads : List OpenBlock → List Statement → Prop where
  | done (b : Block) : Reads [] b.statements
  | inIf {outer : List OpenBlock} {before : List Statement} (h : Reads outer before) (line : Nat)
      (test : Test) (body : Block) :
      Reads (.ifBlock before.length none :: outer)
        (before ++ ⟨line, test.command⟩ :: body.statements)
  | inElse {outer : List OpenBlock} {before : List Statement} (h : Reads outer before) (line : Nat)
      (test : Test) (body : Block) (elseAt elseLine : Nat) (other : Block) :
      Reads (.ifBlock before.length (some elseAt) :: outer) (before ++ ⟨line, test.command⟩ ::
        (body.statements ++ ⟨elseLine, .otherwise⟩ :: other.statements))
  | inFor {outer : List OpenBlock} {before : List Statement} (h : Reads outer before) (line : Nat)
      (header : LoopHeader) (body : Block) :
      Reads (.forBlock before.length :: outer)
        (before ++ ⟨line, .forLoop header⟩ :: body.statements)
  | inSelect {outer : List OpenBlock} {before : List Statement}
      (h : Reads outer before) (line : Nat)
      (selector : Selector) (skipped : Block) (first : Option Nat) :
      Reads (.selectBlock before.length first :: outer)
        (before ++ ⟨line, selector.command⟩ :: skipped.statements)
  | inArm {outer : List OpenBlock} {before : List Statement} (h : Reads outer before) (line : Nat)
      (selector : Selector) (skipped : Block) (first : Option Nat) (arms : Arms)
        (caseAt caseLine : Nat)
      (guard : Guard) (body : Block) :
      Reads (.caseBlock caseAt before.length :: .selectBlock before.length first :: outer)
        (before ++ ⟨line, selector.command⟩ :: (skipped.statements ++ (arms.statements ++
          ⟨caseLine, guard.command⟩ :: body.statements)))

namespace Reads

/-- Complete blocks become part of the innermost open block. -/
theorem append {blocks : List OpenBlock} {xs : List Statement} (h : Reads blocks xs) (b : Block) :
    Reads blocks (xs ++ b.statements) := by
  cases h with
  | done a => simpa using done (a.append b)
  | inIf h line test body => simpa using inIf h line test (body.append b)
  | inElse h line test body elseAt elseLine other =>
    simpa using inElse h line test body elseAt elseLine (other.append b)
  | inFor h line header body => simpa using inFor h line header (body.append b)
  | inSelect h line selector skipped first =>
    simpa using inSelect h line selector (skipped.append b) first
  | inArm h line selector skipped first arms caseAt caseLine guard body =>
    simpa using inArm h line selector skipped first arms caseAt caseLine guard (body.append b)

/-- An `EndIf` completes the innermost block. -/
theorem endIf {outer : List OpenBlock} {xs : List Statement} {start : Nat} {elseAt : Option Nat}
    (h : Reads (.ifBlock start elseAt :: outer) xs) (line : Nat) :
    Reads outer (xs ++ [⟨line, .endIf⟩]) := by
  cases h with
  | inIf h first test body =>
    simpa [Block.statements] using h.append (.ifThen first test body line .nil)
  | inElse h first test body elseAt elseLine other =>
    simpa [Block.statements] using h.append (.ifElse first test body elseLine other line .nil)

/-- An `EndFor` completes the innermost block. -/
theorem endFor {outer : List OpenBlock} {xs : List Statement} {start : Nat}
    (h : Reads (.forBlock start :: outer) xs) (line : Nat) :
    Reads outer (xs ++ [⟨line, .endFor⟩]) := by
  cases h with
  | inFor h first header body =>
    simpa [Block.statements] using h.append (.loop first header body line .nil)

/-- An `Else` splits the innermost block. -/
theorem otherwise {outer : List OpenBlock} {xs : List Statement} {start : Nat}
    (h : Reads (.ifBlock start none :: outer) xs) (line index : Nat) :
    Reads (.ifBlock start (some index) :: outer) (xs ++ [⟨line, .otherwise⟩]) := by
  cases h with
  | inIf h first test body =>
    simpa [Block.statements] using inElse h first test body index line .nil

end Reads

namespace Linker

/-- What a statement that ends a case finds: a select whose last case, if it has any, is
    complete. -/
theorem reads_closeCase {l : Linker} {xs : List Statement} (h : Reads l.blocks xs) (i : Nat)
    {start : Nat} {first : Option Nat} {outer : List OpenBlock}
    (hblocks : (l.closeCase i).blocks = .selectBlock start first :: outer) :
    ∃ before line selector skipped arms, Reads outer before ∧ start = before.length ∧
      xs = before ++ ⟨line, Selector.command selector⟩ ::
        (Block.statements skipped ++ Arms.statements arms) := by
  obtain ⟨links, parents, labels, blocks⟩ := l
  dsimp only at h
  cases h with
  | inSelect h line selector skipped first =>
    simp only [closeCase, List.cons.injEq, OpenBlock.selectBlock.injEq] at hblocks
    obtain ⟨⟨rfl, rfl⟩, rfl⟩ := hblocks
    exact ⟨_, line, selector, skipped, .nil, h, rfl, by simp [Arms.statements]⟩
  | inArm h line selector skipped first arms caseAt caseLine guard body =>
    simp only [closeCase, List.cons.injEq, OpenBlock.selectBlock.injEq] at hblocks
    obtain ⟨⟨rfl, rfl⟩, rfl⟩ := hblocks
    exact ⟨_, line, selector, skipped, arms.concat caseLine guard body, h, rfl, by simp⟩
  | done | inIf | inElse | inFor => simp [closeCase] at hblocks

/-- A `Case` or `Default` opens a case of the select that it finds. -/
theorem reads_guard {l m : Linker} {xs : List Statement} (h : Reads l.blocks xs) (line : Nat)
    (guard : Guard) (hstep : l.step xs.length ⟨line, guard.command⟩ = .ok m) :
    Reads m.blocks (xs ++ [⟨line, guard.command⟩]) := by
  rw [step_of_endsCase (endsCase_guard guard)] at hstep
  have hblocks : ∃ start first rest, (l.closeCase xs.length).blocks =
      .selectBlock start first :: rest ∧
      m.blocks = .caseBlock xs.length start :: .selectBlock start (some (first.getD xs.length)) ::
          rest := by
    cases guard
    all_goals
      simp only [Guard.command, enter] at hstep
      split at hstep
      · rename_i start first rest heq
        cases hstep
        exact ⟨start, first, rest, heq, rfl⟩
      · cases hstep
  obtain ⟨start, first, rest, hclose, hm⟩ := hblocks
  obtain ⟨before, top, selector, skipped, arms, hbefore, rfl, rfl⟩ :=
    reads_closeCase h xs.length hclose
  rw [hm]
  simpa [Block.statements] using Reads.inArm hbefore top selector skipped _ arms _ line guard .nil

/-- A plain statement opens and closes nothing. -/
theorem blocks_step_of_isPlain {l m : Linker} {i : Nat} {s : Statement}
    (hplain : s.command.isPlain = true) (hstep : l.step i s = .ok m) : m.blocks = l.blocks := by
  obtain ⟨line, command⟩ := s
  rw [step_of_not_endsCase (endsCase_of_isPlain hplain)] at hstep
  cases command with
  | ifTest | otherwise | endIf | forLoop | endFor | select | selectVar | selectString | caseOf
  | defaultCase | endSelect => simp [Command.isPlain] at hplain
  | continueLoop | exitLoop | breakCase | label =>
    simp only [enter] at hstep
    split at hstep
    all_goals cases hstep <;> rfl
  | _ =>
    cases hstep
    rfl

/-- A statement that the linker accepts goes on with the blocks that are open. -/
theorem reads_step {l m : Linker} {xs : List Statement} {s : Statement} (h : Reads l.blocks xs)
    (hkind : ∀ kind args, s.command = .instruction kind args → kind.isAction = true)
    (hstep : l.step xs.length s = .ok m) : Reads m.blocks (xs ++ [s]) := by
  obtain ⟨line, command⟩ := s
  by_cases hplain : command.isPlain = true
  · rw [blocks_step_of_isPlain hplain hstep]
    simpa [Block.statements] using h.append (.plain line ⟨command, hplain⟩ .nil)
  · cases command with
    | ifTest negated condition args =>
      cases (l.step_test line xs.length ⟨negated, condition, args⟩).symm.trans hstep
      exact .inIf h line ⟨negated, condition, args⟩ .nil
    | forLoop header =>
      cases (l.step_loop line xs.length header).symm.trans hstep
      exact .inFor h line header .nil
    | select menu =>
      cases (l.step_selector line xs.length (.menu menu)).symm.trans hstep
      exact .inSelect h line (.menu menu) .nil none
    | selectVar name =>
      cases (l.step_selector line xs.length (.named name)).symm.trans hstep
      exact .inSelect h line (.named name) .nil none
    | selectString value =>
      cases (l.step_selector line xs.length (.literal value)).symm.trans hstep
      exact .inSelect h line (.literal value) .nil none
    | otherwise =>
      simp only [step_of_not_endsCase (s := ⟨line, .otherwise⟩) rfl, enter] at hstep
      split at hstep
      · rename_i start rest hblocks
        cases hstep
        exact (hblocks ▸ h : Reads (.ifBlock start none :: rest) xs).otherwise line xs.length
      · cases hstep
    | endIf =>
      simp only [step_of_not_endsCase (s := ⟨line, .endIf⟩) rfl, enter] at hstep
      split at hstep
      · rename_i start elseAt rest hblocks
        have hread := (hblocks ▸ h : Reads (.ifBlock start elseAt :: rest) xs).endIf line
        cases elseAt <;> cases hstep <;> exact hread
      · cases hstep
    | endFor =>
      simp only [step_of_not_endsCase (s := ⟨line, .endFor⟩) rfl, enter] at hstep
      split at hstep
      · rename_i start rest hblocks
        cases hstep
        exact (hblocks ▸ h : Reads (.forBlock start :: rest) xs).endFor line
      · cases hstep
    | caseOf value =>
      exact reads_guard h line (.value value) hstep
    | defaultCase =>
      exact reads_guard h line .unmatched hstep
    | endSelect =>
      simp only [step_of_endsCase (s := ⟨line, .endSelect⟩) rfl, enter] at hstep
      split at hstep
      · rename_i start first rest hblocks
        cases hstep
        obtain ⟨before, top, selector, skipped, arms, hbefore, -, rfl⟩ :=
          reads_closeCase h xs.length hblocks
        simpa [Block.statements] using hbefore.append (.select top selector skipped arms line .nil)
      · cases hstep
    | instruction kind args =>
      exact absurd (hkind kind args rfl) hplain
    | _ => exact absurd rfl hplain

/-- Statements that the linker accepts leave the blocks open that they say. -/
theorem reads_run {l m : Linker} {xs ys : List Statement} (h : Reads l.blocks xs)
    (hkind : ∀ s ∈ ys, ∀ kind args, s.command = .instruction kind args →
      kind.isAction = true)
    (hrun : l.run xs.length ys = .ok m) : Reads m.blocks (xs ++ ys) := by
  induction ys generalizing l xs with
  | nil =>
    cases hrun
    simpa using h
  | cons s rest ih =>
    obtain ⟨l', hstep, hrest⟩ := run_cons_eq_ok_iff.mp hrun
    have hread := reads_step h (hkind s List.mem_cons_self) hstep
    have hnext := ih hread (fun t ht => hkind t (List.mem_cons_of_mem s ht)) (by simpa using hrest)
    simpa using hnext

/-- Where no block is open at the end, the statements are those of a block. -/
theorem exists_block_of_checkClosed {l : Linker} {xs : List Statement} (h : Reads l.blocks xs)
    (hclosed : l.checkClosed xs.toArray = .ok ()) :
    l.blocks = [] ∧ ∃ b : Block, b.statements = xs := by
  obtain ⟨links, parents, labels, blocks⟩ := l
  dsimp only at h
  cases h with
  | done b => exact ⟨rfl, b, rfl⟩
  | _ => simp [checkClosed, OpenBlock.isCase, OpenBlock.start] at hclosed

end Linker

end InstallScript.Script
