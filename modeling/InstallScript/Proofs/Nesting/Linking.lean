import InstallScript.Proofs.Nesting.Block

/-!
Linking nested programs. Matching the statements of a block adds exactly its layout, and succeeds
exactly if the statements of the layout fit: loop controls and breaks have their block around them,
and no label is declared twice.
-/

namespace InstallScript.Script

/-- An open block as one around the statements that follow. -/
def OpenBlock.enclosure : OpenBlock → Enclosure
  | .ifBlock start _ => ⟨.branch, start⟩
  | .forBlock start => ⟨.loop, start⟩
  | .selectBlock start _ => ⟨.select, start⟩
  | .caseBlock start _ => ⟨.arm, start⟩

theorem OpenBlock.start_enclosure (b : OpenBlock) : b.enclosure.start = b.start := by
  cases b <;> rfl

/-- The innermost open loop is the innermost loop around the next statement. -/
theorem OpenBlock.findSome?_forStart? (blocks : List OpenBlock) :
    blocks.findSome? OpenBlock.forStart? = Enclosure.loop? (blocks.map OpenBlock.enclosure) := by
  induction blocks with
  | nil => rfl
  | cons b rest ih =>
    rw [List.findSome?_cons, List.map_cons, Enclosure.loop?, List.find?_cons]
    cases b with
    | forBlock start => rfl
    | _ => exact ih

/-- The case that a `Break` ends is the one the blocks around it say. -/
theorem Linker.breakTarget?_eq (blocks : List OpenBlock) :
    Linker.breakTarget? blocks = Enclosure.arm? (blocks.map OpenBlock.enclosure) := by
  induction blocks with
  | nil => rfl
  | cons b rest ih =>
    rw [Linker.breakTarget?, List.dropWhile_cons, List.map_cons, Enclosure.arm?, List.find?_cons]
    cases b with
    | ifBlock start elseAt => exact ih
    | _ => rfl

namespace Cell

/-- The start of the innermost block around a statement. -/
def parent (c : Cell) : Option Nat :=
  c.path.head?.map Enclosure.start

/-- The labels known after the statement at index `i`, latest first. -/
def declare (c : Cell) (i : Nat) (labels : List (String × Nat)) : List (String × Nat) :=
  match c.statement.command with
  | .label name => (name, i) :: labels
  | _ => labels

/-- The labels known after statements, the first of which has index `i`. -/
def declareAll (i : Nat) (labels : List (String × Nat)) : List Cell → List (String × Nat)
  | [] => labels
  | c :: rest => declareAll (i + 1) (c.declare i labels) rest

/-- Whether a statement has the block around it that it needs, and declares no label that is already
    known. -/
def Fits (c : Cell) (labels : List (String × Nat)) : Prop :=
  match c.statement.command with
  | .continueLoop | .exitLoop => (Enclosure.loop? c.path).isSome
  | .breakCase => (Enclosure.arm? c.path).isSome
  | .label name => labels.lookup name = none
  | _ => True

/-- Whether statements fit one after the other. -/
def FitAll (i : Nat) (labels : List (String × Nat)) : List Cell → Prop
  | [] => True
  | c :: rest => c.Fits labels ∧ FitAll (i + 1) (c.declare i labels) rest

theorem declare_of_ne_label (c : Cell) (i : Nat) (labels : List (String × Nat))
    (h : ∀ name, c.statement.command ≠ .label name) : c.declare i labels = labels := by
  unfold declare
  split
  · rename_i name heq
    exact absurd heq (h name)
  · rfl

theorem declareAll_append (i : Nat) (labels : List (String × Nat)) (xs ys : List Cell) :
    declareAll i labels (xs ++ ys) = declareAll (i + xs.length) (declareAll i labels xs) ys := by
  induction xs generalizing i labels with
  | nil => rfl
  | cons c rest ih =>
    simp only [List.cons_append, declareAll, ih, List.length_cons]
    congr 1
    omega

/-- Only the statements themselves declare labels. -/
theorem declareAll_congr (i : Nat) (labels : List (String × Nat)) {xs ys : List Cell}
    (h : xs.map Cell.statement = ys.map Cell.statement) :
    declareAll i labels xs = declareAll i labels ys := by
  induction xs generalizing i labels ys with
  | nil => simp_all
  | cons c rest ih =>
    cases ys with
    | nil => simp at h
    | cons d others =>
      simp only [List.map_cons, List.cons.injEq] at h
      simp only [declareAll, declare, h.1]
      exact ih _ _ h.2

theorem fitAll_append (i : Nat) (labels : List (String × Nat)) (xs ys : List Cell) :
    FitAll i labels (xs ++ ys) ↔
      FitAll i labels xs ∧ FitAll (i + xs.length) (declareAll i labels xs) ys := by
  induction xs generalizing i labels with
  | nil => simp [FitAll, declareAll]
  | cons c rest ih =>
    have hi : i + 1 + rest.length = i + (rest.length + 1) := by omega
    simp only [List.cons_append, FitAll, declareAll, ih, List.length_cons, and_assoc, hi]

end Cell

namespace Linker

/-- The blocks around the next statement. -/
def path (l : Linker) : List Enclosure :=
  l.blocks.map OpenBlock.enclosure

/-- Adds statements that leave the open blocks as they are. -/
def extend (l : Linker) (cells : List Cell) : Linker where
  links := l.links ++ (cells.map Cell.link).toArray
  parents := l.parents ++ (cells.map Cell.parent).toArray
  labels := Cell.declareAll l.links.size l.labels cells
  blocks := l.blocks

@[simp] theorem extend_nil (l : Linker) : l.extend [] = l := by
  simp [extend, Cell.declareAll]

@[simp] theorem size_links_extend (l : Linker) (cells : List Cell) :
    (l.extend cells).links.size = l.links.size + cells.length := by
  simp [extend]

theorem extend_append (l : Linker) (xs ys : List Cell) :
    l.extend (xs ++ ys) = (l.extend xs).extend ys := by
  simp [extend, Cell.declareAll_append, Array.append_assoc]

theorem run_cons_eq_ok_iff {l r : Linker} {i : Nat} {s : Statement} {rest : List Statement} :
    l.run i (s :: rest) = .ok r ↔ ∃ m, l.step i s = .ok m ∧ m.run (i + 1) rest = .ok r := by
  rw [run]
  cases l.step i s with
  | error e => simp [bind, Except.bind]
  | ok m => simp [bind, Except.bind]

theorem run_cons_of_step {l l' : Linker} {i : Nat} {s : Statement} (h : l.step i s = .ok l')
    (rest : List Statement) : l.run i (s :: rest) = l'.run (i + 1) rest := by
  rw [run, h]
  rfl

/-- The parent that is recorded for the next statement. -/
theorem head?_start (l : Linker) :
    l.blocks.head?.map OpenBlock.start = l.path.head?.map Enclosure.start := by
  unfold path
  cases l.blocks with
  | nil => rfl
  | cons b rest => simp [OpenBlock.start_enclosure]

/-- Setting the link of a statement after others have been added is the same as adding it with that
    link. -/
theorem setIfInBounds_push_append (links : Array Link) (first link : Link) (others : List Link) :
    (links.push first ++ others.toArray).setIfInBounds links.size link =
      links ++ (link :: others).toArray := by
  apply Array.toList_inj.mp
  rw [Array.toList_setIfInBounds]
  simp

theorem endsCase_of_isPlain {c : Command} (h : c.isPlain = true) : endsCase c = false := by
  cases c with
  | instruction kind args =>
    simp only [Command.isPlain] at h
    cases kind <;> simp [Keyword.isAction] at h <;> rfl
  | _ => simp [Command.isPlain] at h <;> rfl

/-- A statement that declares no label is added with the link it is given afterwards. -/
theorem setLink_add (l : Linker) (s : Statement) (link : Link)
    (h : ∀ name, s.command ≠ .label name) :
    l.add.setLink l.links.size link = l.extend [⟨s, l.path, link⟩] := by
  have hset := setIfInBounds_push_append l.links .none link []
  have hlabels := Cell.declare_of_ne_label ⟨s, l.path, link⟩ l.links.size l.labels h
  simp_all [setLink, add, extend, Cell.declareAll, Cell.parent, head?_start]

/-- A statement that declares no label is added without a link. -/
theorem add_eq_extend (l : Linker) (s : Statement) (h : ∀ name, s.command ≠ .label name) :
    l.add = l.extend [⟨s, l.path, .none⟩] := by
  have hlabels := Cell.declare_of_ne_label ⟨s, l.path, .none⟩ l.links.size l.labels h
  simp [add, extend, Cell.declareAll, hlabels, Cell.parent, head?_start]

/-- A plain statement is added as its layout says, provided it fits. -/
theorem step_plain_eq_ok_iff (l l' : Linker) (line : Nat) (c : PlainCommand) :
    l.step l.links.size ⟨line, c.command⟩ = .ok l' ↔
      (⟨⟨line, c.command⟩, l.path, Enclosure.plainLink l.path c.command⟩ :
      Cell).Fits l.labels ∧
      l.extend [⟨⟨line, c.command⟩, l.path, Enclosure.plainLink l.path c.command⟩] =
        l' := by
  obtain ⟨c, hc⟩ := c
  simp only [step, endsCase_of_isPlain hc, Bool.false_eq_true, if_false]
  cases c with
  | continueLoop =>
    have hfind : l.add.blocks.findSome? OpenBlock.forStart? = Enclosure.loop? l.path :=
      OpenBlock.findSome?_forStart? l.blocks
    simp only [enter, hfind, Cell.Fits, Enclosure.plainLink]
    cases Enclosure.loop? l.path with
    | none => simp
    | some start => simp [l.setLink_add ⟨line, .continueLoop⟩]
  | exitLoop =>
    have hfind : l.add.blocks.findSome? OpenBlock.forStart? = Enclosure.loop? l.path :=
      OpenBlock.findSome?_forStart? l.blocks
    simp only [enter, hfind, Cell.Fits, Enclosure.plainLink]
    cases Enclosure.loop? l.path with
    | none => simp
    | some start => simp [l.setLink_add ⟨line, .exitLoop⟩]
  | breakCase =>
    have hfind : breakTarget? l.add.blocks = Enclosure.arm? l.path := breakTarget?_eq l.blocks
    simp only [enter, hfind, Cell.Fits, Enclosure.plainLink]
    cases Enclosure.arm? l.path with
    | none => simp
    | some start => simp [l.setLink_add ⟨line, .breakCase⟩]
  | label name =>
    simp only [enter, add, Cell.Fits, Enclosure.plainLink]
    cases l.labels.lookup name with
    | none => simp [extend, Cell.declareAll, Cell.declare, Cell.parent, head?_start]
    | some index => simp
  | ifTest | otherwise | endIf | forLoop | endFor | select | selectVar | selectString | caseOf
  | defaultCase | endSelect => simp [Command.isPlain] at hc
  | _ =>
    simp [enter, add, Cell.Fits, Enclosure.plainLink, extend, Cell.declareAll, Cell.declare,
      Cell.parent, head?_start]

/-- Adds statements and says which blocks are open after them. -/
def grow (l : Linker) (cells : List Cell) (blocks : List OpenBlock) : Linker :=
  { l.extend cells with blocks }

theorem extend_eq_grow (l : Linker) (cells : List Cell) : l.extend cells = l.grow cells l.blocks :=
  rfl

@[simp] theorem labels_grow (l : Linker) (cells : List Cell) (blocks : List OpenBlock) :
    (l.grow cells blocks).labels = Cell.declareAll l.links.size l.labels cells := rfl

@[simp] theorem size_links_grow (l : Linker) (cells : List Cell) (blocks : List OpenBlock) :
    (l.grow cells blocks).links.size = l.links.size + cells.length :=
  l.size_links_extend cells

theorem extend_grow (l : Linker) (cells more : List Cell) (blocks : List OpenBlock) :
    (l.grow cells blocks).extend more = l.grow (cells ++ more) blocks := by
  simp only [grow, extend_append]
  rfl

theorem add_grow (l : Linker) (cells : List Cell) (blocks : List OpenBlock) (s : Statement)
    (h : ∀ name, s.command ≠ .label name) :
    (l.grow cells blocks).add =
      l.grow (cells ++ [⟨s, blocks.map OpenBlock.enclosure, .none⟩]) blocks := by
  rw [add_eq_extend _ s h, extend_grow]
  rfl

/-- A statement among those added can be given another link afterwards. -/
theorem setLink_grow (l : Linker) (before after : List Cell) (c : Cell) (link : Link)
    (blocks : List OpenBlock) (i : Nat) (hi : i = l.links.size + before.length) :
    (l.grow (before ++ c :: after) blocks).setLink i link =
      l.grow (before ++ { c with link } :: after) blocks := by
  have hset := setIfInBounds_push_append (l.links ++ (before.map Cell.link).toArray) c.link link
    (after.map Cell.link)
  have hlabels : Cell.declareAll l.links.size l.labels (before ++ c :: after) =
      Cell.declareAll l.links.size l.labels (before ++ { c with link } :: after) := by
    simp only [Cell.declareAll_append, Cell.declareAll]
    rfl
  subst hi
  simp only [setLink, grow, extend, hlabels, List.map_append, List.map_cons,
    Linker.mk.injEq, and_true]
  refine ⟨?_, rfl⟩
  simp

@[simp] theorem endsCase_test (t : Test) : endsCase t.command = false := by
  obtain ⟨negated, condition, args⟩ := t
  cases negated <;> rfl

@[simp] theorem endsCase_selector (s : Selector) : endsCase s.command = false := by
  cases s with
  | menu m =>
    obtain ⟨⟨multi, previews, descriptions⟩, title, choices⟩ := m
    cases multi <;> cases previews <;> cases descriptions <;> rfl
  | named name => rfl
  | literal value => rfl

@[simp] theorem endsCase_guard (g : Guard) : endsCase g.command = true := by
  cases g <;> rfl

theorem step_of_not_endsCase {s : Statement} (h : endsCase s.command = false) (l : Linker)
    (i : Nat) :
    l.step i s = l.add.enter i s := by
  simp [step, h]

theorem step_of_endsCase {s : Statement} (h : endsCase s.command = true) (l : Linker) (i : Nat) :
    l.step i s = (l.closeCase i).add.enter i s := by
  simp [step, h]

/-- The labels after another statement, whatever links were set meanwhile. -/
theorem labels_extend_concat (l : Linker) (cells all : List Cell) (last : Cell)
    (blocks : List OpenBlock) {i : Nat} (hi : i = l.links.size + cells.length)
    (h : all.map Cell.statement = (cells ++ [last]).map Cell.statement) :
    (l.extend all).labels = last.declare i (l.grow cells blocks).labels := by
  subst hi
  calc (l.extend all).labels
      = Cell.declareAll l.links.size l.labels (cells ++ [last]) := Cell.declareAll_congr _ _ h
    _ = last.declare (l.links.size + cells.length) (l.grow cells blocks).labels := by
      rw [Cell.declareAll_append]
      rfl

@[simp] theorem labels_closeCase (l : Linker) (i : Nat) : (l.closeCase i).labels = l.labels := by
  unfold closeCase
  split <;> rfl

section Steps

variable (l : Linker) (cells : List Cell) (outer : List OpenBlock) (line i : Nat)

theorem step_test (test : Test) :
    l.step i ⟨line, test.command⟩ =
      .ok (l.grow [⟨⟨line, test.command⟩, l.path, .none⟩]
        (.ifBlock i none :: l.blocks)) := by
  rw [step_of_not_endsCase (endsCase_test test),
    l.add_eq_extend ⟨line, test.command⟩ (by simp [Test.command])]
  rfl

theorem step_loop (header : LoopHeader) :
    l.step i ⟨line, .forLoop header⟩ =
      .ok (l.grow [⟨⟨line, .forLoop header⟩, l.path, .none⟩]
        (.forBlock i :: l.blocks)) := by
  rw [step_of_not_endsCase rfl, l.add_eq_extend ⟨line, .forLoop header⟩ (by simp)]
  rfl

theorem step_selector (selector : Selector) :
    l.step i ⟨line, selector.command⟩ =
      .ok (l.grow [⟨⟨line, selector.command⟩, l.path, .none⟩]
        (.selectBlock i none :: l.blocks)) := by
  have hlabel : ∀ name, selector.command ≠ .label name := by
    cases selector <;> simp [Selector.command]
  rw [step_of_not_endsCase (endsCase_selector selector),
    l.add_eq_extend ⟨line, selector.command⟩ hlabel]
  cases selector <;> rfl

theorem step_otherwise (start : Nat) :
    (l.grow cells (.ifBlock start none :: outer)).step i ⟨line, .otherwise⟩ =
      .ok (l.grow
        (cells ++ [⟨⟨line, .otherwise⟩, ⟨.branch, start⟩ :: outer.map OpenBlock.enclosure, .none⟩])
        (.ifBlock start (some i) :: outer)) := by
  rw [step_of_not_endsCase rfl, l.add_grow _ _ ⟨line, .otherwise⟩ (by simp)]
  rfl

/-- An `EndIf` links the `If` it closes. -/
theorem step_endIf (head : Cell) (body : List Cell) :
    (l.grow (head :: body) (.ifBlock l.links.size none :: l.blocks)).step i ⟨line, .endIf⟩ =
      .ok (l.extend ({ head with link := .ifTest none i } ::
        (body ++ [⟨⟨line, .endIf⟩, ⟨.branch, l.links.size⟩ :: l.path, .none⟩]))) := by
  rw [step_of_not_endsCase rfl, l.add_grow _ _ ⟨line, .endIf⟩ (by simp)]
  exact congrArg Except.ok (l.setLink_grow [] _ head (.ifTest none i) l.blocks l.links.size rfl)

/-- An `EndIf` links the `If` it closes and the `Else` of that one. -/
theorem step_endIf_of_else (head middle : Cell) (body other : List Cell) (m : Nat)
    (hm : m = l.links.size + 1 + body.length) :
    (l.grow (head :: (body ++ middle :: other)) (.ifBlock l.links.size (some m) :: l.blocks)).step i
        ⟨line, .endIf⟩ =
      .ok (l.extend ({ head with link := .ifTest (some m) i } ::
        (body ++ { middle with link := .otherwise i } ::
          (other ++ [⟨⟨line, .endIf⟩, ⟨.branch, l.links.size⟩ :: l.path, .none⟩])))) := by
  rw [step_of_not_endsCase rfl, l.add_grow _ _ ⟨line, .endIf⟩ (by simp)]
  refine congrArg Except.ok ((congrArg (setLink · m (.otherwise i))
    (l.setLink_grow [] _ head (.ifTest (some m) i) l.blocks l.links.size rfl)).trans ?_)
  have hlink := l.setLink_grow ({ head with link := .ifTest (some m) i } :: body)
    (other ++ [⟨⟨line, .endIf⟩, ⟨.branch, l.links.size⟩ :: l.path, .none⟩])
    middle (.otherwise i) l.blocks m (by simp only [List.length_cons]; omega)
  simpa [OpenBlock.enclosure, path, extend_eq_grow] using hlink

/-- An `EndFor` and its `For` are linked to each other. -/
theorem step_endFor (head : Cell) (body : List Cell) (hi : i = l.links.size + 1 + body.length) :
    (l.grow (head :: body) (.forBlock l.links.size :: l.blocks)).step i ⟨line, .endFor⟩ =
      .ok (l.extend ({ head with link := .loop i } ::
        (body ++ [⟨⟨line, .endFor⟩, ⟨.loop, l.links.size⟩ :: l.path,
          .loopControl l.links.size⟩]))) := by
  rw [step_of_not_endsCase rfl, l.add_grow _ _ ⟨line, .endFor⟩ (by simp)]
  refine congrArg Except.ok ((congrArg (setLink · i (.loopControl l.links.size))
    (l.setLink_grow [] _ head (.loop i) l.blocks l.links.size rfl)).trans ?_)
  have hlink := l.setLink_grow ({ head with link := .loop i } :: body) []
    ⟨⟨line, .endFor⟩, ⟨.loop, l.links.size⟩ :: l.path, .none⟩
    (.loopControl l.links.size) l.blocks i (by simp only [List.length_cons]; omega)
  simpa [OpenBlock.enclosure, path, extend_eq_grow] using hlink

/-- A `Case` or `Default` opens a case of the innermost select. -/
theorem enter_guard (guard : Guard) (start : Nat) (first : Option Nat) :
    (l.grow cells (.selectBlock start first :: outer)).add.enter i ⟨line, guard.command⟩ =
      .ok (l.grow
        (cells ++ [⟨⟨line, guard.command⟩,
          ⟨.select, start⟩ :: outer.map OpenBlock.enclosure, .none⟩])
        (.caseBlock i start :: .selectBlock start (some (first.getD i)) :: outer)) := by
  have hlabel : ∀ name, guard.command ≠ .label name := by cases guard <;> simp [Guard.command]
  rw [l.add_grow _ _ ⟨line, guard.command⟩ hlabel]
  cases guard <;> rfl

/-- The statement after a case links it. -/
theorem closeCase_grow (head : Cell) (body : List Cell) (start c : Nat)
    (hc : c = l.links.size + cells.length) :
    (l.grow (cells ++ head :: body) (.caseBlock c start :: outer)).closeCase i =
      l.grow (cells ++ { head with link := .caseOf i start } :: body) outer :=
  l.setLink_grow cells body head (.caseOf i start) outer c hc

/-- An `EndSelect` links the select it closes. -/
theorem enter_endSelect (head : Cell) (body : List Cell) (first : Option Nat) :
    (l.grow (head :: body) (.selectBlock l.links.size first :: l.blocks)).add.enter i
      ⟨line, .endSelect⟩ =
      .ok (l.extend ({ head with link := .select (first.getD i) i } ::
        (body ++ [⟨⟨line, .endSelect⟩, ⟨.select, l.links.size⟩ :: l.path, .none⟩]))) := by
  rw [l.add_grow _ _ ⟨line, .endSelect⟩ (by simp)]
  exact congrArg Except.ok
    (l.setLink_grow [] _ head (.select (first.getD i) i) l.blocks l.links.size rfl)

end Steps

end Linker

section Structural

/-! Statements that open, split or close a block always fit and declare nothing. -/

variable (line i : Nat) (path : List Enclosure) (link : Link) (labels : List (String × Nat))

@[simp] theorem Cell.fits_test (t : Test) :
    (⟨⟨line, t.command⟩, path, link⟩ : Cell).Fits labels := trivial

@[simp] theorem Cell.fits_selector (s : Selector) :
    (⟨⟨line, s.command⟩, path, link⟩ : Cell).Fits labels := by
  cases s <;> trivial

@[simp] theorem Cell.declare_selector (s : Selector) :
    (⟨⟨line, s.command⟩, path, link⟩ : Cell).declare i labels = labels := by
  cases s <;> rfl

@[simp] theorem Cell.fits_guard (g : Guard) :
    (⟨⟨line, g.command⟩, path, link⟩ : Cell).Fits labels := by
  cases g <;> trivial

end Structural

/-- Matching statements leads from one state to another, provided that the statements fit. -/
structure Linker.Leads (l : Linker) (xs : List Statement) (cells : List Cell) (m : Linker) :
    Prop where
  length : cells.length = xs.length
  size : m.links.size = l.links.size + xs.length
  labels : m.labels = Cell.declareAll l.links.size l.labels cells
  run : ∀ ys r, l.run l.links.size (xs ++ ys) = .ok r ↔
    Cell.FitAll l.links.size l.labels cells ∧ m.run m.links.size ys = .ok r

namespace Linker.Leads

theorem trans {l m n : Linker} {xs ys : List Statement} {cs ds : List Cell}
    (h : l.Leads xs cs m) (h' : m.Leads ys ds n) : l.Leads (xs ++ ys) (cs ++ ds) n where
  length := by simp [h.length, h'.length]
  size := by
    rw [h'.size, h.size, List.length_append]
    omega
  labels := by rw [h'.labels, h.labels, h.size, Cell.declareAll_append, h.length]
  run zs r := by
    rw [List.append_assoc, h.run, h'.run, Cell.fitAll_append, h.length, ← h.size,
      h.labels, and_assoc]

/-- A statement that opens, splits or closes a block. -/
theorem step {l m : Linker} {s : Statement} {i : Nat} (c : Cell) (hi : l.links.size = i)
    (h : l.step i s = .ok m) (hsize : m.links.size = i + 1)
    (hlabels : m.labels = c.declare i l.labels) (hfits : c.Fits l.labels) : l.Leads [s] [c] m where
  length := rfl
  size := by rw [hsize, hi, List.length_singleton]
  labels := by rw [hlabels, hi, Cell.declareAll, Cell.declareAll]
  run ys r := by
    rw [List.singleton_append, hi, run_cons_of_step h, hsize]
    simp [Cell.FitAll, hfits]

theorem plain (l : Linker) (line : Nat) (c : PlainCommand) :
    let cell : Cell := ⟨⟨line, c.command⟩, l.path, Enclosure.plainLink l.path c.command⟩
    l.Leads [⟨line, c.command⟩] [cell] (l.extend [cell]) where
  length := rfl
  size := by simp
  labels := rfl
  run ys r := by
    rw [List.singleton_append, run_cons_eq_ok_iff]
    constructor
    · rintro ⟨m, hstep, hrun⟩
      obtain ⟨hfits, rfl⟩ := (l.step_plain_eq_ok_iff m line c).mp hstep
      exact ⟨⟨hfits, trivial⟩, by simpa using hrun⟩
    · rintro ⟨hfits, hrun⟩
      exact ⟨_, (l.step_plain_eq_ok_iff _ line c).mpr ⟨hfits.1, rfl⟩, by simpa using hrun⟩

/-- The same transition with its parts written differently. -/
theorem congr {l m m' : Linker} {xs xs' : List Statement} {cs cs' : List Cell} (h : l.Leads xs cs m)
    (hxs : xs = xs') (hcs : cs = cs') (hm : m = m') : l.Leads xs' cs' m' := by
  subst hxs hcs hm
  exact h

/-- What follows statements that leave the open blocks as they are. -/
theorem followed {l : Linker} {xs ys : List Statement} {cs ds : List Cell}
    (h : l.Leads xs cs (l.extend cs)) (h' : (l.extend cs).Leads ys ds ((l.extend cs).extend ds)) :
    l.Leads (xs ++ ys) (cs ++ ds) (l.extend (cs ++ ds)) :=
  (h.trans h').congr rfl rfl (l.extend_append cs ds).symm

section Brackets

variable (l : Linker) (line stopLine : Nat) {xs : List Statement} {cells : List Cell}

theorem ifThen (test : Test)
    (hbody :
      (l.grow [⟨⟨line, test.command⟩, l.path, .none⟩]
        (.ifBlock l.links.size none :: l.blocks)).Leads xs cells
      (l.grow (⟨⟨line, test.command⟩, l.path, .none⟩ :: cells)
        (.ifBlock l.links.size none :: l.blocks))) :
    let all : List Cell :=
      ⟨⟨line, test.command⟩, l.path, .ifTest none (l.links.size + 1 + cells.length)⟩ ::
        (cells ++ [⟨⟨stopLine, .endIf⟩, ⟨.branch, l.links.size⟩ :: l.path, .none⟩])
    l.Leads (⟨line, test.command⟩ :: (xs ++ [⟨stopLine, .endIf⟩])) all (l.extend all) := by
  intro all
  have hhead := step ⟨⟨line, test.command⟩, l.path,
    .ifTest none (l.links.size + 1 + cells.length)⟩ rfl
    (l.step_test line l.links.size test) (by simp) rfl trivial
  have hstop := step ⟨⟨stopLine, .endIf⟩, ⟨.branch, l.links.size⟩ :: l.path, .none⟩
    (by simp; omega)
    (l.step_endIf stopLine (l.links.size + 1 + cells.length)
      ⟨⟨line, test.command⟩, l.path, .none⟩ cells)
    (by simp; omega) (l.labels_extend_concat _ _ _ _ (by simp; omega) (by simp)) trivial
  exact (hhead.trans hbody).trans hstop

theorem ifElse (test : Test) (elseLine middle : Nat) {ys : List Statement} {others : List Cell}
    (hbody : (l.grow [⟨⟨line, test.command⟩, l.path, .none⟩]
      (.ifBlock l.links.size none :: l.blocks)).Leads xs
      cells (l.grow (⟨⟨line, test.command⟩, l.path, .none⟩ :: cells)
        (.ifBlock l.links.size none :: l.blocks)))
    (hmiddle : middle = l.links.size + 1 + cells.length)
    (hother : (l.grow (⟨⟨line, test.command⟩, l.path, .none⟩ ::
          (cells ++ [⟨⟨elseLine, .otherwise⟩, ⟨.branch, l.links.size⟩ :: l.path, .none⟩]))
        (.ifBlock l.links.size (some middle) :: l.blocks)).Leads ys others
      (l.grow (⟨⟨line, test.command⟩, l.path, .none⟩ ::
          (cells ++
            ⟨⟨elseLine, .otherwise⟩, ⟨.branch, l.links.size⟩ :: l.path, .none⟩ :: others))
        (.ifBlock l.links.size (some middle) :: l.blocks))) :
    let inner := ⟨.branch, l.links.size⟩ :: l.path
    let stop := middle + 1 + others.length
    let all : List Cell := ⟨⟨line, test.command⟩, l.path, .ifTest (some middle) stop⟩ ::
      (cells ++ ⟨⟨elseLine, .otherwise⟩, inner, .otherwise stop⟩ ::
        (others ++ [⟨⟨stopLine, .endIf⟩, inner, .none⟩]))
    l.Leads (⟨line, test.command⟩ ::
      (xs ++ ⟨elseLine, .otherwise⟩ :: (ys ++ [⟨stopLine, .endIf⟩]))) all
      (l.extend all) := by
  intro inner stop all
  have hhead := step ⟨⟨line, test.command⟩, l.path, .ifTest (some middle) stop⟩ rfl
    (l.step_test line l.links.size test) (by simp) rfl trivial
  have helse := step ⟨⟨elseLine, .otherwise⟩, inner, .otherwise stop⟩ (by simp; omega)
    (l.step_otherwise (⟨⟨line, test.command⟩, l.path, .none⟩ :: cells) l.blocks elseLine
      middle l.links.size)
    (by simp; omega) (l.labels_extend_concat _ _ _ _ (by simp; omega) (by simp)) trivial
  have hstop := step ⟨⟨stopLine, .endIf⟩, inner, .none⟩ (by simp; omega)
    (l.step_endIf_of_else stopLine stop ⟨⟨line, test.command⟩, l.path, .none⟩
      ⟨⟨elseLine, .otherwise⟩, inner, .none⟩ cells others middle hmiddle)
    (by simp; omega) (l.labels_extend_concat _ _ _ _ (by simp; omega) (by simp)) trivial
  have hall := (((hhead.trans hbody).trans helse).trans hother).trans hstop
  exact hall.congr (by simp) (by simp [all]) rfl

theorem loop (header : LoopHeader)
    (hbody :
      (l.grow [⟨⟨line, .forLoop header⟩, l.path, .none⟩]
        (.forBlock l.links.size :: l.blocks)).Leads xs cells
      (l.grow (⟨⟨line, .forLoop header⟩, l.path, .none⟩ :: cells)
        (.forBlock l.links.size :: l.blocks))) :
    let all : List Cell :=
      ⟨⟨line, .forLoop header⟩, l.path, .loop (l.links.size + 1 + cells.length)⟩ ::
        (cells ++
          [⟨⟨stopLine, .endFor⟩, ⟨.loop, l.links.size⟩ :: l.path, .loopControl l.links.size⟩])
    l.Leads (⟨line, .forLoop header⟩ :: (xs ++ [⟨stopLine, .endFor⟩])) all (l.extend all) := by
  intro all
  have hhead := step ⟨⟨line, .forLoop header⟩, l.path,
    .loop (l.links.size + 1 + cells.length)⟩ rfl
    (l.step_loop line l.links.size header) (by simp) rfl trivial
  have hstop := step ⟨⟨stopLine, .endFor⟩, ⟨.loop, l.links.size⟩ :: l.path,
    .loopControl l.links.size⟩
    (by simp; omega)
    (l.step_endFor stopLine (l.links.size + 1 + cells.length)
      ⟨⟨line, .forLoop header⟩, l.path, .none⟩ cells rfl)
    (by simp; omega) (l.labels_extend_concat _ _ _ _ (by simp; omega) (by simp)) trivial
  exact (hhead.trans hbody).trans hstop

theorem select (selector : Selector) (link : Link) {ys : List Statement} {more : List Cell}
    (hskipped :
      (l.grow [⟨⟨line, selector.command⟩, l.path, .none⟩]
        (.selectBlock l.links.size none :: l.blocks)).Leads xs cells
      (l.grow (⟨⟨line, selector.command⟩, l.path, .none⟩ :: cells)
        (.selectBlock l.links.size none :: l.blocks)))
    (harms :
      (l.grow (⟨⟨line, selector.command⟩, l.path, .none⟩ :: cells)
        (.selectBlock l.links.size none :: l.blocks)).Leads ys more
      (l.extend (⟨⟨line, selector.command⟩, l.path, link⟩ :: (cells ++ more)))) :
    let all : List Cell := ⟨⟨line, selector.command⟩, l.path, link⟩ :: (cells ++ more)
    l.Leads (⟨line, selector.command⟩ :: (xs ++ ys)) all (l.extend all) := by
  intro all
  have hhead := step ⟨⟨line, selector.command⟩, l.path, link⟩ rfl
    (l.step_selector line l.links.size selector)
    (by simp) (by simp [Cell.declareAll]) (by simp)
  exact (hhead.trans hskipped).trans harms

end Brackets

end Linker.Leads

mutual

/-- Matching the statements of a block adds its layout. -/
theorem Block.leads (b : Block) (l : Linker) (i : Nat) (hi : l.links.size = i) :
    l.Leads b.statements (b.layout l.path i) (l.extend (b.layout l.path i)) := by
  subst hi
  match b with
  | .nil => exact ⟨rfl, by simp [Block.layout, Block.statements], rfl, by
      simp [Block.layout, Block.statements, Cell.FitAll]⟩
  | .plain line c rest =>
    exact (Linker.Leads.plain l line c).followed (rest.leads _ (l.links.size + 1) (by simp))
  | .ifThen line test body stopLine rest =>
    have hbody := (body.leads (l.grow [⟨⟨line, test.command⟩, l.path, .none⟩]
      (.ifBlock l.links.size none :: l.blocks)) (l.links.size + 1) (by simp)).congr rfl rfl
        (l.extend_grow _ _ _)
    have hif := Linker.Leads.ifThen l line stopLine test hbody
    rw [Block.length_layout] at hif
    have hall := hif.followed (rest.leads _ (l.links.size + 1 + body.size + 1) (by simp; omega))
    refine hall.congr (by simp [Block.statements]) ?_ ?_
    · simp only [Block.layout, List.append_assoc, List.cons_append, List.nil_append]
      rfl
    · simp only [Block.layout, List.append_assoc, List.cons_append, List.nil_append]
      rfl
  | .ifElse line test body elseLine other stopLine rest =>
    have hbody := (body.leads (l.grow [⟨⟨line, test.command⟩, l.path, .none⟩]
      (.ifBlock l.links.size none :: l.blocks)) (l.links.size + 1) (by simp)).congr rfl rfl
        (l.extend_grow _ _ _)
    have hother := other.leads (l.grow (⟨⟨line, test.command⟩, l.path, .none⟩ ::
        (body.layout (⟨.branch, l.links.size⟩ :: l.path) (l.links.size + 1) ++
          [⟨⟨elseLine, .otherwise⟩, ⟨.branch, l.links.size⟩ :: l.path, .none⟩]))
        (.ifBlock l.links.size (some (l.links.size + 1 + body.size)) :: l.blocks))
      (l.links.size + 1 + body.size + 1) (by simp; omega)
    rw [l.extend_grow, List.cons_append, List.append_assoc] at hother
    have hif := Linker.Leads.ifElse l line stopLine test elseLine
      (l.links.size + 1 + body.size) hbody (by rw [Block.length_layout]) hother
    rw [Block.length_layout] at hif
    have hall := hif.followed (rest.leads _ (l.links.size + 1 + body.size + 1 + other.size + 1)
      (by simp; omega))
    refine hall.congr (by simp [Block.statements]) ?_ ?_
    · simp only [Block.layout, List.append_assoc, List.cons_append, List.nil_append]
      rfl
    · simp only [Block.layout, List.append_assoc, List.cons_append, List.nil_append]
      rfl
  | .loop line header body stopLine rest =>
    have hbody := (body.leads (l.grow [⟨⟨line, .forLoop header⟩, l.path, .none⟩]
      (.forBlock l.links.size :: l.blocks)) (l.links.size + 1) (by simp)).congr rfl rfl
        (l.extend_grow _ _ _)
    have hloop := Linker.Leads.loop l line stopLine header hbody
    rw [Block.length_layout] at hloop
    have hall := hloop.followed (rest.leads _ (l.links.size + 1 + body.size + 1) (by simp; omega))
    refine hall.congr (by simp [Block.statements]) ?_ ?_
    · simp only [Block.layout, List.append_assoc, List.cons_append, List.nil_append]
      rfl
    · simp only [Block.layout, List.append_assoc, List.cons_append, List.nil_append]
      rfl
  | .select line selector skipped arms stopLine rest =>
    have hskipped := (skipped.leads (l.grow [⟨⟨line, selector.command⟩, l.path, .none⟩]
      (.selectBlock l.links.size none :: l.blocks)) (l.links.size + 1) (by simp)).congr rfl rfl
        (l.extend_grow _ _ _)
    have harms := arms.leads l ⟨⟨line, selector.command⟩, l.path, .none⟩
      (skipped.layout (⟨.select, l.links.size⟩ :: l.path) (l.links.size + 1)) none
      (l.grow (_ :: skipped.layout (⟨.select, l.links.size⟩ :: l.path) (l.links.size + 1))
        (.selectBlock l.links.size none :: l.blocks))
      (l.links.size + 1 + skipped.size) stopLine (by simp; omega) (by simp) rfl
    have hselect := Linker.Leads.select l line selector _ hskipped harms
    have hall := hselect.followed
      (rest.leads _ (l.links.size + 1 + skipped.size + arms.size + 1) (by simp; omega))
    refine hall.congr (by simp [Block.statements]) ?_ ?_
    · simp only [Block.layout, List.append_assoc, List.cons_append, List.nil_append]
      rfl
    · simp only [Block.layout, List.append_assoc, List.cons_append, List.nil_append]
      rfl

/-- Matching the cases of a select and its end adds their layout and links the select. -/
theorem Arms.leads (a : Arms) (l : Linker) (head : Cell) (cells : List Cell)
    (first : Option Nat) (m : Linker) (j stopLine : Nat) (hsize : m.links.size = j)
    (hj : j = l.links.size + 1 + cells.length)
    (hclose :
      m.closeCase j = l.grow (head :: cells) (.selectBlock l.links.size first :: l.blocks)) :
    let inner := ⟨.select, l.links.size⟩ :: l.path
    let more := a.layout inner l.links.size j ++ [⟨⟨stopLine, .endSelect⟩, inner, .none⟩]
    m.Leads (a.statements ++ [⟨stopLine, .endSelect⟩]) more
      (l.extend ({ head with link := .select (first.getD j) (j + a.size) } ::
          (cells ++ more))) := by
  have hlabels : m.labels =
      (l.grow (head :: cells) (.selectBlock l.links.size first :: l.blocks)).labels := by
    rw [← hclose, Linker.labels_closeCase]
  match a with
  | .nil =>
    intro inner more
    have hstep := l.enter_endSelect stopLine j head cells first
    rw [← hclose, ← Linker.step_of_endsCase rfl] at hstep
    refine Linker.Leads.step ⟨⟨stopLine, .endSelect⟩, inner, .none⟩ hsize hstep ?_ ?_ trivial
    · simp only [more, Arms.layout, Linker.size_links_extend, List.length_cons, List.length_append,
        List.length_nil]
      omega
    · rw [hlabels]
      exact l.labels_extend_concat _ _ _ _ (by simp only [List.length_cons]; omega)
        (by simp [more, Arms.layout])
  | .cons line guard body rest =>
    intro inner more
    let header : Cell := ⟨⟨line, guard.command⟩, inner, .none⟩
    let linked : Cell :=
      ⟨⟨line, guard.command⟩, inner, .caseOf (j + 1 + body.size) l.links.size⟩
    let opened := .caseBlock j l.links.size :: .selectBlock l.links.size (some (first.getD j)) ::
      l.blocks
    let statements := body.layout (⟨.arm, j⟩ :: inner) (j + 1)
    have hstep : m.step j ⟨line, guard.command⟩ =
        .ok (l.grow ((head :: cells) ++ [header]) opened) := by
      rw [Linker.step_of_endsCase (Linker.endsCase_guard guard), hclose]
      exact l.enter_guard (head :: cells) l.blocks line j guard l.links.size first
    have hhead := Linker.Leads.step linked hsize hstep (by simp; omega)
      (by rw [hlabels]; exact l.labels_extend_concat _ _ _ _ (by simp; omega) (by
        simp [header, linked]))
      (by simp [linked])
    have hbody := body.leads (l.grow ((head :: cells) ++ [header]) opened) (j + 1) (by simp; omega)
    rw [l.extend_grow] at hbody
    have hend :
        (l.grow ((head :: cells) ++ [header] ++ statements) opened).closeCase (j + 1 + body.size) =
        l.grow (head :: (cells ++ linked :: statements))
          (.selectBlock l.links.size (some (first.getD j)) :: l.blocks) := by
      rw [List.append_assoc]
      exact l.closeCase_grow (head :: cells) _ (j + 1 + body.size) header statements l.links.size j
        (by simp; omega)
    have hrest := rest.leads l head (cells ++ linked :: statements) (some (first.getD j)) _
      (j + 1 + body.size) stopLine (by simp [statements]; omega) (by simp [statements]; omega) hend
    have hsize : j + 1 + body.size + rest.size = j + (Arms.cons line guard body rest).size := by
      rw [Arms.size_cons]
      omega
    refine ((hhead.trans hbody).trans hrest).congr ?_ ?_ ?_
    · simp [Arms.statements]
    · simp only [more, Arms.layout, List.append_assoc, List.cons_append, List.nil_append]
      rfl
    · simp only [more, Arms.layout, List.append_assoc, List.cons_append, ← hsize]
      rfl

end

end InstallScript.Script
