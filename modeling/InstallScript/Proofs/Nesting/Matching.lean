import InstallScript.Proofs.Nesting.Accepted

/-!
Links and the statements that they join. What a statement of a loaded program is linked to is told
by the statements alone: between the parts of a block there are whole blocks only, so no other
statement could open, split or close it.
-/

namespace InstallScript.Script

namespace Program

/-- Whether the statement at an index is a given one. -/
def Has (p : Program) (i : Nat) (command : Command) : Prop :=
  ∃ line, p.statements[i]? = some ⟨line, command⟩

/-- Whether the statement at an index opens a block of a kind. -/
def Opens (p : Program) (i : Nat) (kind : BlockKind) : Prop :=
  ∃ s, p.statements[i]? = some s ∧ s.command.opens? = some kind

/-- The statements strictly between two indices. -/
def between (p : Program) (i j : Nat) : List Statement :=
  (p.statements.toList.drop (i + 1)).take (j - (i + 1))

/-- Whether every block that is opened, split or closed between two indices lies between them. -/
def Balanced (p : Program) (i j : Nat) : Prop :=
  i < j ∧ ∃ b : Block, b.statements = p.between i j

/-- Whether there are, between two indices, whole cases and before them statements outside of any
    case. -/
def Sectioned (p : Program) (i j : Nat) : Prop :=
  i < j ∧ ∃ (skipped : Block) (arms : Arms), skipped.statements ++
    arms.statements = p.between i j

/-- Whether a block is around a statement, and all blocks in it that are around the statement have a
    property. -/
def Nearest (p : Program) (i start : Nat) (q : Nat → Prop) : Prop :=
  ∃ inner outer, p.ancestors i = inner ++ start :: outer ∧ ∀ j ∈ inner, q j

/-- Whether a statement is linked as it should be. An `If` is linked to its `Else` and `EndIf`, an
    `Else` to the same `EndIf`, a `For` and its `EndFor` to each other, a `Continue` or `Exit` to
    the innermost `For` around it, a select to its first case and its end, a case to what follows it
    in its select and to the select, a `Break` to the case that it is in, with nothing but `If`s
    between them, and a `Goto` to its label, around which there only are blocks that are around the
    `Goto`. -/
def LinksAs (p : Program) (i : Nat) : Command → Prop
  | .ifTest .. =>
    (∃ stop, p.link i = .ifTest none stop ∧ p.Balanced i stop ∧ p.Has stop .endIf) ∨
      ∃ middle stop, p.link i = .ifTest (some middle) stop ∧ p.Balanced i middle ∧
        p.Has middle .otherwise ∧
        p.Balanced middle stop ∧ p.Has stop .endIf
  | .otherwise => ∃ start stop, p.Opens start .branch ∧ p.link start = .ifTest (some i) stop ∧
    p.link i = .otherwise stop
  | .forLoop _ => ∃ stop, p.link i = .loop stop ∧ p.Balanced i stop ∧ p.Has stop .endFor
  | .endFor =>
    ∃ start, p.Opens start .loop ∧ p.link start = .loop i ∧ p.link i = .loopControl start
  | .continueLoop | .exitLoop =>
    ∃ start, p.link i = .loopControl start ∧ p.Opens start .loop ∧
    p.Nearest i start fun j => ¬p.Opens j .loop
  | .select _ | .selectVar _ | .selectString _ =>
    ∃ first stop, p.link i = .select first stop ∧ p.Balanced i first ∧
    (p.Opens first .arm ∨ first = stop) ∧ p.Sectioned i stop ∧ p.Has stop .endSelect
  | .caseOf _ | .defaultCase =>
    ∃ start first stop next, p.Opens start .select ∧ p.link start = .select first stop ∧
    p.link i = .caseOf next start ∧ p.Sectioned start i ∧ p.Balanced i next ∧
      p.Sectioned start next ∧
    (p.Opens next .arm ∨ next = stop)
  | .breakCase => ∃ start, p.link i = .breakCase start ∧ p.Opens start .arm ∧
    p.Nearest i start fun j => p.Opens j .branch
  | .goto name => ∃ target, p.link i = .goto target ∧ p.Has target (.label name) ∧
    (∀ j, p.Has j (.label name) → j = target) ∧ p.ancestors target <:+ p.ancestors i
  | _ => p.link i = .none

/-- The statements up to a later index are those before a statement in between, that statement and
    those after it. -/
theorem between_eq_append {p : Program} {i j k : Nat} {s : Statement} (hij : i < j) (hjk : j < k)
    (hs : p.statements[j]? = some s) : p.between i k = p.between i j ++ s :: p.between j k := by
  rw [← Array.getElem?_toList] at hs
  obtain ⟨hlt, rfl⟩ := List.getElem?_eq_some_iff.mp hs
  have hsplit : k - (i + 1) = (j - (i + 1)) + (1 + (k - (j + 1))) := by omega
  have hdrop : i + 1 + (j - (i + 1)) = j := by omega
  unfold between
  rw [hsplit, List.take_add, List.drop_drop, hdrop, List.drop_eq_getElem_cons hlt, Nat.add_comm 1,
    List.take_succ_cons]

end Program

/-- Statements that are found in a program are a part of it. -/
theorem Cell.take_drop_of_placed {all cells : List Cell} {i : Nat} (h : Cell.Placed all i cells) :
    (all.drop i).take cells.length = cells := by
  induction cells generalizing i with
  | nil => rfl
  | cons c rest ih =>
    obtain ⟨hc, hrest⟩ := h
    obtain ⟨hlt, rfl⟩ := List.getElem?_eq_some_iff.mp hc
    rw [List.drop_eq_getElem_cons hlt, List.length_cons, List.take_succ_cons, ih hrest]

section Layout

variable {p : Program} {all : List Cell} {path : List Enclosure} {i j : Nat} {c : Cell}

namespace Program.LaidOut

variable (hp : p.LaidOut all)
include hp

theorem has (hc : all[j]? = some c) : p.Has j c.statement.command :=
  ⟨c.statement.line, hp.statement_eq hc⟩

theorem opens (hc : all[j]? = some c) {kind : BlockKind}
    (hkind : c.statement.command.opens? = some kind) :
    p.Opens j kind :=
  ⟨c.statement, hp.statement_eq hc, hkind⟩

theorem between_eq {cells : List Cell} (hplaced : Cell.Placed all (i + 1) cells)
    (hj : j = i + 1 + cells.length) :
    p.between i j = cells.map Cell.statement := by
  have hlength : j - (i + 1) = cells.length := by omega
  rw [Program.between, hp.statements, hlength, ← List.map_drop, ← List.map_take,
    Cell.take_drop_of_placed hplaced]

/-- A block of a program is all there is between the statements around it. -/
theorem balanced (b : Block) (hplaced : Cell.Placed all (i + 1) (b.layout path (i + 1)))
    (hj : j = i + 1 + b.size) : p.Balanced i j := by
  refine ⟨by omega, b, ?_⟩
  rw [hp.between_eq hplaced (by rw [hj, Block.length_layout]), b.map_statement_layout]

end Program.LaidOut

theorem Program.Balanced.sectioned (h : p.Balanced i j) : p.Sectioned i j := by
  obtain ⟨hlt, b, hb⟩ := h
  exact ⟨hlt, b, .nil, by rw [← hb, Arms.statements, List.append_nil]⟩

/-- Another case after those of a select. -/
theorem Program.Sectioned.concat {start line : Nat} {guard : Guard} (h : p.Sectioned start i)
    (hs : p.statements[i]? = some ⟨line, guard.command⟩) (hbody : p.Balanced i j) :
    p.Sectioned start j := by
  obtain ⟨hlt, skipped, arms, harms⟩ := h
  obtain ⟨hlt', body, hbody⟩ := hbody
  refine ⟨Nat.lt_trans hlt hlt', skipped, arms.concat line guard body, ?_⟩
  rw [Program.between_eq_append hlt hlt' hs, Arms.statements_concat, ← harms, hbody,
    List.append_assoc]

/-- The first of the cases of a select, or its end if there are none. -/
theorem Arms.opens_or_eq (hp : p.LaidOut all) (a : Arms) {select stop : Nat}
    (hplaced : Cell.Placed all i (a.layout path select i)) (hstop : i + a.size = stop) :
    p.Opens i .arm ∨ i = stop := by
  cases a with
  | nil => exact .inr hstop
  | cons line guard body rest => exact .inl (hp.opens hplaced.1 (Command.opens?_guard guard))

theorem Program.linksAs_selector {first stop : Nat} (selector : Selector)
    (hlink : p.link i = .select first stop) (hbalanced : p.Balanced i first)
    (hfirst : p.Opens first .arm ∨ first = stop) (hsectioned : p.Sectioned i stop)
    (hstop : p.Has stop .endSelect) : p.LinksAs i selector.command := by
  cases selector <;> exact ⟨first, stop, hlink, hbalanced, hfirst, hsectioned, hstop⟩

theorem Program.linksAs_guard {start first stop next : Nat} (guard : Guard)
    (hselect : p.Opens start .select) (hstart : p.link start = .select first stop)
    (hlink : p.link i = .caseOf next start) (hsectioned : p.Sectioned start i)
    (hbalanced : p.Balanced i next) (hafter : p.Sectioned start next)
    (hnext : p.Opens next .arm ∨ next = stop) : p.LinksAs i guard.command := by
  cases guard <;>
    exact ⟨start, first, stop, next, hselect, hstart, hlink, hsectioned, hbalanced,
      hafter, hnext⟩

mutual

/-- The statements of a block that open, split or close blocks are linked as they should be. -/
theorem Block.each_linksAs (hp : p.LaidOut all) (b : Block) (path : List Enclosure) (i : Nat)
    (hplaced : Cell.Placed all i (b.layout path i)) :
    Cell.Each (fun j c => c.statement.command.isPlain = false → p.LinksAs j c.statement.command) i
      (b.layout path i) := by
  match b with
  | .nil => trivial
  | .plain line c rest =>
    obtain ⟨-, hrest⟩ := hplaced
    refine ⟨fun hplain => ?_, rest.each_linksAs hp path (i + 1) hrest⟩
    cases c.isPlain.symm.trans hplain
  | .ifThen line test body stopLine rest =>
    simp only [Block.layout, Cell.Placed, Cell.Each, Cell.each_append,
      Block.length_layout] at hplaced ⊢
    obtain ⟨hhead, hbody, hstop, hrest⟩ := hplaced
    refine ⟨fun _ => .inl ?_, body.each_linksAs hp _ _ hbody, fun _ => ?_,
      rest.each_linksAs hp _ _ hrest⟩
    · exact ⟨_, hp.link_opener hhead rfl, hp.balanced body hbody rfl, hp.has hstop⟩
    · exact hp.link _ _ hstop (by simp)
  | .ifElse line test body elseLine other stopLine rest =>
    simp only [Block.layout, Cell.Placed, Cell.Each, Cell.each_append,
      Block.length_layout] at hplaced ⊢
    obtain ⟨hhead, hbody, helse, hother, hstop, hrest⟩ := hplaced
    have hlink := hp.link_opener hhead rfl
    refine ⟨fun _ => .inr ?_, body.each_linksAs hp _ _ hbody, fun _ => ?_,
      other.each_linksAs hp _ _ hother,
      fun _ => ?_, rest.each_linksAs hp _ _ hrest⟩
    · exact ⟨_, _, hlink, hp.balanced body hbody rfl, hp.has helse,
        hp.balanced other hother rfl, hp.has hstop⟩
    · exact ⟨i, _, hp.opens hhead rfl, hlink, hp.link _ _ helse (by simp)⟩
    · exact hp.link _ _ hstop (by simp)
  | .loop line header body stopLine rest =>
    simp only [Block.layout, Cell.Placed, Cell.Each, Cell.each_append,
      Block.length_layout] at hplaced ⊢
    obtain ⟨hhead, hbody, hstop, hrest⟩ := hplaced
    have hlink := hp.link_opener hhead rfl
    refine ⟨fun _ => ?_, body.each_linksAs hp _ _ hbody, fun _ => ?_,
      rest.each_linksAs hp _ _ hrest⟩
    · exact ⟨_, hlink, hp.balanced body hbody rfl, hp.has hstop⟩
    · exact ⟨i, hp.opens hhead rfl, hlink, hp.link _ _ hstop (by simp)⟩
  | .select line selector skipped arms stopLine rest =>
    simp only [Block.layout, Cell.Placed, Cell.Each, Cell.each_append, Block.length_layout,
      Arms.length_layout] at hplaced ⊢
    obtain ⟨hhead, hskipped, harms, hstop, hrest⟩ := hplaced
    have hopens := hp.opens hhead (Command.opens?_selector selector)
    have hlink := hp.link_opener hhead (Command.opens?_selector selector)
    have hbalanced := hp.balanced skipped hskipped rfl
    have hfirst := arms.opens_or_eq hp harms rfl
    have hinside : Cell.Placed all (i + 1) (skipped.layout (⟨.select, i⟩ :: path) (i + 1) ++
        arms.layout (⟨.select, i⟩ :: path) i (i + 1 + skipped.size)) := by
      rw [Cell.Placed, Cell.each_append, Block.length_layout]
      exact ⟨hskipped, harms⟩
    have hsectioned : p.Sectioned i (i + 1 + skipped.size + arms.size) := by
      refine ⟨by omega, skipped, arms, ?_⟩
      rw [hp.between_eq hinside (by simp [Nat.add_assoc]), List.map_append,
        skipped.map_statement_layout, arms.map_statement_layout]
    refine ⟨fun _ => ?_, skipped.each_linksAs hp _ _ hskipped, ?_, fun _ => ?_,
      rest.each_linksAs hp _ _ hrest⟩
    · exact Program.linksAs_selector selector hlink hbalanced hfirst hsectioned (hp.has hstop)
    · exact arms.each_linksAs hp _ _ hopens hlink rfl hbalanced.sectioned harms
    · exact hp.link _ _ hstop (by simp)

theorem Arms.each_linksAs (hp : p.LaidOut all) (a : Arms) (path : List Enclosure) (i : Nat)
    {start first stop : Nat} (hselect : p.Opens start .select)
    (hstart : p.link start = .select first stop) (hstop : i + a.size = stop)
    (hsectioned : p.Sectioned start i) (hplaced : Cell.Placed all i (a.layout path start i)) :
    Cell.Each (fun j c => c.statement.command.isPlain = false → p.LinksAs j c.statement.command) i
      (a.layout path start i) := by
  match a with
  | .nil => trivial
  | .cons line guard body rest =>
    simp only [Arms.layout, Cell.Placed, Cell.Each, Cell.each_append,
      Block.length_layout] at hplaced ⊢
    obtain ⟨hhead, hbody, hrest⟩ := hplaced
    rw [Arms.size_cons] at hstop
    have hend : i + 1 + body.size + rest.size = stop := by omega
    have hbalanced := hp.balanced body hbody rfl
    have hafter := hsectioned.concat (hp.statement_eq hhead) hbalanced
    refine ⟨fun _ => ?_, body.each_linksAs hp _ _ hbody, ?_⟩
    · exact Program.linksAs_guard guard hselect hstart
        (hp.link_opener hhead (Command.opens?_guard guard)) hsectioned
        hbalanced hafter (rest.opens_or_eq hp hrest hend)
    · exact rest.each_linksAs hp path _ hselect hstart hend hafter hrest

end

theorem Program.Opens.kind_eq {kind other : BlockKind} (h : p.Opens i kind) (h' : p.Opens i other) :
    kind = other := by
  obtain ⟨s, hs, hkind⟩ := h
  obtain ⟨t, ht, hother⟩ := h'
  cases hs.symm.trans ht
  exact Option.some.inj (hkind.symm.trans hother)

section Plain

variable (hp : p.LaidOut all)
include hp

namespace Program.LaidOut

/-- The blocks around a statement are opened by statements of their kinds. -/
theorem opens_of_mem (hpath : Surrounds all path i) {e : Enclosure} (he : e ∈ path) :
    p.Opens e.start e.kind := by
  obtain ⟨opener, hopener, hkind⟩ := hpath.exists_opener he
  exact hp.opens hopener hkind

/-- A block that is found from the inside out is the nearest one. -/
theorem nearest_of_find? (hc : all[i]? = some c) (hpath : Surrounds all c.path i)
    {q : BlockKind → Bool} {e : Enclosure} (hfind : c.path.find? (fun o => q o.kind) = some e)
    {r : Nat → Prop} (hr : ∀ o ∈ c.path, q o.kind = false → r o.start) :
    p.Nearest i e.start r := by
  obtain ⟨-, inner, outer, hsplit, hinner⟩ := List.find?_eq_some_iff_append.mp hfind
  refine ⟨Enclosure.starts inner, Enclosure.starts outer, ?_, fun j hj => ?_⟩
  · rw [hp.ancestors_eq hc hpath, hsplit]
    simp [Enclosure.starts]
  · obtain ⟨o, ho, rfl⟩ := List.mem_map.mp hj
    exact hr o (hsplit ▸ List.mem_append_left _ ho) (by simpa using hinner o ho)

/-- A `Continue` or `Exit` is linked to the innermost loop. -/
theorem exists_loop (hc : all[i]? = some c) (hpath : Surrounds all c.path i)
    (hloop : ∃ e ∈ c.path, e.kind = .loop) :
    ∃ start, Enclosure.loop? c.path = some start ∧ p.Opens start .loop ∧
      p.Nearest i start fun j => ¬p.Opens j .loop := by
  obtain ⟨start, hstart⟩ :=
    Option.isSome_iff_exists.mp ((Enclosure.isSome_loop?_iff c.path).mpr hloop)
  obtain ⟨⟨kind, start⟩, hfind, rfl⟩ := Option.map_eq_some_iff.mp hstart
  obtain rfl : kind = .loop := by simpa using List.find?_some hfind
  refine ⟨start, hstart, hp.opens_of_mem hpath (List.mem_of_find?_eq_some hfind), ?_⟩
  refine hp.nearest_of_find? (q := fun kind => decide (kind = .loop)) hc hpath hfind
    fun o ho hkind hopens => ?_
  have heq := (hp.opens_of_mem hpath ho).kind_eq hopens
  simp [heq] at hkind

/-- A `Break` is linked to the innermost case. -/
theorem exists_arm (hc : all[i]? = some c) (hpath : Surrounds all c.path i)
    (harm : ∃ e, c.path.find? (·.kind ≠ .branch) = some e ∧ e.kind = .arm) :
    ∃ start, Enclosure.arm? c.path = some start ∧ p.Opens start .arm ∧
      p.Nearest i start fun j => p.Opens j .branch := by
  obtain ⟨⟨kind, start⟩, hfind, rfl⟩ := harm
  refine ⟨start, ?_, hp.opens_of_mem hpath (List.mem_of_find?_eq_some hfind), ?_⟩
  · simp only [Enclosure.arm?, hfind]
  · refine hp.nearest_of_find? (q := fun kind => decide (kind ≠ .branch)) hc hpath hfind
      fun o ho hkind => ?_
    have hbranch : o.kind = .branch := by simpa using hkind
    exact hbranch ▸ hp.opens_of_mem hpath ho

/-- A statement that neither opens nor splits nor closes a block is linked as it should be. -/
theorem linksAs_of_isPlain (hsound : ∀ {j : Nat} {d : Cell}, all[j]? = some d → d.Sound all j)
    (hlabels : (labelNames p.statements.toList).Nodup) (hc : all[i]? = some c)
    (hplain : c.statement.command.isPlain = true) : p.LinksAs i c.statement.command := by
  obtain ⟨hpath, hflows⟩ := hsound hc
  have hlink := hp.link i c hc
  have hloop := hp.exists_loop hc hpath
  have harm := hp.exists_arm hc hpath
  have hgoto := hp.goto i c
  have hancestors := hp.ancestors_eq hc hpath
  have henclosed := hp.enclosed c (List.mem_of_getElem? hc)
  obtain ⟨⟨line, command⟩, path, link⟩ := c
  cases command with
  | ifTest | otherwise | endIf | forLoop | endFor | select | selectVar | selectString
  | caseOf | defaultCase
  | endSelect => cases hplain
  | comment | label | returnEarly | fatalError | setVar | instruction =>
    exact (hlink (by simp)).trans hflows.1
  | continueLoop | exitLoop =>
    obtain ⟨start, hstart, hopens, hnearest⟩ := hloop henclosed
    refine ⟨start, ?_, hopens, hnearest⟩
    rw [hlink (by simp), hflows.1, Enclosure.plainLink, hstart]
    rfl
  | breakCase =>
    obtain ⟨start, hstart, hopens, hnearest⟩ := harm henclosed
    refine ⟨start, ?_, hopens, hnearest⟩
    rw [hlink (by simp), hflows.1, Enclosure.plainLink, hstart]
    rfl
  | goto name =>
    obtain ⟨target, d, htarget, hd, hlabel, hsuffix⟩ := hgoto name hc rfl
    have hd' := hp.statement_eq hd
    refine ⟨target, htarget, hlabel ▸ hp.has hd, ?_, ?_⟩
    · rintro j ⟨line, hj⟩
      rw [← Array.getElem?_toList] at hj hd'
      exact eq_of_nodup_labelNames hlabels hj hd' rfl hlabel
    · rw [hancestors, hp.ancestors_eq hd (hsound hd).1]
      exact hsuffix.map Enclosure.start

end Program.LaidOut

end Plain

end Layout

namespace Program

/-- No label of a loaded program is declared twice. -/
theorem nodup_labelNames_of_parse {text : String} {p : Program} (h : Program.parse text = .ok p) :
    (labelNames p.statements.toList).Nodup := by
  obtain ⟨statements, hparsed, hload, rfl⟩ := exists_ofStatements_of_parse h
  obtain ⟨b, hb, hloadable⟩ := (exists_ofStatements_iff_loadable hparsed).mp ⟨p, hload⟩
  exact hb ▸ hloadable.labels

/-- Every statement of a loaded program is linked as it should be. -/
theorem linksAs_of_parse {text : String} {p : Program} (h : Program.parse text = .ok p) {i : Nat}
    {s : Statement} (hs : p.statements[i]? = some s) : p.LinksAs i s.command := by
  obtain ⟨b, hb⟩ := exists_block_of_parse h
  have hlaid := laidOut_of_parse h hb
  obtain ⟨c, hc, rfl⟩ := hlaid.exists_cell hs
  cases hplain : c.statement.command.isPlain with
  | true => exact hlaid.linksAs_of_isPlain b.sound_layout (nodup_labelNames_of_parse h) hc hplain
  | false =>
    have heach := b.each_linksAs hlaid [] 0 (Cell.placed_self _)
    have hlinks := (Cell.each_iff_getElem? 0 _).mp heach i c hc hplain
    rwa [Nat.zero_add] at hlinks

end Program

end InstallScript.Script
