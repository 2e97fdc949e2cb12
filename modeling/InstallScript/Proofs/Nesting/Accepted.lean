import InstallScript.Proofs.Nesting.Jumps
import InstallScript.Proofs.Nesting.Reading
import InstallScript.Proofs.Script.Shape

/-!
Which statements make up a program. Loading accepts exactly the statements of the nested programs in
which loop controls, breaks, labels and jumps are where they may be, and what it gives is the layout
of such a program with its jumps linked.
-/

namespace InstallScript.Script

/-- Blocks with the same opening statement are the same, and so are the blocks around them. -/
theorem Surrounds.suffix {all : List Cell} {path outer : List Enclosure} {e : Enclosure} {j k : Nat}
    (h : Surrounds all path j) (h' : Surrounds all (e :: outer) k)
    (hmem : e.start ∈ Enclosure.starts path) :
    e :: outer <:+ path := by
  obtain ⟨e', he', hstart⟩ := List.mem_map.mp hmem
  obtain ⟨inner, outer', rfl⟩ := List.append_of_mem he'
  obtain ⟨-, ⟨opener, hopener, hpath, hkind, -⟩, -⟩ := h.of_append
  obtain ⟨-, ⟨opener', hopener', hpath', hkind', -⟩, -⟩ := h'
  rw [hstart] at hopener
  cases hopener.symm.trans hopener'
  have heq : e = e' := by
    cases e
    cases e'
    simp_all
  subst heq
  rw [← hpath', hpath]
  exact ⟨inner, rfl⟩

namespace Program

/-- A program whose jumps have not been linked. -/
def unlinked (cells : List Cell) : Program where
  statements := (cells.map Cell.statement).toArray
  links := (cells.map Cell.link).toArray
  parents := (cells.map Cell.parent).toArray
  labels := Cell.declareAll 0 [] cells

section Unlinked

variable {cells : List Cell} {j : Nat} {c : Cell}

theorem link_unlinked (h : cells[j]? = some c) : (unlinked cells).link j = c.link := by
  simp [link, unlinked, Array.getD_eq_getD_getElem?, h]

theorem parent?_unlinked (h : cells[j]? = some c) :
    (unlinked cells).parent? j = c.path.head?.map Enclosure.start := by
  simp [parent?, unlinked, Array.getD_eq_getD_getElem?, h, Cell.parent]

theorem ancestors_unlinked (h : cells[j]? = some c) (hpath : Surrounds cells c.path j) :
    (unlinked cells).ancestors j = Enclosure.starts c.path :=
  ancestors_eq_starts (by simp [unlinked]) hpath (parent?_unlinked h)

/-- A label is found at the statement that declares it. -/
theorem exists_of_label?_unlinked {name : String} {target : Nat}
    (h : (unlinked cells).label? name = some target) :
    ∃ d, cells[target]? = some d ∧ d.statement.command = .label name := by
  rcases Cell.of_lookup_declareAll h with hnone | ⟨k, d, hd, hlabel, rfl⟩
  · cases hnone
  · exact ⟨d, by simpa using hd, hlabel⟩

/-- Every label that is declared is found. -/
theorem exists_label?_unlinked {name : String} {d : Cell} (hd : d ∈ cells)
    (hlabel : d.statement.command = .label name) :
    ∃ target, (unlinked cells).label? name = some target := by
  apply Option.ne_none_iff_exists'.mp
  intro hnone
  apply ((Cell.lookup_declareAll_eq_none_iff 0 [] cells name).mp hnone).1
  exact List.mem_filterMap.mpr ⟨d.statement,
    List.mem_map_of_mem hd, by simp [hlabel, Command.label?]⟩

end Unlinked

/-- A program with the statements, blocks and links of a layout. Loop controls and breaks have their
    block around them, and a jump leads to its label, around which there are only blocks that are
    around the jump as well. -/
structure LaidOut (p : Program) (cells : List Cell) : Prop where
  statements : p.statements.toList = cells.map Cell.statement
  parents : p.parents.toList = cells.map Cell.parent
  link : ∀ j c, cells[j]? = some c → (∀ name, c.statement.command ≠ .goto name) →
    p.link j = c.link
  enclosed : ∀ c ∈ cells, c.Enclosed
  goto : ∀ j c name, cells[j]? = some c → c.statement.command = .goto name →
    ∃ target d, p.link j = .goto target ∧ cells[target]? = some d ∧
      d.statement.command = .label name ∧
      d.path <:+ c.path

namespace LaidOut

variable {p : Program} {cells : List Cell} {j : Nat} {c : Cell}

theorem size_eq (h : p.LaidOut cells) : p.size = cells.length := by
  rw [size, ← Array.length_toList, h.statements, List.length_map]

theorem statement_eq (h : p.LaidOut cells) (hc : cells[j]? = some c) :
    p.statements[j]? = some c.statement := by
  rw [← Array.getElem?_toList, h.statements, List.getElem?_map, hc]
  rfl

theorem exists_cell (h : p.LaidOut cells) {s : Statement} (hs : p.statements[j]? = some s) :
    ∃ c : Cell, cells[j]? = some c ∧ c.statement = s := by
  rw [← Array.getElem?_toList, h.statements, List.getElem?_map] at hs
  exact Option.map_eq_some_iff.mp hs

/-- The blocks recorded around a statement are those of its path. -/
theorem ancestors_eq (h : p.LaidOut cells) (hc : cells[j]? = some c)
    (hpath : Surrounds cells c.path j) :
    p.ancestors j = Enclosure.starts c.path := by
  refine ancestors_eq_starts h.parents hpath ?_
  rw [parent?, Array.getD_eq_getD_getElem?, ← Array.getElem?_toList, h.parents,
    List.getElem?_map, hc]
  rfl

/-- The link of a statement that opens a block. -/
theorem link_opener (h : p.LaidOut cells) (hc : cells[j]? = some c) {kind : BlockKind}
    (hkind : c.statement.command.opens? = some kind) : p.link j = c.link := by
  refine h.link j c hc fun name hgoto => ?_
  rw [hgoto] at hkind
  cases hkind

end LaidOut

end Program

namespace Block

/-- Matching the statements of a block gives its layout. -/
theorem run_start_eq_ok_iff (b : Block) (l : Linker) :
    Linker.start.run 0 b.statements = .ok l ↔
      Cell.FitAll 0 [] (b.layout [] 0) ∧ l = Linker.start.extend (b.layout [] 0) := by
  have hrun := (b.leads Linker.start 0 rfl).run [] l
  rw [List.append_nil] at hrun
  have hdone : Except.ok (Linker.start.extend (b.layout [] 0)) =
      (.ok l : Except LoadError Linker) ↔
      l = Linker.start.extend (b.layout [] 0) := by
    rw [Except.ok.injEq, eq_comm]
  exact hrun.trans (and_congr_right fun _ => hdone)

/-- Loading the statements of a block gives its layout with the jumps linked. -/
theorem ofStatements_eq_ok_iff (b : Block) (p : Program) :
    Program.ofStatements b.statements = .ok p ↔ Cell.FitAll 0 [] (b.layout [] 0) ∧
      (Program.unlinked (b.layout [] 0)).linkGotos 0 b.statements = .ok p := by
  have hclosed : (Linker.start.extend (b.layout [] 0)).checkClosed b.statements.toArray = .ok () :=
    rfl
  have hprogram : (⟨b.statements.toArray, (Linker.start.extend (b.layout [] 0)).links,
      (Linker.start.extend (b.layout [] 0)).parents,
        (Linker.start.extend (b.layout [] 0)).labels⟩ : Program) =
      Program.unlinked (b.layout [] 0) := by
    simp [Linker.extend, Linker.start, Program.unlinked, b.map_statement_layout]
  rw [Program.ofStatements, Except.bind_eq_ok_iff]
  constructor
  · rintro ⟨l, hl, hrest⟩
    obtain ⟨hfits, rfl⟩ := (b.run_start_eq_ok_iff l).mp hl
    obtain ⟨_, -, hlink⟩ := Except.bind_eq_ok_iff.mp hrest
    exact ⟨hfits, hprogram ▸ hlink⟩
  · rintro ⟨hfits, hlink⟩
    refine ⟨_, (b.run_start_eq_ok_iff _).mpr ⟨hfits, rfl⟩,
      Except.bind_eq_ok_iff.mpr ⟨(), hclosed, ?_⟩⟩
    exact hprogram.symm ▸ hlink

/-- A jump in a block fits exactly if its label is declared and the innermost block around the label
    is around the jump. -/
theorem jumpFits_iff (b : Block) (hlabels : (labelNames b.statements).Nodup) {j : Nat} {c : Cell}
    (hc : (b.layout [] 0)[j]? = some c) :
    (Program.unlinked (b.layout [] 0)).JumpFits j c.statement ↔
      ∀ name, c.statement.command = .goto name →
        ∃ d ∈ b.layout [] 0, d.statement.command = .label name ∧
        ∀ e, d.path.head? = some e → e ∈ c.path := by
  have hpath := (b.sound_layout hc).1
  refine forall_congr' fun name => forall_congr' fun hgoto => ?_
  rw [Program.ancestors_unlinked hc hpath]
  constructor
  · rintro ⟨target, htarget, hblock⟩
    obtain ⟨d, hd, hlabel⟩ := Program.exists_of_label?_unlinked htarget
    refine ⟨d, List.mem_of_getElem? hd, hlabel, fun e he => ?_⟩
    obtain ⟨outer, houter⟩ := List.head?_eq_some_iff.mp he
    have hmem : e.start ∈ Enclosure.starts c.path :=
      hblock e.start (by rw [Program.parent?_unlinked hd, he]; rfl)
    have hsuffix := hpath.suffix (houter ▸ (b.sound_layout hd).1) hmem
    exact hsuffix.subset List.mem_cons_self
  · rintro ⟨d, hd, hlabel, hblock⟩
    obtain ⟨target, htarget⟩ := Program.exists_label?_unlinked hd hlabel
    refine ⟨target, htarget, fun block hparent => ?_⟩
    obtain ⟨d', hd', hlabel'⟩ := Program.exists_of_label?_unlinked htarget
    obtain ⟨k, hk⟩ := List.getElem?_of_mem hd
    have hcell : ∀ {i : Nat} {x : Cell}, (b.layout [] 0)[i]? = some x →
        b.statements[i]? = some x.statement := by
      intro i x hx
      rw [← b.map_statement_layout [] 0, List.getElem?_map, hx]
      rfl
    obtain rfl := eq_of_nodup_labelNames hlabels (hcell hk) (hcell hd') hlabel hlabel'
    cases hk.symm.trans hd'
    rw [Program.parent?_unlinked hk] at hparent
    obtain ⟨e, he, rfl⟩ := Option.map_eq_some_iff.mp hparent
    exact List.mem_map_of_mem (hblock e he)

/-- What is loaded from the statements of a block has its layout. -/
theorem laidOut (b : Block) {p : Program} (h : Program.ofStatements b.statements = .ok p) :
    p.LaidOut (b.layout [] 0) := by
  obtain ⟨hfits, hlink⟩ := (b.ofStatements_eq_ok_iff p).mp h
  obtain ⟨hsame, -, heach⟩ := Program.linkGotos_eq_ok hlink
  have hcell : ∀ {j : Nat} {c : Cell}, (b.layout [] 0)[j]? = some c →
      b.statements[j]? = some c.statement := by
    intro j c hc
    rw [← b.map_statement_layout [] 0, List.getElem?_map, hc]
    rfl
  constructor
  · simp [hsame.statements, Program.unlinked]
  · simp [hsame.parents, Program.unlinked]
  · intro j c hc hne
    have hkeep := (heach j c.statement (hcell hc)).2.1 hne
    rw [Nat.zero_add, Program.link_unlinked hc] at hkeep
    exact hkeep
  · exact ((Cell.fitAll_iff 0 [] _).mp hfits).1
  · intro j c name hc hgoto
    have hpath := (b.sound_layout hc).1
    obtain ⟨hfits, -, hjump⟩ := heach j c.statement (hcell hc)
    rw [Nat.zero_add] at hfits hjump
    obtain ⟨target, htarget, hblock⟩ := hfits name hgoto
    obtain ⟨d, hd, hlabel⟩ := Program.exists_of_label?_unlinked htarget
    have hlt : j < (Program.unlinked (b.layout [] 0)).links.size := by
      simpa [Program.unlinked] using (List.getElem?_eq_some_iff.mp hc).1
    refine ⟨target, d, hjump name target hgoto htarget hlt, hd, hlabel, ?_⟩
    cases houter : d.path with
    | nil => exact List.nil_suffix
    | cons e outer =>
      have hmem : e.start ∈ Enclosure.starts c.path := by
        rw [← Program.ancestors_unlinked hc hpath]
        exact hblock e.start (by rw [Program.parent?_unlinked hd, houter]; rfl)
      exact hpath.suffix (houter ▸ (b.sound_layout hd).1) hmem

/-- Where loop controls, breaks, labels and jumps of a nested program may be. -/
structure Loadable (b : Block) : Prop where
  /-- Every `Continue` and `Exit` lies in some loop. -/
  loops : ∀ c ∈ b.layout [] 0, c.statement.command = .continueLoop ∨
    c.statement.command = .exitLoop →
    ∃ e ∈ c.path, e.kind = .loop
  /-- Of the blocks around a `Break`, the innermost one that is no `If` is a case. -/
  breaks : ∀ c ∈ b.layout [] 0, c.statement.command = .breakCase →
    ∃ e, c.path.find? (·.kind ≠ .branch) = some e ∧ e.kind = .arm
  /-- No label is declared twice. -/
  labels : (labelNames b.statements).Nodup
  /-- Every `Goto` has a label, and the innermost block around that label is around the `Goto`. -/
  jumps : ∀ c ∈ b.layout [] 0, ∀ name, c.statement.command = .goto name →
    ∃ d ∈ b.layout [] 0, d.statement.command = .label name ∧ ∀ e, d.path.head? = some e →
      e ∈ c.path

theorem forall_enclosed_iff (cells : List Cell) : (∀ c ∈ cells, c.Enclosed) ↔
    (∀ c ∈ cells, c.statement.command = .continueLoop ∨ c.statement.command = .exitLoop →
      ∃ e ∈ c.path, e.kind = .loop) ∧
    (∀ c ∈ cells, c.statement.command = .breakCase →
      ∃ e, c.path.find? (·.kind ≠ .branch) = some e ∧ e.kind = .arm) := by
  rw [← forall_and]
  refine forall_congr' fun c => ?_
  rw [← forall_and]
  refine forall_congr' fun _ => ?_
  unfold Cell.Enclosed
  split <;> simp_all

/-- Loading succeeds on the statements of a block exactly if everything is where it may be. -/
theorem exists_ofStatements_iff (b : Block) :
    (∃ p, Program.ofStatements b.statements = .ok p) ↔ b.Loadable := by
  have hfits : Cell.FitAll 0 [] (b.layout [] 0) ↔
      (∀ c ∈ b.layout [] 0, c.Enclosed) ∧ (labelNames b.statements).Nodup := by
    rw [Cell.fitAll_iff, b.map_statement_layout]
    simp
  have hstatement : ∀ (k : Nat) (s : Statement), b.statements[k]? = some s ↔
      ∃ c : Cell, (b.layout [] 0)[k]? = some c ∧ c.statement = s := by
    intro k s
    rw [← b.map_statement_layout [] 0, List.getElem?_map, Option.map_eq_some_iff]
  constructor
  · rintro ⟨p, hp⟩
    obtain ⟨hall, hlink⟩ := (b.ofStatements_eq_ok_iff p).mp hp
    obtain ⟨henclosed, hlabels⟩ := hfits.mp hall
    obtain ⟨hloops, hbreaks⟩ := (forall_enclosed_iff _).mp henclosed
    obtain ⟨-, -, heach⟩ := Program.linkGotos_eq_ok hlink
    refine ⟨hloops, hbreaks, hlabels, fun c hc => ?_⟩
    obtain ⟨j, hj⟩ := List.getElem?_of_mem hc
    have hjump := (heach j c.statement ((hstatement j _).mpr ⟨c, hj, rfl⟩)).1
    exact (b.jumpFits_iff hlabels hj).mp (by simpa using hjump)
  · intro h
    have hjumps : ∀ k s, b.statements[k]? = some s →
        (Program.unlinked (b.layout [] 0)).JumpFits (0 + k) s := by
      intro k s hk
      obtain ⟨c, hc, rfl⟩ := (hstatement k s).mp hk
      rw [Nat.zero_add]
      exact (b.jumpFits_iff h.labels hc).mpr (h.jumps c (List.mem_of_getElem? hc))
    obtain ⟨p, hp⟩ := Program.exists_linkGotos hjumps
    have hall := hfits.mpr ⟨(forall_enclosed_iff _).mpr ⟨h.loops, h.breaks⟩, h.labels⟩
    exact ⟨p, (b.ofStatements_eq_ok_iff p).mpr ⟨hall, hp⟩⟩

end Block

/-- Whatever is loaded is the statements of a block. -/
theorem Program.exists_block_of_ofStatements {statements : List Statement} {p : Program}
    (hparsed : ∀ s ∈ statements, ∃ line : Line, line.parse = .ok s)
    (h : Program.ofStatements statements = .ok p) : ∃ b : Block, b.statements = statements := by
  obtain ⟨l, hl, hrest⟩ := Except.bind_eq_ok_iff.mp h
  obtain ⟨_, hclosed, -⟩ := Except.bind_eq_ok_iff.mp hrest
  have hkind : ∀ s ∈ statements, ∀ kind args, s.command = .instruction kind args →
      kind.isAction = true := by
    intro s hs kind args hcommand
    obtain ⟨line, hline⟩ := hparsed s hs
    have hshape := Line.wellShaped_parse hline
    rw [hcommand] at hshape
    exact hshape.1
  have hstart : Reads Linker.start.blocks [] := .done .nil
  exact (Linker.exists_block_of_checkClosed (Linker.reads_run hstart hkind hl) hclosed).2

/-- Loading accepts a list of statements exactly if it can be read as a nested program in which
    every loop control, break, label and jump is where it may be. -/
theorem Program.exists_ofStatements_iff_loadable {statements : List Statement}
    (hparsed : ∀ s ∈ statements, ∃ line : Line, line.parse = .ok s) :
    (∃ p, Program.ofStatements statements = .ok p) ↔
      ∃ b : Block, b.statements = statements ∧ b.Loadable := by
  constructor
  · rintro ⟨p, hp⟩
    obtain ⟨b, rfl⟩ := Program.exists_block_of_ofStatements hparsed hp
    exact ⟨b, rfl, b.exists_ofStatements_iff.mp ⟨p, hp⟩⟩
  · rintro ⟨b, rfl, hb⟩
    exact b.exists_ofStatements_iff.mpr hb

/-- A loop that jumps back to before it can be loaded, and so is a nested program. -/
theorem Program.exists_loadable_of_jumping_loop :
    ∃ b : Block, b.statements = [⟨1, .label "again"⟩,
      ⟨2, .forLoop (.count "i" "1" "3" none)⟩,
      ⟨3, .ifTest false .equal ["%i%", "2"]⟩, ⟨4, .goto "again"⟩, ⟨5, .endIf⟩,
        ⟨6, .continueLoop⟩,
      ⟨7, .endFor⟩] ∧ b.Loadable := by
  refine (Program.exists_ofStatements_iff_loadable ?_).mp ⟨_, rfl⟩
  simp only [List.forall_mem_cons]
  exact ⟨⟨⟨1, "Label again"⟩, rfl⟩, ⟨⟨2, "For Count i 1 3"⟩, rfl⟩,
    ⟨⟨3, "If Equal %i% 2"⟩, rfl⟩,
    ⟨⟨4, "Goto again"⟩, rfl⟩, ⟨⟨5, "EndIf"⟩, rfl⟩, ⟨⟨6, "Continue"⟩, rfl⟩,
      ⟨⟨7, "EndFor"⟩, rfl⟩, by simp⟩

/-- Every statement of a script comes from one of its lines. -/
theorem exists_line_of_mapM {lines : List Line} {statements : List Statement}
    (h : lines.mapM Line.parse = .ok statements) :
    ∀ s ∈ statements, ∃ line : Line, line.parse = .ok s := by
  intro s hs
  obtain ⟨line, -, hparse⟩ := Except.exists_mem_of_mapM h s hs
  exact ⟨line, hparse⟩

namespace Program

/-- Whatever is loaded from a text comes from statements that were read from lines. -/
theorem exists_ofStatements_of_parse {text : String} {p : Program}
    (h : Program.parse text = .ok p) :
    ∃ statements, (∀ s ∈ statements, ∃ line : Line, line.parse = .ok s) ∧
      Program.ofStatements statements = .ok p ∧ p.statements.toList = statements := by
  obtain ⟨all, hall, hload⟩ := Except.bind_eq_ok_iff.mp h
  refine ⟨_, fun s hs => exists_line_of_mapM hall s (List.mem_filter.mp hs).1, hload, ?_⟩
  obtain ⟨l, -, hrest⟩ := Except.bind_eq_ok_iff.mp hload
  obtain ⟨_, -, hlink⟩ := Except.bind_eq_ok_iff.mp hrest
  rw [(Program.linkGotos_eq_ok hlink).1.statements]

/-- A loaded program is a nested program. -/
theorem exists_block_of_parse {text : String} {p : Program} (h : Program.parse text = .ok p) :
    ∃ b : Block, b.statements = p.statements.toList := by
  obtain ⟨statements, hparsed, hload, rfl⟩ := exists_ofStatements_of_parse h
  exact Program.exists_block_of_ofStatements hparsed hload

/-- A loaded program has the layout of every nested program with its statements. -/
theorem laidOut_of_parse {text : String} {p : Program} (h : Program.parse text = .ok p) {b : Block}
    (hb : b.statements = p.statements.toList) : p.LaidOut (b.layout [] 0) := by
  obtain ⟨statements, -, hload, rfl⟩ := exists_ofStatements_of_parse h
  exact b.laidOut (hb ▸ hload)

/-- Every statement of a loaded program has as many arguments as it needs. -/
theorem wellShaped_of_parse {text : String} {p : Program} (h : Program.parse text = .ok p) {j : Nat}
    {s : Statement} (hs : p.statements[j]? = some s) : s.command.WellShaped := by
  obtain ⟨statements, hparsed, -, rfl⟩ := exists_ofStatements_of_parse h
  have hmem : s ∈ p.statements.toList :=
    List.mem_of_getElem? (by rw [Array.getElem?_toList]; exact hs)
  obtain ⟨line, hline⟩ := hparsed s hmem
  exact Line.wellShaped_parse hline

end Program

end InstallScript.Script
