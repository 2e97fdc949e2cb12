import InstallScript.Host.Prepared
import InstallScript.Machine.Run
import InstallScript.Proofs.Machine.Failing
import InstallScript.Proofs.Machine.Frames

/-!
The blocks that are open while a program runs. Whatever statement a run has come to, the open blocks
are those around it, so no statement is ever met outside of its block.
-/

namespace InstallScript

open Script

/-- Whether the open blocks of a running program are those that should be open at its next
    statement. -/
structure Activation.Nested (a : Activation) (cells : List Cell) : Prop where
  arrives : Arrives cells (Frame.path a.frames) a.pc
  linked : ∀ f ∈ a.frames, f.Linked a.program

theorem Activation.act_instruction {σ : Type} (a : Activation) (ctx : Context σ)
    (depth line : Nat) {kind : Keyword} (args : List String) (hexec : kind ≠ .execLines) :
    a.act ctx depth ⟨line, .instruction kind args⟩ = (do
      Instruction.run ctx line kind args
      pure (a.advance a.frames)) := by
  unfold act
  dsimp only
  split <;> simp_all

/-- Whether a program goes on with the blocks open that should be, and whatever it starts was
    loaded. -/
def Action.Keeps (a : Activation) (cells : List Cell) : Action → Prop
  | .jump pc frames => Activation.Nested ⟨a.program, pc, frames⟩ cells
  | .enter program => (∃ text, Program.parse text = .ok program) ∧
    Activation.Nested ⟨a.program, a.pc + 1, a.frames⟩ cells
  | .leave => True

/-- A program with the layout of a block, at one of its statements. -/
structure Activation.At (a : Activation) (cells : List Cell) (c : Cell) : Prop where
  laidOut : a.program.LaidOut cells
  sound : ∀ {j : Nat} {d : Cell}, cells[j]? = some d → d.Sound cells j
  cell : cells[a.pc]? = some c
  linked : ∀ f ∈ a.frames, f.Linked a.program
  frames : Frame.path a.frames = c.path ∨ Linker.endsCase c.statement.command = true ∧
    ∃ start, Frame.path a.frames = ⟨.arm, start⟩ :: c.path

namespace Activation.At

variable {σ : Type} {a : Activation} {cells : List Cell} {c : Cell}

theorem flows (h : a.At cells c) : c.Flows cells a.pc :=
  (h.sound h.cell).2

theorem surrounds (h : a.At cells c) : Surrounds cells c.path a.pc :=
  (h.sound h.cell).1

theorem link_eq (h : a.At cells c) (hgoto : ∀ name, c.statement.command ≠ .goto name) :
    a.program.link a.pc = c.link :=
  h.laidOut.link a.pc c h.cell hgoto

/-- Only what ends a case is met with that case open. -/
theorem path_eq (h : a.At cells c) (hends : Linker.endsCase c.statement.command = false) :
    Frame.path a.frames = c.path := by
  rcases h.frames with hpath | ⟨htrue, -⟩
  · exact hpath
  · rw [hends] at htrue
    cases htrue

/-- Going on with some of the blocks open. -/
theorem keeps_jump (h : a.At cells c) {pc : Nat} {frames : List Frame}
    (hframes : frames <:+ a.frames) (harrives : Arrives cells (Frame.path frames) pc) :
    (Action.jump pc frames).Keeps a cells :=
  ⟨harrives, fun f hf => h.linked f (hframes.subset hf)⟩

/-- Going on with another block open. -/
theorem keeps_open (h : a.At cells c) {pc : Nat} {f : Frame} {frames : List Frame}
    (hframes : frames <:+ a.frames) (hlinked : f.Linked a.program)
    (harrives : Arrives cells (f.enclosure :: Frame.path frames) pc) :
    (Action.jump pc (f :: frames)).Keeps a cells :=
  ⟨harrives, List.forall_mem_cons.mpr ⟨hlinked, fun g hg => h.linked g (hframes.subset hg)⟩⟩

/-- The case that a `Break` is linked to is around it. -/
theorem mem_path_of_break (h : a.At cells c) (hbreak : c.statement.command = .breakCase)
    {caseAt : Nat} (hlink : a.program.link a.pc = .breakCase caseAt) :
    ⟨.arm, caseAt⟩ ∈ c.path := by
  have hflows := h.flows
  unfold Cell.Flows at hflows
  rw [hbreak] at hflows
  rw [h.link_eq (by simp [hbreak]), hflows.1, Enclosure.plainLink] at hlink
  have harm : Enclosure.arm? c.path = some caseAt := by
    cases hfound : Enclosure.arm? c.path with
    | none => simp [hfound] at hlink
    | some start => simpa [hfound] using hlink
  unfold Enclosure.arm? at harm
  split at harm
  · rename_i hfind
    cases harm
    exact List.mem_of_find?_eq_some hfind
  · cases harm

/-- The link of the statement that opened a block. -/
theorem link_opener (h : a.At cells c) {start : Nat} {opener : Cell} {kind : BlockKind}
    (hopener : cells[start]? = some opener) (hkind : opener.statement.command.opens? = some kind) :
    a.program.link start = opener.link :=
  h.laidOut.link_opener hopener hkind

/-- The innermost loop around a statement is open. It is left to what follows it, and can be run
    again. -/
theorem exists_unwind_loop (h : a.At cells c) {start : Nat}
    (hends : Linker.endsCase c.statement.command = false)
    (hloop : Enclosure.loop? c.path = some start) (keyword : Keyword) :
    ∃ stop variableName state rest,
      Frame.unwind keyword start a.frames =
        .ok (.forBlock start stop variableName state :: rest) ∧
      .forBlock start stop variableName state :: rest <:+ a.frames ∧
      Arrives cells (Frame.path rest) (stop + 1) ∧
      Arrives cells (⟨.loop, start⟩ :: Frame.path rest) (start + 1) := by
  obtain ⟨before, stop, variableName, state, rest, hsplit, -, hpath, hunwind⟩ :=
    Frame.exists_unwind_loop keyword (h.path_eq hends) h.surrounds hloop
  have hsurrounds := h.surrounds
  rw [hpath] at hsurrounds
  obtain ⟨-, ⟨opener, hopener, -, hopens, stop', hlink, hleave, hround⟩, -⟩ :=
    hsurrounds.of_append
  have hsuffix : .forBlock start stop variableName state :: rest <:+ a.frames :=
    ⟨before, hsplit.symm⟩
  have hstop : a.program.link start = .loop stop := h.linked _ (hsuffix.subset List.mem_cons_self)
  rw [h.link_opener hopener hopens, hlink] at hstop
  cases hstop
  exact ⟨stop, variableName, state, rest, hunwind, hsuffix, hleave, hround⟩

/-- The case that a `Break` ends is open, and what follows it is linked. -/
theorem exists_unwind_arm (h : a.At cells c) {start : Nat}
    (hends : Linker.endsCase c.statement.command = false)
    (harm : Enclosure.arm? c.path = some start) (keyword : Keyword) :
    ∃ rest next select, Frame.unwind keyword start a.frames = .ok (.caseBlock start :: rest) ∧
      .caseBlock start :: rest <:+ a.frames ∧ a.program.link start = .caseOf next select ∧
      Arrives cells (Frame.path rest) next := by
  obtain ⟨before, rest, hsplit, -, hpath, hunwind⟩ :=
    Frame.exists_unwind_arm keyword (h.path_eq hends) h.surrounds harm
  have hsurrounds := h.surrounds
  rw [hpath] at hsurrounds
  obtain ⟨-, ⟨opener, hopener, -, hopens, next, select, hlink, hleave⟩, -⟩ :=
    hsurrounds.of_append
  exact ⟨rest, next, select, hunwind, ⟨before, hsplit.symm⟩,
    (h.link_opener hopener hopens).trans hlink, hleave⟩

section Act

variable (ctx : Context σ) {host : Host σ} (line : Nat)

/-- Another round of the innermost loop, or its end. -/
theorem yields_nextRound (h : a.At cells c) {start : Nat}
    (hends : Linker.endsCase c.statement.command = false)
    (hloop : Enclosure.loop? c.path = some start) :
    (a.nextRound line start : Exec σ Action).Yields host (·.Keeps a cells) := by
  obtain ⟨stop, variableName, state, rest, hunwind, hsuffix, hleave, hround⟩ :=
    h.exists_unwind_loop hends hloop .endFor
  have hlinked : Frame.Linked a.program (.forBlock start stop variableName state) :=
    h.linked _ (hsuffix.subset List.mem_cons_self)
  have hrest : rest <:+ a.frames := (List.suffix_cons _ _).trans hsuffix
  refine (Exec.Yields.lift_ok hunwind rfl).bind fun frames hframes => ?_
  subst hframes
  dsimp only
  cases state.next? with
  | none => exact Exec.Yields.pure (h.keeps_jump hrest hleave)
  | some next =>
    refine (Exec.Yields.modify _).bind fun _ _ => Exec.Yields.pure ?_
    exact h.keeps_open hrest hlinked hround

/-- The end of the innermost loop. -/
theorem yields_exitLoop (h : a.At cells c) {start : Nat}
    (hends : Linker.endsCase c.statement.command = false)
    (hloop : Enclosure.loop? c.path = some start) :
    (a.exitLoop line start : Exec σ Action).Yields host (·.Keeps a cells) := by
  obtain ⟨stop, variableName, state, rest, hunwind, hsuffix, hleave, -⟩ :=
    h.exists_unwind_loop hends hloop .exitLoop
  refine (Exec.Yields.lift_ok hunwind rfl).bind fun frames hframes => ?_
  subst hframes
  exact Exec.Yields.pure (h.keeps_jump ((List.suffix_cons _ _).trans hsuffix) hleave)

/-- A loop that starts. -/
theorem yields_openLoop (h : a.At cells c) {stop : Nat} (hlink : a.program.link a.pc = .loop stop)
    (hround : Arrives cells (⟨.loop, a.pc⟩ :: Frame.path a.frames) (a.pc + 1))
    (hleave : Arrives cells (Frame.path a.frames) (stop + 1)) (variableName : String)
    (state : LoopState) :
    (a.openLoop line stop variableName state : Exec σ Action).Yields host (·.Keeps a cells) := by
  unfold openLoop
  cases state.next? with
  | none =>
    refine (Exec.Yields.note _).bind fun _ _ => Exec.Yields.pure ?_
    exact h.keeps_jump (List.suffix_refl _) hleave
  | some next =>
    refine (Exec.Yields.modify _).bind fun _ _ => Exec.Yields.pure ?_
    exact h.keeps_open (List.suffix_refl _) hlink hround

/-- A select that opens. -/
theorem yields_openSelect (h : a.At cells c) {first stop : Nat}
    (hlink : a.program.link a.pc = .select first stop)
    (hfirst : Arrives cells (⟨.select, a.pc⟩ :: Frame.path a.frames) first)
    (results : List String) :
    (a.openSelect line results : Exec σ Action).Yields host (·.Keeps a cells) := by
  unfold openSelect
  rw [hlink]
  exact Exec.Yields.pure (h.keeps_open (List.suffix_refl _) trivial hfirst)

/-- What a `Case`, a `Default` and an `EndSelect` find: their select, on which a case may be
    open. -/
theorem exists_closeCase (h : a.At cells c) {start : Nat} {outer : List Enclosure}
    (hpath : c.path = ⟨.select, start⟩ :: outer) :
    ∃ results matched rest,
      Frame.closeCase a.frames = .selectBlock start results matched :: rest ∧
      Frame.path rest = outer ∧ .selectBlock start results matched :: rest <:+ a.frames := by
  refine Frame.path_closeCase ?_
  rw [← hpath]
  rcases h.frames with hframes | ⟨-, hframes⟩
  · exact .inl hframes
  · exact .inr hframes

section Case

variable {start next : Nat} {outer : List Enclosure}

/-- A case that runs. -/
theorem keeps_enter (h : a.At cells c) {results matched : List String} {rest : List Frame}
    (hsuffix : .selectBlock start results matched :: rest <:+ a.frames)
    (hinner : Arrives cells (⟨.arm, a.pc⟩ :: ⟨.select, start⟩ :: Frame.path rest) (a.pc + 1))
    (used : List String) :
    (Action.jump (a.pc + 1)
      (.caseBlock a.pc :: .selectBlock start results used :: rest)).Keeps a cells := by
  refine ⟨hinner, List.forall_mem_cons.mpr ⟨trivial,
    List.forall_mem_cons.mpr ⟨trivial, fun f hf => ?_⟩⟩⟩
  exact h.linked f (hsuffix.subset (List.mem_cons_of_mem _ hf))

/-- A `Case` runs or is passed over. -/
theorem exists_enterCase (h : a.At cells c) (hpath : c.path = ⟨.select, start⟩ :: outer)
    (hinner : Arrives cells (⟨.arm, a.pc⟩ :: ⟨.select, start⟩ :: outer) (a.pc + 1))
    (hnext : Arrives cells (⟨.select, start⟩ :: outer) next) (value : String) :
    ∃ entry, Frame.enterCase a.pc value a.frames = .ok entry ∧
      (a.enterCase next entry).Keeps a cells := by
  obtain ⟨results, matched, rest, hclose, rfl, hsuffix⟩ := h.exists_closeCase hpath
  simp only [Frame.enterCase, hclose]
  split
  · exact ⟨_, rfl, h.keeps_enter hsuffix hinner (matched ++ [value])⟩
  · exact ⟨_, rfl, h.keeps_jump hsuffix hnext⟩

/-- A `Default` runs or is passed over. -/
theorem exists_enterDefault (h : a.At cells c) (hpath : c.path = ⟨.select, start⟩ :: outer)
    (hinner : Arrives cells (⟨.arm, a.pc⟩ :: ⟨.select, start⟩ :: outer) (a.pc + 1))
    (hnext : Arrives cells (⟨.select, start⟩ :: outer) next) :
    ∃ entry, Frame.enterDefault a.pc a.frames = .ok entry ∧
      (a.enterCase next entry).Keeps a cells := by
  obtain ⟨results, matched, rest, hclose, rfl, hsuffix⟩ := h.exists_closeCase hpath
  simp only [Frame.enterDefault, hclose]
  refine ⟨_, rfl, ?_⟩
  split
  · exact h.keeps_enter hsuffix hinner matched
  · exact h.keeps_jump hsuffix hnext

end Case

/-- A `Break` ends the innermost case around it. -/
theorem exists_break (h : a.At cells c) {start : Nat}
    (hends : Linker.endsCase c.statement.command = false)
    (harm : Enclosure.arm? c.path = some start) :
    ∃ rest next select,
      Frame.unwind .breakCase start a.frames = .ok (.caseBlock start :: rest) ∧
      a.program.link start = .caseOf next select ∧ (Action.jump next rest).Keeps a cells := by
  obtain ⟨rest, next, select, hunwind, hsuffix, hlink, hleave⟩ :=
    h.exists_unwind_arm hends harm .breakCase
  exact ⟨rest, next, select, hunwind, hlink,
    h.keeps_jump ((List.suffix_cons _ _).trans hsuffix) hleave⟩

/-- A jump leaves the blocks that are not around its label. -/
theorem keeps_goto (h : a.At cells c) {name : String} (hgoto : c.statement.command = .goto name) :
    ∃ target, a.program.link a.pc = .goto target ∧
      (Action.jump target (Frame.leaveTo a.program target a.frames)).Keeps a cells := by
  obtain ⟨target, d, hlink, hd, -, inner, hinner⟩ := h.laidOut.goto a.pc c name h.cell hgoto
  have htarget := h.laidOut.ancestors_eq hd (h.sound hd).1
  have hframes : Frame.path a.frames = inner ++ d.path := by
    rw [hinner]
    exact h.path_eq (by rw [hgoto]; rfl)
  obtain ⟨hpath, hsuffix⟩ := Frame.path_leaveTo hframes (hinner ▸ h.surrounds) htarget
  exact ⟨target, hlink, h.keeps_jump hsuffix (hpath ▸ arrives_of_getElem? hd)⟩

/-- A program that is started has been loaded. -/
theorem yields_execLines (h : a.At cells c) (depth : Nat) (text : String)
    (hnext : Arrives cells (Frame.path a.frames) (a.pc + 1)) :
    (execLines line depth text : Exec σ Action).Yields host (·.Keeps a cells) := by
  unfold execLines
  dsimp only
  split
  · exact Exec.Yields.fail ⟨rfl, rfl⟩
  · rename_i program hparse
    refine (Exec.Yields.note _).bind fun _ _ => ?_
    split
    · exact Exec.Yields.fail ⟨rfl, rfl⟩
    · exact (Exec.Yields.note _).bind fun _ _ => Exec.Yields.pure ⟨⟨_, hparse⟩,
        hnext, h.linked⟩

/-- Whatever a statement does, the open blocks stay as they should be, and it is met in its
    block. -/
theorem yields_act (h : a.At cells c) (hshape : c.statement.command.WellShaped) (depth : Nat) :
    (a.act ctx depth c.statement).Yields ctx.host (·.Keeps a cells) := by
  have hflows := h.flows
  have hlink := h.link_eq
  have hpath := h.path_eq
  have henclosed := h.laidOut.enclosed c (List.mem_of_getElem? h.cell)
  obtain ⟨⟨line, command⟩, path, link⟩ := c
  cases command with
  | comment | label =>
    exact Exec.Yields.pure (h.keeps_jump (List.suffix_refl _) (hpath rfl ▸ hflows.2))
  | ifTest negated condition args =>
    obtain ⟨elseAt, stop, hif, hthen, helse, hleave⟩ := hflows
    rw [← hpath (Linker.endsCase_test ⟨negated, condition, args⟩)] at hthen helse hleave
    simp only [act, (hlink (by simp)).trans hif]
    refine (condition.yields_test ctx line args).bind fun result _ => Exec.Yields.pure ?_
    cases result != negated with
    | true => exact h.keeps_open (List.suffix_refl _) trivial hthen
    | false =>
      cases elseAt with
      | none => exact h.keeps_jump (List.suffix_refl _) hleave
      | some middle => exact h.keeps_open (List.suffix_refl _) trivial (helse middle rfl)
  | otherwise =>
    obtain ⟨start, outer, stop, hinner, helse, hleave⟩ := hflows
    obtain ⟨rest, hframes, rfl⟩ := Frame.of_path_branch ((hpath rfl).trans hinner)
    simp only [act, (hlink (by simp)).trans helse]
    refine (Exec.Yields.lift_ok (a := rest) (by rw [hframes]; rfl) rfl).bind fun frames hf =>
      Exec.Yields.pure ?_
    subst hf
    exact h.keeps_jump (hframes ▸ List.suffix_cons _ _) hleave
  | endIf =>
    obtain ⟨start, outer, hinner, hleave⟩ := hflows
    obtain ⟨rest, hframes, rfl⟩ := Frame.of_path_branch ((hpath rfl).trans hinner)
    refine (Exec.Yields.lift_ok (a := rest) (by rw [hframes]; rfl) rfl).bind fun frames hf =>
      Exec.Yields.pure ?_
    subst hf
    exact h.keeps_jump (hframes ▸ List.suffix_cons _ _) hleave
  | forLoop header =>
    obtain ⟨stop, hfor, hround, hleave⟩ := hflows
    rw [← hpath rfl] at hround hleave
    have hloop := (hlink (by simp)).trans hfor
    simp only [act, hloop]
    refine Exec.Yields.get.bind fun s _ => ?_
    refine (Exec.Yields.lift (failsOpenly_ofHeader line ctx.toSite s.vars header) fun _ _ =>
      trivial).bind fun r _ => ?_
    exact (Exec.Yields.note _).bind fun _ _ => h.yields_openLoop line hloop hround hleave _ _
  | endFor =>
    obtain ⟨start, outer, hinner, hback⟩ := hflows
    simp only [act, (hlink (by simp)).trans hback]
    dsimp only at hinner
    exact h.yields_nextRound line rfl (by rw [hinner]; rfl)
  | continueLoop =>
    obtain ⟨start, hloop⟩ :=
      Option.isSome_iff_exists.mp ((Enclosure.isSome_loop?_iff path).mpr henclosed)
    have hback : a.program.link a.pc = .loopControl start := by
      rw [hlink (by simp), hflows.1, Enclosure.plainLink, hloop]
      rfl
    simp only [act, hback]
    exact h.yields_nextRound line rfl hloop
  | exitLoop =>
    obtain ⟨start, hloop⟩ :=
      Option.isSome_iff_exists.mp ((Enclosure.isSome_loop?_iff path).mpr henclosed)
    have hback : a.program.link a.pc = .loopControl start := by
      rw [hlink (by simp), hflows.1, Enclosure.plainLink, hloop]
      rfl
    simp only [act, hback]
    exact h.yields_exitLoop line rfl hloop
  | select menu =>
    obtain ⟨first, stop, hselect, hfirst⟩ := hflows
    rw [← hpath (Linker.endsCase_selector (.menu menu))] at hfirst
    exact (menu.yields_pick ctx line).bind fun results _ =>
      h.yields_openSelect line ((hlink (by simp)).trans hselect) hfirst results
  | selectVar name =>
    obtain ⟨first, stop, hselect, hfirst⟩ := hflows
    rw [← hpath rfl] at hfirst
    refine Exec.Yields.get.bind fun s _ => ?_
    cases s.vars.get? name with
    | none => exact Exec.Yields.fail ⟨rfl, rfl⟩
    | some value => exact h.yields_openSelect line ((hlink (by simp)).trans hselect) hfirst [value]
  | selectString value =>
    obtain ⟨first, stop, hselect, hfirst⟩ := hflows
    rw [← hpath rfl] at hfirst
    refine Exec.Yields.get.bind fun s _ => ?_
    refine (Exec.Yields.lift (failsOpenly_substitute s.vars value) fun _ _ => trivial).bind
      fun value _ => ?_
    exact h.yields_openSelect line ((hlink (by simp)).trans hselect) hfirst [value]
  | caseOf value =>
    obtain ⟨start, outer, next, hselect, hcase, hinner, hnext⟩ := hflows
    dsimp only at hselect
    rw [hselect] at hinner hnext
    simp only [act, (hlink (by simp)).trans hcase]
    refine Exec.Yields.get.bind fun s _ => ?_
    refine (Exec.Yields.lift (failsOpenly_substitute s.vars value) fun _ _ => trivial).bind
      fun value _ => ?_
    obtain ⟨entry, hentry, hkeeps⟩ := h.exists_enterCase hselect hinner hnext value
    refine (Exec.Yields.lift_ok hentry rfl).bind fun entry' heq => ?_
    subst heq
    split
    · exact (Exec.Yields.note _).bind fun _ _ => Exec.Yields.pure hkeeps
    · exact Exec.Yields.pure hkeeps
  | defaultCase =>
    obtain ⟨start, outer, next, hselect, hcase, hinner, hnext⟩ := hflows
    dsimp only at hselect
    rw [hselect] at hinner hnext
    simp only [act, (hlink (by simp)).trans hcase]
    obtain ⟨entry, hentry, hkeeps⟩ := h.exists_enterDefault hselect hinner hnext
    refine (Exec.Yields.lift_ok hentry rfl).bind fun entry' heq => Exec.Yields.pure ?_
    subst heq
    exact hkeeps
  | breakCase =>
    obtain ⟨start, harm⟩ :=
      Option.isSome_iff_exists.mp ((Enclosure.isSome_arm?_iff path).mpr henclosed)
    have hback : a.program.link a.pc = .breakCase start := by
      rw [hlink (by simp), hflows.1, Enclosure.plainLink, harm]
      rfl
    obtain ⟨rest, next, select, hunwind, hcase, hkeeps⟩ := h.exists_break rfl harm
    simp only [act, hback, hcase]
    refine (Exec.Yields.lift_ok hunwind rfl).bind fun frames hf => Exec.Yields.pure ?_
    subst hf
    exact hkeeps
  | endSelect =>
    obtain ⟨start, outer, hselect, hleave⟩ := hflows
    obtain ⟨results, matched, rest, hclose, rfl, hsuffix⟩ := h.exists_closeCase hselect
    refine (Exec.Yields.lift_ok (a := rest) (by rw [Frame.closeSelect, hclose]) rfl).bind
      fun frames hf => Exec.Yields.pure ?_
    subst hf
    exact h.keeps_jump ((List.suffix_cons _ _).trans hsuffix) hleave
  | goto name =>
    obtain ⟨target, hgoto, hkeeps⟩ := h.keeps_goto rfl
    simp only [act, hgoto]
    exact (Exec.Yields.note _).bind fun _ _ => Exec.Yields.pure hkeeps
  | returnEarly => exact (Exec.Yields.note _).bind fun _ _ => Exec.Yields.pure trivial
  | fatalError =>
    exact (Exec.Yields.note _).bind fun _ _ => Exec.Yields.throw ⟨rfl, fun _ => rfl⟩
  | setVar name value =>
    refine Exec.Yields.get.bind fun s _ => ?_
    refine (Exec.Yields.lift (failsOpenly_substitute s.vars value) fun _ _ => trivial).bind
      fun value _ => ?_
    refine (Exec.Yields.modify _).bind fun _ _ => Exec.Yields.pure ?_
    exact h.keeps_jump (List.suffix_refl _) (hpath rfl ▸ hflows.2)
  | instruction kind args =>
    obtain ⟨hkind, hargs⟩ := hshape
    have hplain : (Command.instruction kind args).isPlain = true := hkind
    have hnext : Arrives cells (Frame.path a.frames) (a.pc + 1) := by
      rw [hpath (Linker.endsCase_of_isPlain hplain)]
      exact hflows.2
    by_cases hexec : kind = .execLines
    · subst hexec
      have hfirst : 0 < args.length := by
        simp only [Arity.admits, Bool.and_eq_true, decide_eq_true_eq] at hargs
        exact hargs.1
      simp only [act]
      refine (Exec.Yields.lift (Argument.failsOpenly_get hfirst) fun _ _ => trivial).bind
        fun text _ => ?_
      refine Exec.Yields.get.bind fun s _ => ?_
      refine (Exec.Yields.lift (failsOpenly_substitute s.vars text) fun _ _ => trivial).bind
        fun text _ => ?_
      exact h.yields_execLines line depth text hnext
    · rw [act_instruction a ctx depth line args hexec]
      refine (Instruction.yields_run ctx line hkind hexec hargs).bind fun _ _ => Exec.Yields.pure ?_
      exact h.keeps_jump (List.suffix_refl _) hnext

end Act

end Activation.At

namespace Activation

/-- Whether a running program was loaded, and its open blocks are those that should be open. -/
def Sound (a : Activation) : Prop :=
  (∃ text, Program.parse text = .ok a.program) ∧
    ∃ b : Block, b.statements = a.program.statements.toList ∧ a.Nested (b.layout [] 0)

theorem sound_start {text : String} {program : Program} (h : Program.parse text = .ok program) :
    (Activation.start program).Sound := by
  obtain ⟨b, hb⟩ := Program.exists_block_of_parse h
  exact ⟨⟨text, h⟩, b, hb, b.arrives_layout, by simp [start]⟩

/-- A loaded program at one of its statements. -/
theorem Nested.exists_at {a : Activation} {b : Block} {s : Statement} (h : a.Nested (b.layout [] 0))
    (hlaid : a.program.LaidOut (b.layout [] 0)) (hs : a.program.statements[a.pc]? = some s) :
    ∃ c, a.At (b.layout [] 0) c ∧ c.statement = s := by
  obtain ⟨c, hc, hstatement⟩ := hlaid.exists_cell hs
  refine ⟨c, ⟨hlaid, b.sound_layout, hc, h.linked, ?_⟩, hstatement⟩
  rcases h.arrives with ⟨-, hend⟩ | ⟨d, hd, hpath⟩
  · rw [hend, List.getElem?_eq_none (Nat.le_refl _)] at hc
    cases hc
  · cases hc.symm.trans hd
    rcases hpath with hpath | ⟨start, select, opener, hpath, hends, -⟩
    · exact .inl hpath
    · exact .inr ⟨hends, start, hpath⟩

end Activation

namespace Machine

variable {σ : Type} (ctx : Context σ)

/-- Whether all programs that have not ended were loaded, with the blocks open that should be. -/
def Sound (m : Machine σ) : Prop :=
  ∀ a ∈ m.stack, a.Sound

/-- A step keeps the open blocks of all programs as they should be, or else ends the run or fails
    for a reason that is open. -/
theorem Sound.step {m : Machine σ} (h : m.Sound) : match m.step ctx with
    | .next next => next.Sound
    | .ended .. => True
    | .failed failure _ => failure.IsOpen ctx.host := by
  obtain ⟨stack, session⟩ := m
  cases stack with
  | nil => trivial
  | cons a rest =>
    obtain ⟨⟨⟨text, hparse⟩, b, hb, hnested⟩, hrest⟩ := List.forall_mem_cons.mp h
    cases hs : a.program.statements[a.pc]? with
    | none =>
      simp only [Machine.step, hs]
      exact hrest
    | some s =>
      obtain ⟨c, hat, rfl⟩ := hnested.exists_at (Program.laidOut_of_parse hparse hb) hs
      have hact := hat.yields_act ctx (Program.wellShaped_of_parse hparse hs) rest.length
      have hrun := hact.of_run (session.note [trace c.statement]) trivial
      simp only [Machine.step, hs]
      generalize (a.act ctx rest.length c.statement).run.run (session.note [trace c.statement]) =
        r at hrun
      obtain ⟨failure | action, t⟩ := r
      · exact hrun
      · cases action with
        | jump pc frames =>
          exact List.forall_mem_cons.mpr ⟨⟨⟨text, hparse⟩, b, hb, hrun⟩, hrest⟩
        | enter program =>
          obtain ⟨⟨source, hsource⟩, hafter⟩ := hrun
          exact List.forall_mem_cons.mpr ⟨Activation.sound_start hsource,
            List.forall_mem_cons.mpr ⟨⟨⟨text, hparse⟩, b, hb, hafter⟩, hrest⟩⟩
        | leave => trivial

/-- However many steps a run takes, it stays as it should be or fails for a reason that is open. -/
theorem Sound.run {m : Machine σ} (h : m.Sound) (steps : Nat) : match m.run ctx steps with
    | .unfinished next => next.Sound
    | .ended .. => True
    | .failed failure _ => failure.IsOpen ctx.host := by
  induction steps generalizing m with
  | zero => exact h
  | succ steps ih =>
    have hstep := h.step ctx
    simp only [Machine.run]
    generalize m.step ctx = r at hstep
    cases r with
    | next next => exact ih hstep
    | ended completion session => trivial
    | failed failure session => exact hstep

theorem sound_start {text : String} {program : Program} (h : Program.parse text = .ok program)
    (session : Session σ) : (Machine.start program session).Sound :=
  List.forall_mem_singleton.mpr (Activation.sound_start h)

end Machine

/-- What should be true of the open blocks of a running program. While it has a next statement, they
    are the blocks around it, except that a `Case`, `Default` or `EndSelect` may be met with an
    earlier case of its select still open. At the end no block is open. Each block is of the kind
    that its first statement opens. -/
structure Activation.FramesMatch (a : Activation) : Prop where
  pc_le : a.pc ≤ a.program.size
  frames_of_end : a.pc = a.program.size → a.frames = []
  frames_of_statement : ∀ s, a.program.statements[a.pc]? = some s →
    a.frames.map Frame.start = a.program.ancestors a.pc ∨
      ((∃ value, s.command = .caseOf value) ∨ s.command = .defaultCase ∨
        s.command = .endSelect) ∧
        ∃ start rest, a.frames = .caseBlock start :: rest ∧
          rest.map Frame.start = a.program.ancestors a.pc ∧
            a.program.ancestors start = a.program.ancestors a.pc
  opened : ∀ f ∈ a.frames, ∃ s, a.program.statements[f.start]? = some s ∧
    s.command.opens? = some f.enclosure.kind

/-- Only `Case`, `Default` and `EndSelect` end a case. -/
theorem Script.Command.WellShaped.eq_of_endsCase {command : Command} (h : command.WellShaped)
    (hends : Linker.endsCase command = true) :
    (∃ value, command = .caseOf value) ∨ command = .defaultCase ∨ command = .endSelect := by
  cases command with
  | caseOf value => exact .inl ⟨value, rfl⟩
  | defaultCase => exact .inr (.inl rfl)
  | endSelect => exact .inr (.inr rfl)
  | ifTest negated condition args =>
    cases (Linker.endsCase_test ⟨negated, condition, args⟩).symm.trans hends
  | select menu => cases (Linker.endsCase_selector (.menu menu)).symm.trans hends
  | instruction kind args =>
    have hplain : (Command.instruction kind args).isPlain = true := h.1
    cases (Linker.endsCase_of_isPlain hplain).symm.trans hends
  | _ => cases hends

theorem Activation.Nested.framesMatch {a : Activation} {b : Block} (h : a.Nested (b.layout [] 0))
    (hlaid : a.program.LaidOut (b.layout [] 0))
    (hshape : ∀ s, a.program.statements[a.pc]? = some s → s.command.WellShaped) :
    a.FramesMatch := by
  have hsize := hlaid.size_eq
  rcases h.arrives with ⟨hpath, hend⟩ | ⟨c, hc, hpath⟩
  · have hframes : a.frames = [] := List.map_eq_nil_iff.mp hpath
    refine ⟨by omega, fun _ => hframes, fun s hs => ?_, by simp [hframes]⟩
    obtain ⟨c, hc, -⟩ := hlaid.exists_cell hs
    rw [hend, List.getElem?_eq_none (Nat.le_refl _)] at hc
    cases hc
  · have hlt := (List.getElem?_eq_some_iff.mp hc).1
    have hsurrounds := (b.sound_layout hc).1
    have hancestors := hlaid.ancestors_eq hc hsurrounds
    have hstatement := hlaid.statement_eq hc
    refine ⟨by omega, fun heq => by omega, fun s hs => ?_, fun f hf => ?_⟩
    · cases hstatement.symm.trans hs
      rw [hancestors]
      rcases hpath with hpath | ⟨start, select, opener, hpath, hends, hopener, -, houter, -⟩
      · exact .inl (by rw [← Frame.starts_path, hpath])
      · obtain ⟨rest, hframes, hrest⟩ := Frame.of_path_arm hpath
        refine .inr ⟨(hshape _ hstatement).eq_of_endsCase hends, start, rest, hframes, ?_, ?_⟩
        · rw [← Frame.starts_path, hrest]
        · rw [hlaid.ancestors_eq hopener (b.sound_layout hopener).1, houter]
    · have hmem : f.enclosure ∈ Frame.path a.frames := List.mem_map_of_mem hf
      have hopened : ∃ opener, (b.layout [] 0)[f.start]? = some opener ∧
          opener.statement.command.opens? = some f.enclosure.kind := by
        rw [← Frame.start_enclosure]
        rcases hpath with hpath | ⟨start, select, opener, hpath, -, hopener, hopens, -⟩
        · exact hsurrounds.exists_opener (hpath ▸ hmem)
        · rcases List.mem_cons.mp (hpath ▸ hmem) with heq | houter
          · rw [heq]
            exact ⟨opener, hopener, hopens⟩
          · exact hsurrounds.exists_opener houter
      obtain ⟨opener, hopener, hopens⟩ := hopened
      exact ⟨opener.statement, hlaid.statement_eq hopener, hopens⟩

/-- In every state that a run of a loaded program reaches, the programs that have not ended were
    loaded, the blocks open in each of them are those around its next statement, and its menus have
    a preview and a description for every option that they show one of. No run fails because a
    statement is met outside of its block or has too few arguments. -/
theorem Session.framesMatch_of_execute {σ : Type} {text : String} {program : Program}
    (hparse : Program.parse text = .ok program) (ctx : Context σ) (session : Session σ)
    (steps : Nat) :
    match session.execute ctx steps program with
    | .unfinished machine => ∀ a ∈ machine.stack,
      (∃ source, Program.parse source = .ok a.program) ∧
        a.FramesMatch ∧ ∀ s ∈ a.program.statements, ∀ menu, s.command = .select menu →
          ∀ choice ∈ menu.choices, choice.HasShape menu.shape
    | .ended .. => True
    | .failed failure _ =>
      ∀ line, (∀ keyword, failure ≠ .run ⟨line, .badNesting keyword⟩) ∧
        ∀ index, failure ≠ .run ⟨line, .missingArgument index⟩ := by
  have hrun := (Machine.sound_start hparse session).run ctx steps
  unfold Session.execute
  generalize (Machine.start program session).run ctx steps = outcome at hrun
  cases outcome with
  | ended completion session => trivial
  | failed failure session =>
    refine fun line => ⟨?_, ?_⟩
    · rintro keyword rfl
      cases hrun.1
    · rintro index rfl
      cases hrun.1
  | unfinished machine =>
    intro a ha
    obtain ⟨⟨source, hsource⟩, b, hb, hnested⟩ := hrun a ha
    refine ⟨⟨source, hsource⟩, hnested.framesMatch (Program.laidOut_of_parse hsource hb)
      (fun s hs => Program.wellShaped_of_parse hsource hs), fun s hs menu hmenu => ?_⟩
    obtain ⟨j, hj⟩ := Array.getElem?_of_mem hs
    have hshape := Program.wellShaped_of_parse hsource hj
    rw [hmenu] at hshape
    exact hshape

/-- The end of a select is met with the case before it open. -/
theorem Session.framesMatch_of_open_case :
    let program : Program :=
      ⟨#[⟨1, .selectVar "v"⟩, ⟨2, .defaultCase⟩, ⟨3, .endSelect⟩],
        #[.select 1 2, .caseOf 2 0, .none], #[none, some 0, some 0], []⟩
    let session := (Session.start ({} : Prepared)).setVariable "v" "a"
    ∃ a events, session.execute ⟨⟨.default, .empty, .empty⟩, Prepared.host⟩ 2 program =
        .unfinished ⟨[a], { session with events }⟩ ∧
      a.frames = [.caseBlock 1, .selectBlock 0 ["a"] []] ∧ a.FramesMatch := by
  intro program session
  refine ⟨⟨program, 2, [.caseBlock 1, .selectBlock 0 ["a"] []]⟩, _, rfl, rfl, ?_⟩
  have hparse : Program.parse "SelectVar v\nDefault\nEndSelect" = .ok program := rfl
  have h := Session.framesMatch_of_execute hparse ⟨⟨.default, .empty, .empty⟩,
    Prepared.host⟩ session 2
  exact (h _ List.mem_cons_self).2.1

end InstallScript
