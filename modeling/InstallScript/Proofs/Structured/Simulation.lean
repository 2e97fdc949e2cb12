import InstallScript.Proofs.Structured.Landing

/-!
The flat interpreter agrees with what nested programs mean. While a run works on a block, it comes
to where the meaning of the block says, with the same variables, plan, host and log.
-/

namespace InstallScript

open Script

/-- Whether a statement has a meaning in a nested program. Jumps do not, and neither do programs
    that are only loaded when they run. -/
def Script.Command.isStructured : Command → Bool
  | .goto _ | .instruction .execLines _ => false
  | _ => true

/-- A program with the layout of a block, all of whose statements have a meaning in nested
    programs. -/
structure Script.Program.Nests (p : Program) (cells : List Cell) : Prop where
  laidOut : p.LaidOut cells
  sound : ∀ {j : Nat} {c : Cell}, cells[j]? = some c → c.Sound cells j
  structured : ∀ c ∈ cells, c.statement.command.isStructured = true

namespace Script.Program.Nests

variable {σ : Type} {ctx : Context σ} {p : Program} {cells : List Cell}
  {path : List Enclosure} {i line : Nat} {frames : List Frame} {link : Link}

theorem statement_eq (hp : p.Nests cells) {c : Cell} (hc : cells[i]? = some c) :
    p.statements[i]? = some c.statement :=
  hp.laidOut.statement_eq hc

theorem link_eq (hp : p.Nests cells) {c : Cell} (hc : cells[i]? = some c) : p.link i = c.link := by
  refine hp.laidOut.link i c hc fun name hgoto => ?_
  have hstructured := hp.structured c (List.mem_of_getElem? hc)
  rw [hgoto] at hstructured
  cases hstructured

/-- The innermost loop around a statement is open, and a loop control is linked to it. -/
theorem exists_loop (hp : p.Nests cells) {c : Cell} (hc : cells[i]? = some c)
    (hloop : ∃ e ∈ c.path, e.kind = .loop) (hframes : Frame.path frames = c.path)
    (keyword : Keyword) :
    ∃ start stop variableName state rest, Enclosure.loop? c.path = some start ∧
      frames.dropWhile (!·.isLoop) = .forBlock start stop variableName state :: rest ∧
      Frame.unwind keyword start frames =
        .ok (.forBlock start stop variableName state :: rest) := by
  obtain ⟨start, hstart⟩ :=
    Option.isSome_iff_exists.mp ((Enclosure.isSome_loop?_iff c.path).mpr hloop)
  obtain ⟨before, stop, variableName, state, rest, rfl, hbefore, -, hunwind⟩ :=
    Frame.exists_unwind_loop keyword hframes (hp.sound hc).1 hstart
  exact ⟨start, stop, variableName, state, rest, hstart,
    Frame.dropWhile_isLoop hbefore start stop variableName state rest, hunwind⟩

/-- The case that a `Break` ends is open, and it is linked to what follows it. -/
theorem exists_arm (hp : p.Nests cells) {c : Cell} (hc : cells[i]? = some c)
    (harm : ∃ e, c.path.find? (·.kind ≠ .branch) = some e ∧ e.kind = .arm)
    (hframes : Frame.path frames = c.path) (keyword : Keyword) :
    ∃ start rest after select, Enclosure.arm? c.path = some start ∧
      frames.dropWhile Frame.isBranch = .caseBlock start :: rest ∧
      p.link start = .caseOf after select ∧
      Frame.unwind keyword start frames = .ok (.caseBlock start :: rest) := by
  obtain ⟨start, hstart⟩ :=
    Option.isSome_iff_exists.mp ((Enclosure.isSome_arm?_iff c.path).mpr harm)
  obtain ⟨before, rest, rfl, hbefore, hpath, hunwind⟩ :=
    Frame.exists_unwind_arm keyword hframes (hp.sound hc).1 hstart
  have hsurrounds := (hp.sound hc).1
  rw [hpath] at hsurrounds
  obtain ⟨-, ⟨opener, hopener, -, -, after, select, hlink, -⟩, -⟩ := hsurrounds.of_append
  exact ⟨start, rest, after, select, hstart, Frame.dropWhile_isBranch hbefore start rest,
    (hp.link_eq hopener).trans hlink, hunwind⟩

/-- A run carries a plain statement out as it is meant. -/
theorem lands_plain (hp : p.Nests cells) (c : PlainCommand)
    (hc : cells[i]? = some ⟨⟨line, c.command⟩, path, Enclosure.plainLink path c.command⟩)
    (hframes : Frame.path frames = path) (s : Session σ) :
    Lands ctx p frames (i + 1) (.single p i frames s)
      ((c.command.runPlain ctx line).run.run (s.note [Machine.trace ⟨line, c.command⟩])) := by
  have hst := hp.statement_eq hc
  have hlink := hp.link_eq hc
  have henclosed := hp.laidOut.enclosed _ (List.mem_of_getElem? hc)
  have hstructured := hp.structured _ (List.mem_of_getElem? hc)
  obtain ⟨command, hplain⟩ := c
  dsimp only at hc hst hlink hstructured ⊢
  generalize ht : s.note [Machine.trace ⟨line, command⟩] = t
  cases command with
  | ifTest | otherwise | endIf | forLoop | endFor | select | selectVar | selectString | caseOf
  | defaultCase | endSelect => simp [Command.isPlain] at hplain
  | goto => cases hstructured
  | comment | label => exact .normal (Machine.reaches_jump hst (by rw [ht]; rfl))
  | continueLoop =>
    obtain ⟨start, stop, variableName, state, rest, hstart, hdrop, hunwind⟩ :=
      hp.exists_loop hc henclosed hframes .endFor
    have hback : p.link i = .loopControl start := by
      rw [hlink, Enclosure.plainLink, hstart]
      rfl
    subst ht
    exact .continueLoop hdrop
      (Machine.reaches_round hst (by simp only [Activation.act, hback]) hunwind s)
  | exitLoop =>
    obtain ⟨start, stop, variableName, state, rest, hstart, hdrop, hunwind⟩ :=
      hp.exists_loop hc henclosed hframes .exitLoop
    have hback : p.link i = .loopControl start := by
      rw [hlink, Enclosure.plainLink, hstart]
      rfl
    refine .exitLoop hdrop (Machine.reaches_jump hst ?_)
    simp only [Activation.act, hback, Activation.exitLoop, hunwind, Exec.run_bind, Exec.run_lift_ok,
      Exec.run_pure, ht]
  | breakCase =>
    obtain ⟨start, rest, after, select, hstart, hdrop, hafter, hunwind⟩ :=
      hp.exists_arm hc henclosed hframes .breakCase
    have hback : p.link i = .breakCase start := by
      rw [hlink, Enclosure.plainLink, hstart]
      rfl
    refine .breakCase hdrop hafter (Machine.reaches_jump hst ?_)
    simp only [Activation.act, hback, hafter, hunwind, Exec.run_bind, Exec.run_lift_ok,
      Exec.run_pure, ht, List.tail_cons]
  | returnEarly => exact .returned (Machine.ends_leave hst (by rw [ht]; rfl))
  | fatalError => exact .failed (Machine.ends_failed hst (by rw [ht]; rfl))
  | setVar name value =>
    simp only [Command.runPlain, Exec.run_bind, Exec.run_get]
    cases hvalue : t.vars.substitute value with
    | error cause =>
      refine .failed (Machine.ends_failed hst ?_)
      simp only [Activation.act, Exec.run_bind, ht, Exec.run_get, hvalue, Exec.run_lift_error]
    | ok text =>
      refine .normal (Machine.reaches_jump hst ?_)
      simp only [Activation.act, Exec.run_bind, ht, Exec.run_get, hvalue, Exec.run_lift_ok,
        Exec.run_modify, Exec.run_pure, Activation.advance]
  | instruction kind args =>
    have hexec : kind ≠ .execLines := by
      rintro rfl
      cases hstructured
    simp only [Command.runPlain, Exec.run_bind]
    have hact := congrArg (fun x => x.run.run t)
      (Activation.act_instruction ⟨p, i, frames⟩ ctx 0 line args hexec)
    simp only [Exec.run_bind] at hact
    generalize (Instruction.run ctx line kind args).run.run t = r at hact
    obtain ⟨failure | u, t'⟩ := r
    · exact .failed (Machine.ends_failed hst (ht ▸ hact))
    · exact .normal (Machine.reaches_jump hst (ht ▸ hact))

/-- A run goes from an `If` to the branch that is meant. -/
theorem lands_test (hp : p.Nests cells) {test : Test} {elseAt : Option Nat} {stop next : Nat}
    (hc : cells[i]? = some ⟨⟨line, test.command⟩, path, .ifTest elseAt stop⟩)
    {k : Bool → Exec σ Flow}
    (hthen : ∀ t, Lands ctx p frames next (.single p (i + 1) (.ifBlock i :: frames) t)
      ((k true).run.run t))
    (helse : ∀ t, Lands ctx p frames next (match elseAt with
      | some middle => .single p (middle + 1) (.ifBlock i :: frames) t
      | none => .single p (stop + 1) frames t) ((k false).run.run t)) (s : Session σ) :
    Lands ctx p frames next (.single p i frames s)
      ((test.holds ctx line >>= k).run.run (s.note [Machine.trace ⟨line, test.command⟩])) := by
  have hact : ∀ t,
      ((⟨p, i, frames⟩ : Activation).act ctx 0 ⟨line, test.command⟩).run.run t =
      (test.holds ctx line >>= fun active =>
          pure (Activation.doIf ⟨p, i, frames⟩ elseAt stop active)).run.run t := by
    intro t
    simp only [Activation.act, Test.command, hp.link_eq hc, Test.holds, Exec.run_bind]
    generalize (test.condition.test ctx line test.args).run.run t = r
    obtain ⟨failure | result, t'⟩ := r <;> rfl
  refine Lands.of_act (hp.statement_eq hc) hact (fun active => ?_) s
  cases active with
  | true => exact ⟨_, _, rfl, hthen⟩
  | false => cases elseAt <;> exact ⟨_, _, rfl, helse⟩

/-- A run goes from a select to its first case. -/
theorem lands_selector (hp : p.Nests cells) {selector : Selector} {first stop next : Nat}
    (hc : cells[i]? = some ⟨⟨line, selector.command⟩, path, .select first stop⟩)
    {k : List String → Exec σ Flow}
    (hk : ∀ results t,
      Lands ctx p frames next (.single p first (.selectBlock i results [] :: frames) t)
      ((k results).run.run t)) (s : Session σ) :
    Lands ctx p frames next (.single p i frames s)
      ((selector.results ctx line >>= k).run.run
        (s.note [Machine.trace ⟨line, selector.command⟩])) := by
  have hlink := hp.link_eq hc
  have hact : ∀ t,
      ((⟨p, i, frames⟩ : Activation).act ctx 0 ⟨line, selector.command⟩).run.run t =
      (selector.results ctx line >>= fun results =>
        pure (.jump first (.selectBlock i results [] :: frames))).run.run t := by
    intro t
    cases selector with
    | menu m =>
      simp only [Activation.act, Selector.command, Selector.results, Activation.openSelect, hlink]
    | named name =>
      simp only [Activation.act, Selector.command, Selector.results, Activation.openSelect,
        hlink, Exec.run_bind, Exec.run_get]
      cases t.vars.get? name <;> rfl
    | literal value =>
      simp only [Activation.act, Selector.command, Selector.results, Activation.openSelect,
        hlink, Exec.run_bind, Exec.run_get]
      cases t.vars.substitute value <;> rfl
  exact Lands.of_act (hp.statement_eq hc) hact (fun results => ⟨_, _, rfl, hk results⟩) s

/-- A run enters a case or passes it over as it is meant. -/
theorem lands_guard (hp : p.Nests cells) {guard : Guard} {start after next : Nat}
    {opened : List Frame} {results used : List String}
    (hc : cells[i]? = some ⟨⟨line, guard.command⟩, path, .caseOf after start⟩)
    (hopened : Frame.closeCase opened = .selectBlock start results used :: frames)
    {k : Option (List String) → Exec σ Flow}
    (henter : ∀ used t, Lands ctx p frames next
      (.single p (i + 1) (.caseBlock i :: .selectBlock start results used :: frames) t)
        ((k (some used)).run.run t))
    (hpass : ∀ t, Lands ctx p frames next
      (.single p after (.selectBlock start results used :: frames) t) ((k none).run.run t))
    (s : Session σ) :
    Lands ctx p frames next (.single p i opened s)
      ((guard.enter line results used >>= k).run.run
        (s.note [Machine.trace ⟨line, guard.command⟩])) := by
  have hlink := hp.link_eq hc
  have hact : ∀ t,
      ((⟨p, i, opened⟩ : Activation).act ctx 0 ⟨line, guard.command⟩).run.run t =
      (guard.enter line results used >>= fun entered => pure (match entered with
        | some used => .jump (i + 1) (.caseBlock i :: .selectBlock start results used :: frames)
        | none => .jump after (.selectBlock start results used :: frames))).run.run t := by
    intro t
    cases guard with
    | value text =>
      simp only [Activation.act, Guard.command, Guard.enter, hlink, Exec.run_bind, Exec.run_get]
      cases t.vars.substitute text with
      | error cause => rfl
      | ok value =>
        simp only [Exec.run_lift_ok, Frame.enterCase, hopened]
        by_cases hmatch : (results.contains value && !used.contains value) = true
        · simp only [if_pos hmatch, Exec.run_lift_ok]
          rfl
        · simp only [if_neg hmatch, Exec.run_lift_ok]
          rfl
    | unmatched =>
      simp only [Activation.act, Guard.command, Guard.enter, hlink, Exec.run_bind,
        Frame.enterDefault, hopened, Exec.run_lift_ok]
      cases used.isEmpty <;> rfl
  refine Lands.of_act (hp.statement_eq hc) hact (fun entered => ?_) s
  cases entered with
  | some used => exact ⟨_, _, rfl, henter used⟩
  | none => exact ⟨_, _, rfl, hpass⟩

/-- A run starts a loop with its first round, unless there is none. -/
theorem lands_loop (hp : p.Nests cells) {header : LoopHeader} {stop next : Nat}
    (hc : cells[i]? = some ⟨⟨line, .forLoop header⟩, path, .loop stop⟩)
    {k : List String → Exec σ Flow}
    (hk : ∀ state : LoopState, state.InRange → ∀ t, Lands ctx p frames next
      (.round p i stop header.variableName state frames t) ((k state.items).run.run t))
    (s : Session σ) :
    Lands ctx p frames next (.single p i frames s)
      ((header.items ctx line >>= k).run.run
        (s.note [Machine.trace ⟨line, .forLoop header⟩])) := by
  have hst := hp.statement_eq hc
  have hlink := hp.link_eq hc
  generalize ht : s.note [Machine.trace ⟨line, .forLoop header⟩] = t
  cases hstate : LoopState.ofHeader ctx.toSite t.vars line header with
  | error cause =>
    simp only [LoopHeader.items, Exec.run_bind, Exec.run_get, hstate, Exec.run_lift_error]
    refine .failed (Machine.ends_failed hst ?_)
    simp only [Activation.act, hlink, Exec.run_bind, ht, Exec.run_get, hstate, Exec.run_lift_error]
  | ok pair =>
    obtain ⟨state, events⟩ := pair
    have hrange := LoopState.inRange_of_ofHeader hstate
    have hnext := hrange.next?
    simp only [LoopHeader.items, Exec.run_bind, Exec.run_get, hstate,
      Exec.run_lift_ok, Exec.run_note]
    cases hn : state.next? with
    | none =>
      rw [hn] at hnext
      have hempty : state.items.isEmpty = true := by rw [hnext]; rfl
      simp only [if_pos hempty, Exec.run_bind, Exec.run_note, Exec.run_pure]
      refine Lands.of_reaches ?_ (hk state hrange _)
      rw [Machine.round, hn]
      refine Machine.reaches_jump hst ?_
      simp only [Activation.act, hlink, Exec.run_bind, ht, Exec.run_get, hstate,
        Exec.run_lift_ok, Exec.run_note, Activation.openLoop, hn, Exec.run_pure]
    | some pair =>
      rw [hn] at hnext
      have hsome : ¬state.items.isEmpty = true := by rw [hnext.2]; simp
      simp only [if_neg hsome, Exec.run_pure]
      refine Lands.of_reaches ?_ (hk state hrange _)
      rw [Machine.round, hn]
      refine Machine.reaches_jump hst ?_
      simp only [Activation.act, hlink, Exec.run_bind, ht, Exec.run_get, hstate,
        Exec.run_lift_ok, Exec.run_note, Activation.openLoop, hn, Exec.run_modify, Exec.run_pure,
          Activation.advance]

/-- A run goes on behind an `EndIf`. -/
theorem reaches_endIf (hp : p.Nests cells)
    (hc : cells[i]? = some ⟨⟨line, .endIf⟩, path, link⟩) (start : Nat) (t : Session σ) :
    (Machine.single p i (.ifBlock start :: frames) t).Reaches ctx
      (.single p (i + 1) frames (t.note [Machine.trace ⟨line, .endIf⟩])) :=
  Machine.reaches_jump (hp.statement_eq hc) rfl

/-- A run goes from an `Else` to what is behind its `EndIf`. -/
theorem reaches_otherwise (hp : p.Nests cells) {stop : Nat}
    (hc : cells[i]? = some ⟨⟨line, .otherwise⟩, path, .otherwise stop⟩) (start : Nat)
    (t : Session σ) :
    (Machine.single p i (.ifBlock start :: frames) t).Reaches ctx
      (.single p (stop + 1) frames (t.note [Machine.trace ⟨line, .otherwise⟩])) := by
  refine Machine.reaches_jump (hp.statement_eq hc) ?_
  simp only [Activation.act, hp.link_eq hc, Frame.closeIf, Exec.run_bind,
    Exec.run_lift_ok, Exec.run_pure]

/-- A run goes from an `EndFor` to the next round of its loop. -/
theorem reaches_endFor (hp : p.Nests cells) {start : Nat}
    (hc : cells[i]? = some ⟨⟨line, .endFor⟩, path, .loopControl start⟩) (stop : Nat)
    (variableName : String) (state : LoopState) (t : Session σ) :
    (Machine.single p i (.forBlock start stop variableName state :: frames) t).Reaches ctx
      (.round p start stop variableName state frames
        (t.note [Machine.trace ⟨line, .endFor⟩])) := by
  refine Machine.reaches_round (hp.statement_eq hc) ?_ ?_ t
  · simp only [Activation.act, hp.link_eq hc]
  · simp [Frame.unwind, Frame.start]

/-- A run goes on behind an `EndSelect`, whether a case was open before it or not. -/
theorem reaches_endSelect (hp : p.Nests cells)
    (hc : cells[i]? = some ⟨⟨line, .endSelect⟩, path, link⟩) {opened : List Frame}
    {start : Nat} {results used : List String}
    (hopened : Frame.closeCase opened = .selectBlock start results used :: frames)
    (t : Session σ) :
    (Machine.single p i opened t).Reaches ctx
      (.single p (i + 1) frames (t.note [Machine.trace ⟨line, .endSelect⟩])) := by
  refine Machine.reaches_jump (hp.statement_eq hc) ?_
  simp only [Activation.act, Frame.closeSelect, hopened, Exec.run_bind,
    Exec.run_lift_ok, Exec.run_pure, Activation.advance]

end Script.Program.Nests

namespace Script

variable {σ : Type} {ctx : Context σ} {p : Program} {cells : List Cell}

mutual

/-- While a run works on a block, it comes to where the meaning of the block says. -/
theorem Block.lands (hp : p.Nests cells) (b : Block) (path : List Enclosure) (i : Nat)
    (hplaced : Cell.Placed cells i (b.layout path i)) {frames : List Frame}
    (hframes : Frame.path frames = path) (s : Session σ) :
    Lands ctx p frames (i + b.size) (.single p i frames s)
      ((b.run ctx).run.run s) := by
  match b with
  | .nil => exact .normal (.refl _)
  | .plain line c rest =>
    obtain ⟨hhead, hrest⟩ := hplaced
    rw [Block.run, Exec.run_trace_bind]
    refine (hp.lands_plain c hhead hframes s).andThen fun t => ?_
    exact (rest.lands hp path (i + 1) hrest hframes t).of_eq (by rw [Block.size_plain]; omega)
  | .ifThen line test body stopLine rest =>
    simp only [Block.layout, Cell.Placed, Cell.Each, Cell.each_append,
      Block.length_layout] at hplaced
    obtain ⟨hhead, hbody, hstop, hrest⟩ := hplaced
    have hafter : ∀ t, Lands ctx p frames (i + (Block.ifThen line test body stopLine rest).size)
        (.single p (i + 1 + body.size + 1) frames t) ((rest.run ctx).run.run t) :=
      fun t => (rest.lands hp path _ hrest hframes t).of_eq (by rw [Block.size_ifThen]; omega)
    rw [Block.run, Exec.run_trace_bind]
    refine hp.lands_test hhead (fun t => ?_) hafter s
    have hinner : Frame.path (.ifBlock i :: frames) = ⟨.branch, i⟩ :: path := by
      rw [← hframes]; rfl
    exact ((body.lands hp _ _ hbody hinner t).branch (hp.reaches_endIf hstop i)).andThen hafter
  | .ifElse line test body elseLine other stopLine rest =>
    simp only [Block.layout, Cell.Placed, Cell.Each, Cell.each_append,
      Block.length_layout] at hplaced
    obtain ⟨hhead, hbody, helse, hother, hstop, hrest⟩ := hplaced
    have hafter : ∀ t,
        Lands ctx p frames (i + (Block.ifElse line test body elseLine other stopLine rest).size)
          (.single p (i + 1 + body.size + 1 + other.size + 1) frames t) ((rest.run ctx).run.run t) :=
      fun t => (rest.lands hp path _ hrest hframes t).of_eq (by rw [Block.size_ifElse]; omega)
    have hinner : Frame.path (.ifBlock i :: frames) = ⟨.branch, i⟩ :: path := by
      rw [← hframes]; rfl
    rw [Block.run, Exec.run_trace_bind]
    refine hp.lands_test hhead (fun t => ?_) (fun t => ?_) s
    · exact
        ((body.lands hp _ _ hbody hinner t).branch (hp.reaches_otherwise helse i)).andThen hafter
    · exact ((other.lands hp _ _ hother hinner t).branch (hp.reaches_endIf hstop i)).andThen hafter
  | .loop line header body stopLine rest =>
    simp only [Block.layout, Cell.Placed, Cell.Each, Cell.each_append,
      Block.length_layout] at hplaced
    obtain ⟨hhead, hbody, hstop, hrest⟩ := hplaced
    have hafter : ∀ t, Lands ctx p frames (i + (Block.loop line header body stopLine rest).size)
        (.single p (i + 1 + body.size + 1) frames t) ((rest.run ctx).run.run t) :=
      fun t => (rest.lands hp path _ hrest hframes t).of_eq (by rw [Block.size_loop]; omega)
    rw [Block.run, Exec.run_trace_bind]
    refine hp.lands_loop hhead (fun state hstate t => ?_) s
    refine (Lands.rounds (fun state t => ?_) (hp.reaches_endFor hstop _ _) hstate t).andThen hafter
    have hinner : Frame.path (.forBlock i (i + 1 + body.size) header.variableName state :: frames) =
        ⟨.loop, i⟩ :: path := by rw [← hframes]; rfl
    exact body.lands hp _ _ hbody hinner t
  | .select line selector skipped arms stopLine rest =>
    simp only [Block.layout, Cell.Placed, Cell.Each, Cell.each_append, Block.length_layout,
      Arms.length_layout] at hplaced
    obtain ⟨hhead, -, harms, hstop, hrest⟩ := hplaced
    have hafter : ∀ t,
        Lands ctx p frames (i + (Block.select line selector skipped arms stopLine rest).size)
          (.single p (i + 1 + skipped.size + arms.size + 1) frames t) ((rest.run ctx).run.run t) :=
      fun t => (rest.lands hp path _ hrest hframes t).of_eq (by rw [Block.size_select]; omega)
    rw [Block.run, Exec.run_trace_bind]
    refine hp.lands_selector hhead (fun results t => ?_) s
    exact (arms.lands hp path i _ stopLine harms hstop hframes rfl t).andThen hafter

/-- While a run works on the cases of a select, it comes to where their meaning says. When it gets
    to the first of them, a case before it may be open. -/
theorem Arms.lands (hp : p.Nests cells) (a : Arms) (path : List Enclosure) (start i stopLine : Nat)
    (hplaced : Cell.Placed cells i (a.layout (⟨.select, start⟩ :: path) start i))
    (hstop : cells[i + a.size]? =
      some ⟨⟨stopLine, .endSelect⟩, ⟨.select, start⟩ :: path, .none⟩)
    {frames opened : List Frame} {results used : List String} (hframes : Frame.path frames = path)
    (hopened : Frame.closeCase opened = .selectBlock start results used :: frames)
    (s : Session σ) :
    Lands ctx p frames (i + a.size + 1) (.single p i opened s)
      (((a.run ctx results used).andThen (Exec.mark ⟨stopLine, .endSelect⟩)).run.run s) := by
  match a with
  | .nil => exact .normal (hp.reaches_endSelect hstop hopened s)
  | .cons line guard body rest =>
    simp only [Arms.layout, Cell.Placed, Cell.Each, Cell.each_append,
      Block.length_layout] at hplaced
    obtain ⟨hhead, hbody, hrest⟩ := hplaced
    have hsize : i + 1 + body.size + rest.size = i + (Arms.cons line guard body rest).size := by
      rw [Arms.size_cons]
      omega
    rw [← hsize] at hstop ⊢
    rw [Arms.run, Exec.bind_andThen, Exec.run_trace_bind, Exec.bind_andThen]
    refine hp.lands_guard hhead hopened (fun used t => ?_) (fun t => ?_) s
    · have hinner : Frame.path (.caseBlock i :: .selectBlock start results used :: frames) =
          ⟨.arm, i⟩ :: ⟨.select, start⟩ :: path := by rw [← hframes]; rfl
      dsimp only
      rw [Exec.bind_andThen]
      refine Lands.arm (hp.link_eq hhead) (body.lands hp _ _ hbody hinner t) fun opened t hopened =>
        ?_
      exact rest.lands hp path start _ stopLine hrest hstop hframes hopened t
    · exact rest.lands hp path start _ stopLine hrest hstop hframes rfl t

end

/-- The run of a whole program ends as the program is meant to. -/
theorem Block.ends_outcome (b : Block) (hp : p.Nests (b.layout [] 0)) (session : Session σ) :
    (Machine.start p session).Ends ctx (b.outcome ctx session) := by
  have hlands : Lands ctx p [] (0 + b.size) (.single p 0 [] session)
      ((b.run ctx).run.run session) :=
    b.lands hp [] 0 (Cell.placed_self _) Frame.path_nil session
  have hsize : p.statements.size = b.size := by
    rw [← Block.length_layout b [] 0]
    exact hp.laidOut.size_eq
  unfold Block.outcome
  generalize (b.run ctx).run.run session = r at hlands
  cases hlands with
  | failed hend => exact hend
  | returned hend => exact hend
  | normal hreach =>
    refine hreach.ends ⟨2, fun n => ?_⟩
    have hend : p.statements[0 + b.size]? = none := Array.getElem?_eq_none (by omega)
    simp only [Machine.run, Machine.step, Machine.single, hend]
  | continueLoop hloop hreach => cases hloop
  | exitLoop hloop hreach => cases hloop
  | breakCase harm hlink hreach => cases harm

end Script

/-- A loaded program without `Goto` and `ExecLines` is a nested program, and running it comes to the
    end that the nested program is meant to come to: with the same host, variables, plan and log,
    and completed or failed in the same way. -/
theorem Session.execute_eq_outcome {text : String} {program : Program}
    (hparse : Program.parse text = .ok program)
    (hstructured : ∀ s ∈ program.statements, (∀ name, s.command ≠ .goto name) ∧
      ∀ args, s.command ≠ .instruction .execLines args) :
    (∃ b : Block, b.statements = program.statements.toList) ∧
      ∀ b : Block, b.statements = program.statements.toList →
        ∀ (σ : Type) (ctx : Context σ) (session : Session σ), ∃ steps, ∀ n, steps ≤ n →
          session.execute ctx n program = b.outcome ctx session := by
  refine ⟨Program.exists_block_of_parse hparse, fun b hb σ ctx session => ?_⟩
  have hlaid := Program.laidOut_of_parse hparse hb
  have hp : program.Nests (b.layout [] 0) := by
    refine ⟨hlaid, b.sound_layout, fun c hc => ?_⟩
    obtain ⟨j, hj⟩ := List.getElem?_of_mem hc
    obtain ⟨hgoto, hexec⟩ :=
      hstructured c.statement (Array.mem_of_getElem? (hlaid.statement_eq hj))
    unfold Command.isStructured
    split
    · rename_i name heq
      exact absurd heq (hgoto name)
    · rename_i args heq
      exact absurd heq (hexec args)
    · rfl
  have hends : (Machine.start program session).Ends ctx (b.outcome ctx session) :=
    b.ends_outcome hp session
  obtain ⟨steps, hsteps⟩ := hends
  refine ⟨steps, fun n hn => ?_⟩
  obtain ⟨k, rfl⟩ := Nat.exists_eq_add_of_le' hn
  exact hsteps k

/-- A loop that is left at once. -/
theorem Session.execute_eq_outcome_of_exit :
    let program : Program :=
      ⟨#[⟨1, .forLoop (.count "i" "1" "3" none)⟩, ⟨2, .exitLoop⟩, ⟨3, .endFor⟩],
        #[.loop 2, .loopControl 0, .loopControl 0], #[none, some 0, some 0], []⟩
    let b : Block := .loop 1 (.count "i" "1" "3" none) (.plain 2 ⟨.exitLoop, rfl⟩ .nil) 3 .nil
    let ctx : Context Prepared := ⟨⟨.default, .empty, .empty⟩, Prepared.host⟩
    ∃ steps, ∀ n, steps ≤ n →
        (Session.start {}).execute ctx n program = b.outcome ctx (Session.start {}) := by
  intro program b ctx
  have hparse : Program.parse "For Count i 1 3\nExit\nEndFor" = .ok program := rfl
  have hstructured : ∀ s ∈ program.statements, (∀ name, s.command ≠ .goto name) ∧
      ∀ args, s.command ≠ .instruction .execLines args := by
    simp [program]
  exact (Session.execute_eq_outcome hparse hstructured).2 b rfl Prepared ctx (Session.start {})

end InstallScript
