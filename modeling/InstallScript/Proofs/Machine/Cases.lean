import InstallScript.Proofs.Machine.Progress
import InstallScript.Proofs.Machine.Turns

/-!
Cases under arbitrary jumps. However a run goes, every select that is open knows exactly the values
of the cases that were entered since it was opened, so jumping back to an earlier case never enters
a case for the same value again.
-/

namespace InstallScript

open Script

/-- The values picked for the innermost block, if it is a select. -/
def Frame.results? : List Frame → Option (List String)
  | .selectBlock _ results _ :: _ => some results
  | _ => none

/-- The turn that a statement has taken, where `depth` other programs wait for this one to end. The
    blocks that are open after it tell whether it has opened a select or entered a case. -/
def Activation.turn? (a : Activation) (depth : Nat) (vars : Variables) (frames : List Frame) :
    Command → Option Turn
  | .select menu => (Frame.results? frames).map (.opened ⟨depth, a.pc⟩ menu.shape.multi)
  | .selectVar _ | .selectString _ => (Frame.results? frames).map (.opened ⟨depth, a.pc⟩ false)
  | .caseOf value =>
    match a.program.link a.pc, vars.substitute value with
    | .caseOf _ select, .ok value =>
      if frames.head? = some (.caseBlock a.pc) then some (.entered ⟨depth, select⟩ value)
        else none
    | _, _ => none
  | .defaultCase =>
    match a.program.link a.pc with
    | .caseOf _ select =>
      if frames.head? = some (.caseBlock a.pc) then some (.defaulted ⟨depth, select⟩) else none
    | _ => none
  | _ => none

/-- What a turn does to the selects that are open in a program. -/
inductive Activation.Reframes (a : Activation) (depth : Nat) :
    Option Turn → List Frame → Prop where
  | keeps {frames : List Frame} :
      (∀ start results matched, .selectBlock start results matched ∈ frames →
      .selectBlock start results matched ∈ a.frames) → Reframes a depth none frames
  | opens {several : Bool} {results : List String} : (several = false → results.length ≤ 1) →
      (∀ f ∈ a.frames, f.start < a.pc) →
      Reframes a depth (some (.opened ⟨depth, a.pc⟩ several results))
        (.selectBlock a.pc results [] :: a.frames)
  | enters {start : Nat} {results matched : List String} {value : String} {rest : List Frame} :
      .selectBlock start results matched :: rest <:+ a.frames →
        (∀ f ∈ rest, f.start < start) →
      value ∈ results → value ∉ matched →
        Reframes a depth (some (.entered ⟨depth, start⟩ value))
        (.caseBlock a.pc :: .selectBlock start results (matched ++ [value]) :: rest)
  | defaults {start : Nat} {results : List String} {rest : List Frame} :
      .selectBlock start results [] :: rest <:+ a.frames →
        Reframes a depth (some (.defaulted ⟨depth, start⟩))
        (.caseBlock a.pc :: .selectBlock start results [] :: rest)

/-- Whether a program goes on with the selects open that the turn of its statement leaves. -/
def Activation.Plays (a : Activation) (depth : Nat) (vars : Variables) (command : Command) :
    Action → Prop
  | .jump _ frames => a.Reframes depth (a.turn? depth vars frames command) frames
  | _ => True

/-- Whether a program goes on with no select open that was not open before. -/
def Activation.Retains (a : Activation) : Action → Prop
  | .jump _ frames => ∀ start results matched, .selectBlock start results matched ∈ frames →
      .selectBlock start results matched ∈ a.frames
  | _ => True

namespace Exec

variable {σ α : Type}

theorem Gives.meets {x : Exec σ α} {q : α → Prop} (h : Gives x q) (pre : Session σ → Prop) :
    Meets pre x (fun a _ => q a) fun _ _ => True :=
  ⟨fun s _ => h.of_run s trivial⟩

/-- A step that goes on with a text into which values have been put. -/
theorem Meets.substitute_bind {line : Nat} {value : String} {vars : Variables}
    {f : String → Exec σ α} {q : α → Prop}
    (hf : ∀ text, vars.substitute value = .ok text → Gives (f text) q) :
    Meets (fun s => s.vars = vars) (do f (← Exec.lift line ((← get).vars.substitute value)))
      (fun a _ => q a) fun _ _ => True := by
  refine ⟨fun s hs => ?_⟩
  subst hs
  rw [run_bind, run_get]
  exact (Gives.lift_bind hf).of_run s trivial

end Exec

namespace Activation

variable {σ : Type} {a : Activation}

theorem retains_jump {pc : Nat} {frames : List Frame} (h : frames <:+ a.frames) :
    a.Retains (.jump pc frames) :=
  fun _ _ _ hmem => h.subset hmem

/-- Opening a block that is no select. -/
theorem retains_cons {pc : Nat} {f : Frame} {frames : List Frame} (h : frames <:+ a.frames)
    (hf : f.enclosure.kind ≠ .select) : a.Retains (.jump pc (f :: frames)) := by
  intro start results matched hmem
  rcases List.mem_cons.mp hmem with rfl | hmem
  · exact absurd rfl hf
  · exact h.subset hmem

theorem gives_retains_nextRound (line start : Nat) :
    (a.nextRound line start : Exec σ Action).Gives a.Retains := by
  refine Exec.Gives.lift_bind fun frames hframes => ?_
  obtain ⟨hsuffix, -⟩ := Frame.suffix_of_unwind hframes
  split
  · have hrest := (List.suffix_cons _ _).trans hsuffix
    split
    · exact Exec.Gives.any_bind fun _ =>
        Exec.Gives.pure (retains_cons hrest (by simp [Frame.enclosure]))
    · exact Exec.Gives.pure (retains_jump hrest)
  · exact Exec.Gives.fail line _

theorem gives_retains_exitLoop (line start : Nat) :
    (a.exitLoop line start : Exec σ Action).Gives a.Retains := by
  refine Exec.Gives.lift_bind fun frames hframes => ?_
  obtain ⟨hsuffix, -⟩ := Frame.suffix_of_unwind hframes
  split
  · exact Exec.Gives.pure (retains_jump ((List.suffix_cons _ _).trans hsuffix))
  · exact Exec.Gives.fail line _

/-- A statement other than a select, a `Case` and a `Default` leaves selects as they are, or closes
    them. -/
theorem gives_retains (ctx : Context σ) (depth line : Nat) {command : Command}
    (hselect : command.opens? ≠ some .select) (harm : command.opens? ≠ some .arm) :
    (a.act ctx depth ⟨line, command⟩).Gives a.Retains := by
  cases command with
  | select | selectVar | selectString => exact absurd rfl hselect
  | caseOf | defaultCase => exact absurd rfl harm
  | comment | label => exact Exec.Gives.pure (retains_jump (List.suffix_refl _))
  | ifTest negated condition args =>
    simp only [act]
    split
    · rename_i elseAt stop _
      refine Exec.Gives.any_bind fun result => Exec.Gives.pure ?_
      cases result != negated with
      | true => exact retains_cons (List.suffix_refl _) (by simp [Frame.enclosure])
      | false =>
        cases elseAt with
        | none => exact retains_jump (List.suffix_refl _)
        | some middle => exact retains_cons (List.suffix_refl _) (by simp [Frame.enclosure])
    · exact Exec.Gives.fail line _
  | otherwise =>
    simp only [act]
    split
    · exact Exec.Gives.lift_bind fun frames hframes =>
        Exec.Gives.pure (retains_jump (Frame.suffix_of_closeIf hframes))
    · exact Exec.Gives.fail line _
  | endIf =>
    exact Exec.Gives.lift_bind fun frames hframes =>
      Exec.Gives.pure (retains_jump (Frame.suffix_of_closeIf hframes))
  | forLoop header =>
    simp only [act]
    split
    · refine Exec.Gives.any_bind fun s => Exec.Gives.any_bind fun state =>
        Exec.Gives.any_bind fun _ => ?_
      unfold openLoop
      split
      · exact Exec.Gives.any_bind fun _ => Exec.Gives.pure (retains_jump (List.suffix_refl _))
      · refine Exec.Gives.any_bind fun _ => Exec.Gives.pure ?_
        exact retains_cons (List.suffix_refl _) (by simp [Frame.enclosure])
    · exact Exec.Gives.fail line _
  | endFor | continueLoop =>
    simp only [act]
    split
    · exact gives_retains_nextRound line _
    · exact Exec.Gives.fail line _
  | exitLoop =>
    simp only [act]
    split
    · exact gives_retains_exitLoop line _
    · exact Exec.Gives.fail line _
  | breakCase =>
    simp only [act]
    split
    · split
      · refine Exec.Gives.lift_bind fun frames hframes => Exec.Gives.pure ?_
        exact retains_jump ((List.tail_suffix _).trans (Frame.suffix_of_unwind hframes).1)
      · exact Exec.Gives.fail line _
    · exact Exec.Gives.fail line _
  | endSelect =>
    exact Exec.Gives.lift_bind fun frames hframes =>
      Exec.Gives.pure (retains_jump (Frame.suffix_of_closeSelect hframes))
  | goto name =>
    simp only [act]
    split
    · exact Exec.Gives.any_bind fun _ => Exec.Gives.pure (retains_jump (List.dropWhile_suffix _))
    · exact Exec.Gives.fail line _
  | returnEarly => exact Exec.Gives.any_bind fun _ => Exec.Gives.pure trivial
  | fatalError => exact Exec.Gives.any_bind fun _ => Exec.Gives.throw _
  | setVar name value =>
    refine Exec.Gives.any_bind fun s => Exec.Gives.any_bind fun value => ?_
    exact Exec.Gives.any_bind fun _ => Exec.Gives.pure (retains_jump (List.suffix_refl _))
  | instruction kind args =>
    by_cases hexec : kind = .execLines
    · subst hexec
      refine Exec.Gives.any_bind fun text => Exec.Gives.any_bind fun s =>
        Exec.Gives.any_bind fun text => ?_
      unfold execLines
      dsimp only
      split
      · exact Exec.Gives.fail line _
      · refine Exec.Gives.any_bind fun _ => ?_
        split
        · exact Exec.Gives.fail line _
        · exact Exec.Gives.any_bind fun _ => Exec.Gives.pure trivial
    · rw [act_instruction a ctx depth line args hexec]
      exact Exec.Gives.any_bind fun _ => Exec.Gives.pure (retains_jump (List.suffix_refl _))

/-- Nothing is opened or entered where no block is open afterwards. -/
theorem turn?_nil (a : Activation) (depth : Nat) (vars : Variables) (command : Command) :
    a.turn? depth vars [] command = none := by
  cases command with
  | caseOf value =>
    simp only [turn?, List.head?_nil, reduceCtorEq, if_false]
    split <;> rfl
  | defaultCase =>
    simp only [turn?, List.head?_nil, reduceCtorEq, if_false]
    split <;> rfl
  | _ => rfl

theorem Retains.plays {depth : Nat} {vars : Variables} {command : Command} {action : Action}
    (h : a.Retains action) (hselect : command.opens? ≠ some .select)
    (harm : command.opens? ≠ some .arm) :
    a.Plays depth vars command action := by
  cases action with
  | enter | leave => trivial
  | jump pc frames =>
    have hnone : a.turn? depth vars frames command = none := by
      cases command with
      | select | selectVar | selectString => exact absurd rfl hselect
      | caseOf | defaultCase => exact absurd rfl harm
      | _ => rfl
    rw [Plays, hnone]
    exact .keeps h

end Activation

/-- As many options are picked as a prompt allows. -/
theorem Script.Menu.gives_pick {σ : Type} (menu : Menu) (ctx : Context σ) (line : Nat) :
    (menu.pick ctx line).Gives fun results => menu.shape.multi = false →
      results.length ≤ 1 := by
  refine Exec.Gives.any_bind fun s => Exec.Gives.lift_bind fun prompt hprompt => ?_
  refine Exec.Gives.any_bind fun picked => Exec.Gives.lift_bind fun _ hpicked => ?_
  refine Exec.Gives.any_bind fun _ => Exec.Gives.pure fun hsingle => ?_
  obtain ⟨title, items, previews, descriptions, dataPath, rfl⟩ :=
    exists_ofOptions_of_ofMenu hprompt
  have hlength := (checkSelection_eq_ok_iff.mp hpicked).2 hsingle
  exact hlength ▸ List.length_filterMap_le _ picked

namespace Activation.At

variable {σ : Type} {a : Activation} {cells : List Cell} {c : Cell}

/-- A select is opened for the values that were picked. -/
theorem plays_openSelect (h : a.At cells c) (hends : Linker.endsCase c.statement.command = false)
    (line : Nat) (several : Bool) {depth : Nat} {vars : Variables} {results : List String}
    (hturn : ∀ frames, a.turn? depth vars frames c.statement.command =
      (Frame.results? frames).map (.opened ⟨depth, a.pc⟩ several))
    (hresults : several = false → results.length ≤ 1) :
    (a.openSelect line results : Exec σ Action).Gives
      (a.Plays depth vars c.statement.command) := by
  unfold openSelect
  split
  · refine Exec.Gives.pure ?_
    rw [Plays, hturn]
    refine .opens hresults fun f hf => ?_
    have hmem : f.enclosure ∈ c.path := h.path_eq hends ▸ List.mem_map_of_mem hf
    rw [← Frame.start_enclosure]
    exact h.surrounds.lt_of_mem hmem
  · exact Exec.Gives.fail line _

/-- A `Case` or `Default` is met in its select, and the blocks around the select start before it. -/
theorem exists_select (h : a.At cells c) {start : Nat} {outer : List Enclosure}
    (hpath : c.path = ⟨.select, start⟩ :: outer) :
    ∃ results matched rest,
      Frame.closeCase a.frames = .selectBlock start results matched :: rest ∧
      .selectBlock start results matched :: rest <:+ a.frames ∧
      ∀ f ∈ rest, f.start < start := by
  obtain ⟨results, matched, rest, hclose, rfl, hsuffix⟩ := h.exists_closeCase hpath
  refine ⟨results, matched, rest, hclose, hsuffix, fun f hf => ?_⟩
  have hsurrounds := h.surrounds
  rw [hpath] at hsurrounds
  rw [← Frame.start_enclosure]
  exact hsurrounds.2.2.lt_of_mem (List.mem_map_of_mem hf)

/-- A case is entered for a value that was picked and that no case has used, or not at all. -/
theorem plays_enterCase (h : a.At cells c) {start next depth : Nat} {outer : List Enclosure}
    {vars : Variables} {value text : String} {entry : CaseEntry}
    (hpath : c.path = ⟨.select, start⟩ :: outer)
    (hlink : a.program.link a.pc = .caseOf next start) (htext : vars.substitute value = .ok text)
    (hentry : Frame.enterCase a.pc text a.frames = .ok entry) :
    a.Plays depth vars (.caseOf value) (a.enterCase next entry) := by
  obtain ⟨results, matched, rest, hclose, hsuffix, hstarts⟩ := h.exists_select hpath
  simp only [Frame.enterCase, hclose] at hentry
  split at hentry
  · rename_i hentered
    simp only [Bool.and_eq_true, List.contains_iff_mem, Bool.not_eq_true',
      ← Bool.not_eq_true] at hentered
    cases hentry
    simp only [Activation.enterCase, advance, Plays, turn?, hlink, htext, List.head?_cons, if_true]
    exact .enters hsuffix hstarts hentered.1 hentered.2
  · cases hentry
    simp only [Activation.enterCase, Plays, turn?, hlink, htext, List.head?_cons,
      Option.some.injEq, reduceCtorEq, if_false, Bool.false_eq_true]
    exact .keeps fun _ _ _ hmem => hsuffix.subset hmem

/-- A `Default` is entered if no case has used a value, or not at all. -/
theorem plays_enterDefault (h : a.At cells c) {start next depth : Nat} {outer : List Enclosure}
    {vars : Variables} {entry : CaseEntry} (hpath : c.path = ⟨.select, start⟩ :: outer)
    (hlink : a.program.link a.pc = .caseOf next start)
    (hentry : Frame.enterDefault a.pc a.frames = .ok entry) :
    a.Plays depth vars .defaultCase (a.enterCase next entry) := by
  obtain ⟨results, matched, rest, hclose, hsuffix, -⟩ := h.exists_select hpath
  simp only [Frame.enterDefault, hclose, Except.ok.injEq] at hentry
  split at hentry
  · rename_i hunused
    obtain rfl := List.isEmpty_iff.mp hunused
    subst hentry
    simp only [Activation.enterCase, advance, Plays, turn?, hlink, List.head?_cons, if_true]
    exact .defaults hsuffix
  · subst hentry
    simp only [Activation.enterCase, Plays, turn?, hlink, List.head?_cons,
      Option.some.injEq, reduceCtorEq, if_false, Bool.false_eq_true]
    exact .keeps fun _ _ _ hmem => hsuffix.subset hmem

/-- Whatever a statement does, the selects that are open afterwards are those that its turn
    leaves. -/
theorem plays_act (h : a.At cells c) (ctx : Context σ) (depth : Nat) (vars : Variables) :
    Exec.Meets (fun s => s.vars = vars) (a.act ctx depth c.statement)
      (fun action _ => a.Plays depth vars c.statement.command action) fun _ _ => True := by
  have hflows := h.flows
  have hlink := h.link_eq
  obtain ⟨⟨line, command⟩, path, link⟩ := c
  cases command with
  | select menu =>
    refine Exec.Gives.meets ?_ _
    exact (menu.gives_pick ctx line).bind fun results hresults =>
      h.plays_openSelect (Linker.endsCase_selector (.menu menu)) line menu.shape.multi
        (fun _ => rfl) hresults
  | selectVar name =>
    refine Exec.Gives.meets (Exec.Gives.any_bind fun s => ?_) _
    split
    · exact h.plays_openSelect rfl line false (fun _ => rfl) (by simp)
    · exact Exec.Gives.fail line _
  | selectString value =>
    refine Exec.Gives.meets (Exec.Gives.any_bind fun s => Exec.Gives.any_bind fun text => ?_) _
    exact h.plays_openSelect rfl line false (fun _ => rfl) (by simp)
  | caseOf value =>
    obtain ⟨start, outer, next, hpath, hcase, -⟩ := hflows
    have hcase := (hlink (by simp)).trans hcase
    simp only [act, hcase]
    refine Exec.Meets.substitute_bind fun text htext => Exec.Gives.lift_bind fun entry hentry => ?_
    have hplays : a.Plays depth vars (.caseOf value) (a.enterCase next entry) :=
      h.plays_enterCase hpath hcase htext hentry
    split
    · exact Exec.Gives.any_bind fun _ => Exec.Gives.pure hplays
    · exact Exec.Gives.pure hplays
  | defaultCase =>
    obtain ⟨start, outer, next, hpath, hcase, -⟩ := hflows
    have hcase := (hlink (by simp)).trans hcase
    simp only [act, hcase]
    refine Exec.Gives.meets (Exec.Gives.lift_bind fun entry hentry => Exec.Gives.pure ?_) _
    exact h.plays_enterDefault hpath hcase hentry
  | _ =>
    refine Exec.Meets.mono ((gives_retains ctx depth line (by simp [Command.opens?])
      (by simp [Command.opens?])).meets _) fun action _ hretains => ?_
    exact hretains.plays (by simp [Command.opens?]) (by simp [Command.opens?])

end Activation.At

namespace Frame

/-- Whether a ledger tells what the selects have come to that are open in a program, for which
    `depth` other programs wait. -/
def Tracked (ledger : Ledger) (depth : Nat) (frames : List Frame) : Prop :=
  ∀ start results matched, .selectBlock start results matched ∈ frames →
    ∃ several, ledger ⟨depth, start⟩ = some ⟨several, results, matched⟩

variable {ledger : Ledger} {depth : Nat} {frames : List Frame}

/-- What a turn does to one select does not matter to those around it. -/
theorem Tracked.record (h : Tracked ledger depth frames) {turn : Turn}
    (hne : ∀ f ∈ frames, ⟨depth, f.start⟩ ≠ turn.select) :
    Tracked (turn.record ledger) depth frames := by
  intro start results matched hmem
  have hother : (⟨depth, start⟩ : SelectRef) ≠ turn.select := hne _ hmem
  rw [Turn.record_of_ne hother]
  exact h start results matched hmem

theorem Tracked.of_suffix {rest : List Frame} (h : Tracked ledger depth frames)
    (hrest : rest <:+ frames) :
    Tracked ledger depth rest :=
  fun start results matched hmem => h start results matched (hrest.subset hmem)

end Frame

/-- A turn that a statement takes keeps to the rules, and what it leaves open is as the turn
    tells. -/
theorem Activation.Reframes.tracked {a : Activation} {depth : Nat} {turn : Option Turn}
    {frames : List Frame} {ledger : Ledger} (h : a.Reframes depth turn frames)
    (ha : Frame.Tracked ledger depth a.frames) :
    Turn.AllAllowed ledger turn.toList ∧
    Frame.Tracked (Turn.recordAll ledger turn.toList) depth frames := by
  cases h with
  | keeps hkeeps =>
    exact ⟨trivial, fun start results matched hmem => ha _ _ _ (hkeeps _ _ _ hmem)⟩
  | @opens several results hresults hstarts =>
    have hrest : Frame.Tracked ((Turn.opened ⟨depth, a.pc⟩ several results).record ledger)
        depth a.frames := by
      refine ha.record fun f hf heq => ?_
      exact Nat.ne_of_lt (hstarts f hf) (congrArg SelectRef.start heq)
    refine ⟨⟨hresults, trivial⟩, fun start results' matched hmem => ?_⟩
    rcases List.mem_cons.mp hmem with heq | hmem
    · cases heq
      exact ⟨several, if_pos rfl⟩
    · exact hrest _ _ _ hmem
  | @enters start results matched value rest hsuffix hstarts hpicked hunused =>
    obtain ⟨several, hledger⟩ := ha start results matched (hsuffix.subset List.mem_cons_self)
    have hrest : Frame.Tracked ((Turn.entered ⟨depth, start⟩ value).record ledger)
        depth rest := by
      refine (ha.of_suffix ((List.suffix_cons _ _).trans hsuffix)).record fun f hf heq => ?_
      exact Nat.ne_of_lt (hstarts f hf) (congrArg SelectRef.start heq)
    refine ⟨⟨⟨_, hledger, hpicked, hunused⟩, trivial⟩,
      fun start' results' matched' hmem => ?_⟩
    simp only [List.mem_cons, reduceCtorEq, false_or] at hmem
    rcases hmem with heq | hmem
    · cases heq
      exact ⟨several, by simp [Turn.recordAll, Turn.record, hledger]⟩
    · exact hrest _ _ _ hmem
  | @defaults start results rest hsuffix =>
    obtain ⟨several, hledger⟩ := ha start results [] (hsuffix.subset List.mem_cons_self)
    refine ⟨⟨⟨_, hledger, rfl⟩, trivial⟩, fun start' results' matched' hmem => ?_⟩
    simp only [List.mem_cons, reduceCtorEq, false_or] at hmem
    exact ha _ _ _ (hsuffix.subset (List.mem_cons.mpr hmem))

theorem Activation.Reframes.depth_eq {a : Activation} {depth : Nat} {turn : Turn}
    {frames : List Frame} (h : a.Reframes depth (some turn) frames) :
    turn.select.depth = depth := by
  cases h <;> rfl

namespace Machine

/-- Whether a ledger tells what the selects have come to that are open in some programs, of which
    each waits for those before it. -/
def Tracked (ledger : Ledger) : List Activation → Prop
  | [] => True
  | a :: below => Frame.Tracked ledger below.length a.frames ∧ Tracked ledger below

theorem Tracked.of_append {ledger : Ledger} {above below : List Activation} {a : Activation}
    (h : Tracked ledger (above ++ a :: below)) : Frame.Tracked ledger below.length a.frames := by
  induction above with
  | nil => exact h.1
  | cons first above ih => exact ih h.2

/-- What a program does to its selects does not matter to the programs that wait for it. -/
theorem Tracked.record {ledger : Ledger} {stack : List Activation} (h : Tracked ledger stack)
    {turn : Turn} (hdepth : stack.length ≤ turn.select.depth) :
    Tracked (turn.record ledger) stack := by
  induction stack with
  | nil => trivial
  | cons a below ih =>
    rw [List.length_cons] at hdepth
    refine ⟨h.1.record fun f _ heq => ?_, ih h.2 (by omega)⟩
    have hlength : below.length = turn.select.depth := congrArg SelectRef.depth heq
    omega

variable {σ : Type}

/-- The turn that a run took between two states. -/
def turn? (m next : Machine σ) : Option Turn :=
  match m.stack, next.stack with
  | a :: below, b :: _ => a.program.statements[a.pc]?.bind fun s =>
    a.turn? below.length m.session.vars b.frames s.command
  | _, _ => none

/-- The turns of a run, in order. -/
def turns (ctx : Context σ) : (steps : Nat) → Machine σ → List Turn
  | 0, _ => []
  | steps + 1, m =>
    match m.step ctx with
    | .next next => (m.turn? next).toList ++ turns ctx steps next
    | _ => []

/-- The turn of a step keeps to the rules, and the selects that are open after it are as its turn
    tells. -/
theorem tracked_step {ctx : Context σ} {m next : Machine σ} {ledger : Ledger} (hsound : m.Sound)
    (h : Tracked ledger m.stack) (hstep : m.step ctx = .next next) :
    Turn.AllAllowed ledger (m.turn? next).toList ∧
      Tracked (Turn.recordAll ledger (m.turn? next).toList) next.stack := by
  obtain ⟨stack, session⟩ := m
  cases stack with
  | nil => cases hstep
  | cons a rest =>
    obtain ⟨⟨⟨text, hparse⟩, b, hb, hnested⟩, -⟩ := List.forall_mem_cons.mp hsound
    cases hs : a.program.statements[a.pc]? with
    | none =>
      simp only [Machine.step, hs, Step.next.injEq] at hstep
      subst hstep
      have hnone : turn? ⟨a :: rest, session⟩ ⟨rest, session⟩ = none := by
        cases rest with
        | nil => rfl
        | cons => simp [turn?, hs]
      rw [hnone]
      exact ⟨trivial, h.2⟩
    | some s =>
      obtain ⟨c, hat, rfl⟩ := hnested.exists_at (Program.laidOut_of_parse hparse hb) hs
      have hplays := (hat.plays_act ctx rest.length session.vars).of_run
        (session.note [trace c.statement]) rfl
      simp only [Machine.step, hs] at hstep
      generalize (a.act ctx rest.length c.statement).run.run (session.note [trace c.statement]) =
        r at hplays hstep
      obtain ⟨failure | action, t⟩ := r
      · cases hstep
      · cases action with
        | leave => cases hstep
        | enter program =>
          -- The program that is entered has no block open yet, which shows that no turn was taken.
          cases hstep
          simp only [turn?, hs, Option.bind_some, Activation.start, Activation.turn?_nil]
          exact ⟨trivial, by simp [Frame.Tracked], h⟩
        | jump pc frames =>
          cases hstep
          simp only [turn?, hs, Option.bind_some]
          have hreframes : a.Reframes rest.length _ frames := hplays
          generalize a.turn? rest.length session.vars frames c.statement.command = turn at hreframes
          obtain ⟨hallowed, htracked⟩ := hreframes.tracked h.1
          refine ⟨hallowed, htracked, ?_⟩
          cases turn with
          | none => exact h.2
          | some turn => exact h.2.record (Nat.le_of_eq hreframes.depth_eq.symm)

/-- However many steps a run takes, its turns keep to the rules, and the selects that are open are
    as its turns tell. -/
theorem tracked_run (ctx : Context σ) {m : Machine σ} {ledger : Ledger} (hsound : m.Sound)
    (h : Tracked ledger m.stack) (steps : Nat) : Turn.AllAllowed ledger (m.turns ctx steps) ∧
    match m.run ctx steps with
      | .unfinished next => Tracked (Turn.recordAll ledger (m.turns ctx steps)) next.stack
      | _ => True := by
  induction steps generalizing m ledger with
  | zero => exact ⟨trivial, h⟩
  | succ steps ih =>
    have hsound' := hsound.step ctx
    simp only [turns, Machine.run]
    cases hstep : m.step ctx with
    | ended | failed => exact ⟨trivial, trivial⟩
    | next next =>
      rw [hstep] at hsound'
      obtain ⟨hallowed, htracked⟩ := tracked_step hsound h hstep
      obtain ⟨hallowed', htracked'⟩ := ih hsound' htracked
      refine ⟨(Turn.allAllowed_append _ _).mpr ⟨hallowed, hallowed'⟩, ?_⟩
      simp only [Turn.recordAll_append]
      exact htracked'

end Machine

/-- In every state that a run of a loaded program reaches, an open select knows the values for which
    cases were entered since it was opened, in order; they are distinct, and all of them were
    picked. While a select is open, whatever jumps back to earlier cases, cases are entered for
    distinct values among those that were picked, at most one case is entered unless several values
    may be picked, and a `Default` is entered only while no case has been. -/
theorem Session.values_of_execute {σ : Type} {text : String} {program : Program}
    (hparse : Program.parse text = .ok program) (ctx : Context σ) (session : Session σ)
    (steps : Nat) :
    let turns := (Machine.start program session).turns ctx steps
    (match session.execute ctx steps program with
      | .unfinished m =>
        ∀ above a below, m.stack = above ++ a :: below → ∀ start results matched,
          .selectBlock start results matched ∈ a.frames →
            matched.Nodup ∧ (∀ value ∈ matched, value ∈ results) ∧
              ∃ before several after,
              turns = before ++ .opened ⟨below.length, start⟩ several results :: after ∧
              Turn.Keeps ⟨below.length, start⟩ after ∧
                matched = Turn.values ⟨below.length, start⟩ after
      | _ => True) ∧
    ∀ before select several results during after,
      turns = before ++ .opened select several results :: (during ++ after) →
        Turn.Keeps select during →
        (Turn.values select during).Nodup ∧
          (∀ value ∈ Turn.values select during, value ∈ results) ∧
        (several = false → (Turn.values select during).length ≤ 1) ∧
        ∀ earlier later, during = earlier ++ .defaulted select :: later →
            Turn.values select earlier = [] := by
  intro turns
  have hstart : Machine.Tracked (fun _ => none) (Machine.start program session).stack :=
    ⟨by simp [Frame.Tracked, Activation.start], trivial⟩
  obtain ⟨hallowed, htracked⟩ :=
    Machine.tracked_run ctx (Machine.sound_start hparse session) hstart steps
  have hduring : ∀ before select several results during after,
      turns = before ++ .opened select several results :: (during ++ after) →
        Turn.Keeps select during →
        (several = false → results.length ≤ 1) ∧
          Turn.Fair ⟨several, results, Turn.values select during⟩ ∧
        ∀ earlier later, during = earlier ++ .defaulted select :: later →
            Turn.values select earlier = [] := by
    intro before select several results during after hsplit hkeeps
    change Turn.AllAllowed _ turns at hallowed
    rw [hsplit, Turn.allAllowed_append] at hallowed
    obtain ⟨-, hopened, hrest⟩ := hallowed
    obtain ⟨hduring, -⟩ := (Turn.allAllowed_append _ _).mp hrest
    exact ⟨hopened, Turn.fair_of_allAllowed (t := ⟨several, results, []⟩) (if_pos rfl)
      ⟨List.nodup_nil, by simp⟩ hduring hkeeps⟩
  refine ⟨?_, fun before select several results during after hsplit hkeeps => ?_⟩
  · unfold Session.execute
    generalize (Machine.start program session).run ctx steps = outcome at htracked
    cases outcome with
    | ended | failed => trivial
    | unfinished m =>
      intro above a below hstack start results matched hmem
      change Machine.Tracked _ m.stack at htracked
      rw [hstack] at htracked
      obtain ⟨several, hledger⟩ := htracked.of_append start results matched hmem
      rcases Turn.exists_opened_of_recordAll hledger with ⟨before, after, hsplit, hkeeps,
        hused⟩ | ⟨-, used, hnone, -⟩
      · obtain ⟨-, hfair, -⟩ :=
          hduring before _ several results after [] (by rw [List.append_nil]; exact hsplit) hkeeps
        dsimp only at hused
        rw [← hused] at hfair
        exact ⟨hfair.nodup, hfair.subset, before, several, after, hsplit, hkeeps, hused⟩
      · cases hnone
  · obtain ⟨hsingle, hfair, hdefault⟩ :=
      hduring before select several results during after hsplit hkeeps
    refine ⟨hfair.nodup, hfair.subset, fun hseveral => ?_, hdefault⟩
    exact Nat.le_trans (hfair.nodup.length_le_of_subset hfair.subset) (hsingle hseveral)

/-- A run that jumps back to the cases it has come from enters each of them once. -/
theorem Session.values_of_jumps_back :
    let text :=
      "SelectMany t a b\nLabel again\nCase a\nGoto again\nCase b\nGoto again\nDefault\nEndSelect"
    let ctx : Context Prepared := ⟨⟨.default, .empty, .empty⟩, Prepared.host⟩
    let session := Session.start ({ selections := [[0, 1]] } : Prepared)
    ∃ program a m, Program.parse text = .ok program ∧
      session.execute ctx 11 program = .unfinished ⟨[a], m⟩ ∧
      a.frames = [.selectBlock 0 ["a", "b"] ["a", "b"]] ∧ ∃ before several after,
        (Machine.start program session).turns ctx 11 = before ++ .opened ⟨0, 0⟩ several ["a",
          "b"] :: after ∧
        Turn.Keeps ⟨0, 0⟩ after ∧ ["a", "b"] = Turn.values ⟨0, 0⟩ after := by
  intro text ctx session
  have hframes : (Program.parse text).toOption.map
      (fun program => match session.execute ctx 11 program with
      | .unfinished m => m.stack.map Activation.frames
      | _ => []) = some [[.selectBlock 0 ["a", "b"] ["a", "b"]]] := by
    decide +kernel
  obtain ⟨program, hprogram, hrun⟩ := Option.map_eq_some_iff.mp hframes
  have hparse := Except.toOption_eq_some_iff.mp hprogram
  split at hrun
  · rename_i m hm
    obtain ⟨a, hstack, ha⟩ := List.map_eq_singleton_iff.mp hrun
    obtain ⟨stack, last⟩ := m
    obtain rfl : stack = [a] := hstack
    have hvalues := (Session.values_of_execute hparse ctx session 11).1
    rw [hm] at hvalues
    obtain ⟨-, -, hopened⟩ := hvalues [] a [] rfl 0 ["a", "b"] ["a", "b"] (by simp [ha])
    exact ⟨program, a, last, hparse, hm, ha, hopened⟩
  · cases hrun

end InstallScript
