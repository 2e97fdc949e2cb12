import InstallScript.Proofs.Machine.Nesting
import InstallScript.Proofs.Machine.Sequence
import InstallScript.Proofs.Nesting.Ahead

/-!
How a run gets on. A statement of a loaded program leads on to a later one, where no loop is open
that was not open before, or it starts a loop, or it starts the next round of a loop. Where jumps
lead on as well, nothing else takes a run back.
-/

namespace InstallScript

open Script

namespace Exec

variable {σ α β : Type}

/-- Whether a property holds of whatever a step gives, unless it fails. -/
def Gives (x : Exec σ α) (q : α → Prop) : Prop :=
  Meets (fun _ => True) x (fun a _ => q a) fun _ _ => True

namespace Gives

variable {q : α → Prop}

theorem any (x : Exec σ α) : Gives x fun _ => True := by
  refine ⟨fun s _ => ?_⟩
  generalize x.run.run s = r
  obtain ⟨failure | a, t⟩ := r
  · trivial
  · trivial

protected theorem pure {a : α} (h : q a) : Gives (pure a : Exec σ α) q :=
  Meets.pure fun _ _ => h

protected theorem throw (failure : Failure) : Gives (throw failure : Exec σ α) q :=
  Meets.throw fun _ _ => trivial

theorem fail (line : Nat) (cause : RunCause) : Gives (Exec.fail line cause : Exec σ α) q :=
  Meets.fail fun _ _ => trivial

protected theorem bind {x : Exec σ α} {f : α → Exec σ β} {r : β → Prop} (hx : Gives x q)
    (hf : ∀ a, q a → Gives (f a) r) : Gives (x >>= f) r :=
  Meets.bind hx fun a => ⟨fun s ha => (hf a ha).of_run s trivial⟩

/-- A step whose result does not matter for what comes after it. -/
theorem any_bind {x : Exec σ α} {f : α → Exec σ β} {r : β → Prop}
    (hf : ∀ a, Gives (f a) r) :
    Gives (x >>= f) r :=
  (any x).bind fun a _ => hf a

theorem lift_bind {line : Nat} {result : Except RunCause α} {f : α → Exec σ β}
    {r : β → Prop} (hf : ∀ a, result = .ok a → Gives (f a) r) :
    Gives (Exec.lift line result >>= f) r := by
  have hlift : Gives (Exec.lift line result : Exec σ α) fun a => result = .ok a :=
    Meets.lift (fun a ha _ _ => ha) fun _ _ _ _ => trivial
  exact hlift.bind hf

end Gives

end Exec

namespace Frame

/-- The loops that are open, innermost first: where each starts, and where it is in its sequence. -/
def loops (frames : List Frame) : List (Nat × LoopState) :=
  frames.filterMap fun
    | .forBlock start _ _ state => some (start, state)
    | _ => none

variable {frames rest result : List Frame} {keyword : Keyword}

theorem loops_suffix (h : rest <:+ frames) : loops rest <:+ loops frames :=
  h.filterMap _

/-- A loop that is open is one of the loops, with those around it behind it. -/
theorem loops_suffix_of_append {before : List Frame} {start stop : Nat} {variableName : String}
    {state : LoopState} (h : frames = before ++ .forBlock start stop variableName state :: rest) :
    (start, state) :: loops rest <:+ loops frames := by
  rw [h]
  exact loops_suffix (List.suffix_append before (.forBlock start stop variableName state :: rest))

theorem suffix_of_closeIf (h : closeIf keyword frames = .ok rest) : rest <:+ frames := by
  unfold closeIf at h
  split at h
  · cases h
    exact List.suffix_cons _ _
  · cases h

theorem closeCase_suffix (frames : List Frame) : closeCase frames <:+ frames := by
  unfold closeCase
  split
  · exact List.suffix_cons _ _
  · exact List.suffix_refl _

theorem suffix_of_closeSelect (h : closeSelect frames = .ok rest) : rest <:+ frames := by
  have hclose := closeCase_suffix frames
  unfold closeSelect at h
  split at h
  · rename_i heq
    cases h
    rw [heq] at hclose
    exact (List.suffix_cons _ _).trans hclose
  · cases h

/-- Closing blocks up to one of them leaves it as the innermost one. -/
theorem suffix_of_unwind {start : Nat} (h : unwind keyword start frames = .ok rest) :
    rest <:+ frames ∧ ∀ f, rest.head? = some f → f.start = start := by
  unfold unwind at h
  split at h
  · cases h
    refine ⟨List.dropWhile_suffix _, fun f hf => ?_⟩
    have hhead := List.head?_dropWhile_not (fun f : Frame => f.start != start) frames
    rw [hf] at hhead
    simpa using hhead
  · cases h

theorem loops_enterCase {pc : Nat} {value : String} {entry : CaseEntry}
    (h : enterCase pc value frames = .ok entry) : loops entry.frames <:+ loops frames := by
  have hclose := loops_suffix (closeCase_suffix frames)
  unfold enterCase at h
  split at h
  · rename_i heq
    rw [heq] at hclose
    split at h
    · cases h
      exact hclose
    · cases h
      exact hclose
  · cases h

theorem loops_enterDefault {pc : Nat} {entry : CaseEntry} (h : enterDefault pc frames = .ok entry) :
    loops entry.frames <:+ loops frames := by
  have hclose := loops_suffix (closeCase_suffix frames)
  unfold enterDefault at h
  split at h
  · rename_i heq
    rw [heq] at hclose
    cases h
    split
    · exact hclose
    · exact hclose
  · cases h

end Frame

/-- What a statement can do to the place where a program is and to the loops that are open. -/
inductive Activation.Moves (a : Activation) : Action → Prop where
  | onward {pc : Nat} {frames : List Frame} : a.pc < pc →
      Frame.loops frames <:+ Frame.loops a.frames →
      Moves a (.jump pc frames)
  | loop {stop : Nat} {variableName : String} {state : LoopState} : state.InRange →
      Moves a (.jump (a.pc + 1) (.forBlock a.pc stop variableName state :: a.frames))
  | round {before rest : List Frame} {start stop : Nat} {variableName item : String}
      {state next : LoopState} :
      a.frames = before ++ .forBlock start stop variableName state :: rest →
        state.next? = some (item, next) →
      Moves a (.jump (start + 1) (.forBlock start stop variableName next :: rest))
  | leave : Moves a .leave

namespace Activation

variable {σ : Type} {a : Activation}

theorem moves_advance : a.Moves (a.advance a.frames) :=
  .onward (Nat.lt_succ_self _) (List.suffix_refl _)

theorem moves_advance_of_suffix {frames : List Frame} (h : frames <:+ a.frames) :
    a.Moves (a.advance frames) :=
  .onward (Nat.lt_succ_self _) (Frame.loops_suffix h)

theorem moves_doIf {elseAt : Option Nat} {stop : Nat} (h : (Link.ifTest elseAt stop).Ahead a.pc)
    (active : Bool) :
    a.Moves (a.doIf elseAt stop active) := by
  obtain ⟨helse, hstop⟩ := h
  cases active with
  | true => exact .onward (Nat.lt_succ_self _) (List.suffix_refl _)
  | false =>
    cases elseAt with
    | none => exact .onward (by omega) (List.suffix_refl _)
    | some middle =>
      have hmiddle := helse middle rfl
      exact .onward (by omega) (List.suffix_refl _)

theorem moves_enterCase {next : Nat} {entry : CaseEntry} (hnext : a.pc < next)
    (hloops : Frame.loops entry.frames <:+ Frame.loops a.frames) :
    a.Moves (a.enterCase next entry) := by
  unfold enterCase
  split
  · exact .onward (Nat.lt_succ_self _) hloops
  · exact .onward hnext hloops

theorem gives_openLoop (line : Nat) {stop : Nat} (hstop : a.pc < stop) (variableName : String)
    {state : LoopState} (hstate : state.InRange) :
    (a.openLoop line stop variableName state : Exec σ Action).Gives a.Moves := by
  have hnext := hstate.next?
  unfold openLoop
  split
  · refine Exec.Gives.any_bind fun _ => Exec.Gives.pure ?_
    exact .onward (by omega) (List.suffix_refl _)
  · rename_i item next heq
    rw [heq] at hnext
    exact Exec.Gives.any_bind fun _ => Exec.Gives.pure (.loop hnext.1)

theorem gives_openSelect (line : Nat) (h : (a.program.link a.pc).Ahead a.pc)
    (results : List String) :
    (a.openSelect line results : Exec σ Action).Gives a.Moves := by
  unfold openSelect
  split
  · rename_i first stop hlink
    rw [hlink] at h
    exact Exec.Gives.pure (.onward h (List.suffix_refl _))
  · exact Exec.Gives.fail line _

/-- The next round of a loop that is open, or what follows the loop. -/
theorem gives_nextRound (line start : Nat)
    (h : ∀ first stop variableName state, .forBlock first stop variableName state ∈ a.frames →
      a.pc ≤ stop) :
    (a.nextRound line start : Exec σ Action).Gives a.Moves := by
  refine Exec.Gives.lift_bind fun frames hframes => ?_
  obtain ⟨hsuffix, hhead⟩ := Frame.suffix_of_unwind hframes
  split
  · rename_i first stop variableName state rest
    obtain rfl : first = start := hhead _ rfl
    have hstop := h first stop variableName state (hsuffix.subset List.mem_cons_self)
    split
    · rename_i item next hnext
      obtain ⟨before, hbefore⟩ := hsuffix
      exact Exec.Gives.any_bind fun _ => Exec.Gives.pure (.round hbefore.symm hnext)
    · refine Exec.Gives.pure (.onward (by omega) ?_)
      exact Frame.loops_suffix ((List.suffix_cons _ _).trans hsuffix)
  · exact Exec.Gives.fail line _

theorem gives_exitLoop (line start : Nat)
    (h : ∀ first stop variableName state, .forBlock first stop variableName state ∈ a.frames →
      a.pc ≤ stop) :
    (a.exitLoop line start : Exec σ Action).Gives a.Moves := by
  refine Exec.Gives.lift_bind fun frames hframes => ?_
  obtain ⟨hsuffix, -⟩ := Frame.suffix_of_unwind hframes
  split
  · rename_i first stop variableName state rest
    have hstop := h first stop variableName state (hsuffix.subset List.mem_cons_self)
    refine Exec.Gives.pure (.onward (by omega) ?_)
    exact Frame.loops_suffix ((List.suffix_cons _ _).trans hsuffix)
  · exact Exec.Gives.fail line _

namespace At

variable {cells : List Cell} {c : Cell}

/-- A loop that is open is one of the loops around the statement that a program is at. -/
theorem mem_path_of_loop (h : a.At cells c) {start stop : Nat} {variableName : String}
    {state : LoopState} (hmem : .forBlock start stop variableName state ∈ a.frames) :
    ⟨.loop, start⟩ ∈ c.path := by
  have henclosure : ⟨.loop, start⟩ ∈ Frame.path a.frames :=
    List.mem_map_of_mem (f := Frame.enclosure) hmem
  rcases h.frames with hpath | ⟨-, first, hpath⟩
  · rwa [hpath] at henclosure
  · rw [hpath] at henclosure
    rcases List.mem_cons.mp henclosure with heq | hin
    · cases heq
    · exact hin

/-- The program's link at the start of a block around a statement spans the statement. -/
theorem spans_link (h : a.At cells c) (hahead : c.Ahead cells a.pc) {e : Enclosure}
    (he : e ∈ c.path) :
    (a.program.link e.start).Spans a.pc := by
  obtain ⟨opener, hopener, hopens⟩ := h.surrounds.exists_opener he
  rw [h.link_opener hopener hopens]
  exact hahead.2 e he opener hopener

theorem le_stop_of_loop (h : a.At cells c) (hahead : c.Ahead cells a.pc) {start stop : Nat}
    {variableName : String} {state : LoopState}
    (hmem : .forBlock start stop variableName state ∈ a.frames) : a.pc ≤ stop := by
  have hspans := h.spans_link hahead (h.mem_path_of_loop hmem)
  have hlink : a.program.link start = .loop stop := h.linked _ hmem
  rw [hlink] at hspans
  exact hspans

/-- What follows the case that a `Break` ends lies behind the `Break`. -/
theorem lt_of_break (h : a.At cells c) (hahead : c.Ahead cells a.pc)
    (hbreak : c.statement.command = .breakCase) {caseAt next select : Nat}
    (hlink : a.program.link a.pc = .breakCase caseAt)
    (hcase : a.program.link caseAt = .caseOf next select) : a.pc < next := by
  have hspans := h.spans_link hahead (h.mem_path_of_break hbreak hlink)
  rw [hcase] at hspans
  exact hspans

/-- Wherever a statement other than an `ExecLines` leads, it leads on, or to the next round of a
    loop. -/
theorem gives_act (h : a.At cells c) (hahead : c.Ahead cells a.pc)
    (hgoto : ∀ target, a.program.link a.pc = .goto target → a.pc < target)
    (hexec : ∀ args, c.statement.command ≠ .instruction .execLines args) (ctx : Context σ)
    (depth : Nat) :
    (a.act ctx depth c.statement).Gives a.Moves := by
  have hlink : (∀ name, c.statement.command ≠ .goto name) →
      (a.program.link a.pc).Ahead a.pc := by
    intro hne
    rw [h.link_eq hne]
    exact hahead.1
  have hloops : ∀ first stop variableName state,
      .forBlock first stop variableName state ∈ a.frames → a.pc ≤ stop :=
    fun _ _ _ _ hmem => h.le_stop_of_loop hahead hmem
  have hbreak : c.statement.command = .breakCase →
      ∀ caseAt next select, a.program.link a.pc = .breakCase caseAt →
      a.program.link caseAt = .caseOf next select → a.pc < next :=
    fun hcommand _ _ _ => h.lt_of_break hahead hcommand
  obtain ⟨⟨line, command⟩, path, link⟩ := c
  cases command with
  | comment | label => exact Exec.Gives.pure moves_advance
  | ifTest negated condition args =>
    have hif := hlink (by simp)
    simp only [act]
    split
    · rename_i elseAt stop heq
      rw [heq] at hif
      exact Exec.Gives.any_bind fun result => Exec.Gives.pure (moves_doIf hif _)
    · exact Exec.Gives.fail line _
  | otherwise =>
    have helse := hlink (by simp)
    simp only [act]
    split
    · rename_i stop heq
      rw [heq] at helse
      refine Exec.Gives.lift_bind fun frames hframes => Exec.Gives.pure ?_
      exact .onward (Nat.lt_succ_of_lt helse) (Frame.loops_suffix (Frame.suffix_of_closeIf hframes))
    · exact Exec.Gives.fail line _
  | endIf =>
    refine Exec.Gives.lift_bind fun frames hframes => Exec.Gives.pure ?_
    exact moves_advance_of_suffix (Frame.suffix_of_closeIf hframes)
  | forLoop header =>
    have hfor := hlink (by simp)
    simp only [act]
    split
    · rename_i stop heq
      rw [heq] at hfor
      refine Exec.Gives.any_bind fun s => Exec.Gives.lift_bind fun state hstate => ?_
      refine Exec.Gives.any_bind fun _ => gives_openLoop line hfor _ ?_
      exact LoopState.inRange_of_ofHeader hstate
    · exact Exec.Gives.fail line _
  | endFor | continueLoop =>
    simp only [act]
    split
    · exact gives_nextRound line _ hloops
    · exact Exec.Gives.fail line _
  | exitLoop =>
    simp only [act]
    split
    · exact gives_exitLoop line _ hloops
    · exact Exec.Gives.fail line _
  | select menu =>
    exact Exec.Gives.any_bind fun results => gives_openSelect line (hlink (by simp)) results
  | selectVar name =>
    refine Exec.Gives.any_bind fun s => ?_
    split
    · exact gives_openSelect line (hlink (by simp)) _
    · exact Exec.Gives.fail line _
  | selectString value =>
    exact Exec.Gives.any_bind fun s => Exec.Gives.any_bind fun value =>
      gives_openSelect line (hlink (by simp)) _
  | caseOf value =>
    have hcase := hlink (by simp)
    simp only [act]
    split
    · rename_i next select heq
      rw [heq] at hcase
      refine Exec.Gives.any_bind fun s => Exec.Gives.any_bind fun value => ?_
      refine Exec.Gives.lift_bind fun entry hentry => ?_
      have hmoves := moves_enterCase hcase (Frame.loops_enterCase hentry)
      split
      · exact Exec.Gives.any_bind fun _ => Exec.Gives.pure hmoves
      · exact Exec.Gives.pure hmoves
    · exact Exec.Gives.fail line _
  | defaultCase =>
    have hcase := hlink (by simp)
    simp only [act]
    split
    · rename_i next select heq
      rw [heq] at hcase
      refine Exec.Gives.lift_bind fun entry hentry => Exec.Gives.pure ?_
      exact moves_enterCase hcase (Frame.loops_enterDefault hentry)
    · exact Exec.Gives.fail line _
  | breakCase =>
    simp only [act]
    split
    · rename_i caseAt heq
      split
      · rename_i next select hcase
        refine Exec.Gives.lift_bind fun frames hframes => Exec.Gives.pure ?_
        obtain ⟨hsuffix, -⟩ := Frame.suffix_of_unwind hframes
        exact .onward (hbreak rfl _ _ _ heq hcase)
          (Frame.loops_suffix ((List.tail_suffix _).trans hsuffix))
      · exact Exec.Gives.fail line _
    · exact Exec.Gives.fail line _
  | endSelect =>
    refine Exec.Gives.lift_bind fun frames hframes => Exec.Gives.pure ?_
    exact moves_advance_of_suffix (Frame.suffix_of_closeSelect hframes)
  | goto name =>
    simp only [act]
    split
    · rename_i target heq
      refine Exec.Gives.any_bind fun _ => Exec.Gives.pure ?_
      exact .onward (hgoto target heq) (Frame.loops_suffix (List.dropWhile_suffix _))
    · exact Exec.Gives.fail line _
  | returnEarly => exact Exec.Gives.any_bind fun _ => Exec.Gives.pure .leave
  | fatalError => exact Exec.Gives.any_bind fun _ => Exec.Gives.throw _
  | setVar name value =>
    refine Exec.Gives.any_bind fun s => Exec.Gives.any_bind fun value => ?_
    exact Exec.Gives.any_bind fun _ => Exec.Gives.pure moves_advance
  | instruction kind args =>
    have hkind : kind ≠ .execLines := by
      rintro rfl
      exact hexec args rfl
    rw [act_instruction a ctx depth line args hkind]
    exact Exec.Gives.any_bind fun _ => Exec.Gives.pure moves_advance

end At

end Activation

end InstallScript
