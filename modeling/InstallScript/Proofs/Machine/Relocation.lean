import InstallScript.Proofs.Machine.Nesting
import InstallScript.Proofs.Nesting.Relocation

/-!
Programs that run at another place. Where a program is found in another one, each of its statements
does there what it does in the program itself, with all indices moved up.
-/

namespace InstallScript

open Script

namespace Exec

variable {σ α β : Type}

theorem lift_map (line : Nat) (f : α → β) (result : Except RunCause α) :
    (Exec.lift line (result.map f) : Exec σ β) = f <$> Exec.lift line result := by
  cases result <;> rfl

end Exec

/-- A frame, moved up by `k` statements. -/
def Frame.shift (k : Nat) : Frame → Frame
  | .ifBlock start => .ifBlock (start + k)
  | .forBlock start stop variableName state => .forBlock (start + k) (stop + k) variableName state
  | .selectBlock start results matched => .selectBlock (start + k) results matched
  | .caseBlock start => .caseBlock (start + k)

/-- What a `Case` or `Default` leads to, moved up by `k` statements. -/
def CaseEntry.shift (k : Nat) (entry : CaseEntry) : CaseEntry :=
  ⟨entry.frames.map (Frame.shift k), entry.entered⟩

/-- Where a run goes, moved up by `k` statements. -/
def Action.shift (k : Nat) : Action → Action
  | .jump pc frames => .jump (pc + k) (frames.map (Frame.shift k))
  | .enter program => .enter program
  | .leave => .leave

namespace Frame

variable (k : Nat) (frames : List Frame)

@[simp] theorem start_shift (f : Frame) : (f.shift k).start = f.start + k := by
  cases f <;> rfl

theorem closeIf_shift (keyword : Keyword) :
    closeIf keyword (frames.map (shift k)) = (closeIf keyword frames).map (List.map (shift k)) := by
  cases frames with
  | nil => rfl
  | cons f rest => cases f <;> rfl

theorem closeCase_shift : closeCase (frames.map (shift k)) = (closeCase frames).map (shift k) := by
  cases frames with
  | nil => rfl
  | cons f rest => cases f <;> rfl

theorem closeSelect_shift :
    closeSelect (frames.map (shift k)) = (closeSelect frames).map (List.map (shift k)) := by
  unfold closeSelect
  rw [closeCase_shift]
  cases closeCase frames with
  | nil => rfl
  | cons f rest => cases f <;> rfl

theorem unwind_shift (keyword : Keyword) (start : Nat) :
    unwind keyword (start + k) (frames.map (shift k)) =
      (unwind keyword start frames).map (List.map (shift k)) := by
  have hsame : ∀ f : Frame, ((f.shift k).start == start + k) = (f.start == start) := by
    intro f
    rw [start_shift, Bool.eq_iff_iff, beq_iff_eq, beq_iff_eq]
    omega
  have hany : (frames.map (shift k)).any (·.start == start + k) =
      frames.any (·.start == start) := by
    rw [List.any_map]
    exact congrArg frames.any (funext hsame)
  have hdrop : (frames.map (shift k)).dropWhile (·.start != start + k) =
      (frames.dropWhile (·.start != start)).map (shift k) := by
    rw [List.dropWhile_map]
    refine congrArg (fun q => (frames.dropWhile q).map (shift k)) (funext fun f => ?_)
    exact congrArg (!·) (hsame f)
  unfold unwind
  rw [hany, hdrop]
  split <;> rfl

theorem leaveTo_shift {p q : Program} {target : Nat}
    (h : p.ancestors (target + k) = (q.ancestors target).map (· + k)) :
    leaveTo p (target + k) (frames.map (shift k)) = (leaveTo q target frames).map (shift k) := by
  unfold leaveTo
  rw [h, List.dropWhile_map]
  refine congrArg (fun q => (frames.dropWhile q).map (shift k)) (funext fun f => ?_)
  have hmem : f.start + k ∈ (q.ancestors target).map (· + k) ↔
      f.start ∈ q.ancestors target := by
    simp
  simp only [Function.comp_apply, start_shift, List.contains_eq_mem, hmem]

theorem enterCase_shift (pc : Nat) (value : String) :
    enterCase (pc + k) value (frames.map (shift k)) =
      (enterCase pc value frames).map (CaseEntry.shift k) := by
  unfold enterCase
  rw [closeCase_shift]
  cases closeCase frames with
  | nil => rfl
  | cons f rest =>
    cases f with
    | selectBlock start results matched =>
      simp only [List.map_cons, shift]
      split <;> rfl
    | ifBlock | forBlock | caseBlock => rfl

theorem enterDefault_shift (pc : Nat) :
    enterDefault (pc + k) (frames.map (shift k)) =
      (enterDefault pc frames).map (CaseEntry.shift k) := by
  unfold enterDefault
  rw [closeCase_shift]
  cases closeCase frames with
  | nil => rfl
  | cons f rest =>
    cases f with
    | selectBlock start results matched =>
      simp only [List.map_cons, shift]
      split <;> rfl
    | ifBlock | forBlock | caseBlock => rfl

end Frame

namespace Activation

/-- A running program, as a part of another program from index `k` on. -/
def relocate (a : Activation) (p : Program) (k : Nat) : Activation :=
  ⟨p, a.pc + k, a.frames.map (Frame.shift k)⟩

variable {σ : Type} (a : Activation) {p : Program} {k : Nat}

@[simp] theorem program_relocate : (a.relocate p k).program = p := rfl

@[simp] theorem pc_relocate : (a.relocate p k).pc = a.pc + k := rfl

@[simp] theorem frames_relocate : (a.relocate p k).frames = a.frames.map (Frame.shift k) := rfl

theorem advance_relocate (frames : List Frame) :
    (a.relocate p k).advance (frames.map (Frame.shift k)) = (a.advance frames).shift k := by
  simp only [advance, pc_relocate, Action.shift, Nat.add_right_comm]

theorem doIf_relocate (elseAt : Option Nat) (stop : Nat) (active : Bool) :
    (a.relocate p k).doIf (elseAt.map (· + k)) (stop + k) active =
      (a.doIf elseAt stop active).shift k := by
  cases active with
  | true =>
    simp only [doIf, pc_relocate, frames_relocate, Action.shift, List.map_cons, Frame.shift,
      Nat.add_right_comm]
  | false =>
    cases elseAt with
    | none => simp only [doIf, frames_relocate, Option.map_none, Action.shift, Nat.add_right_comm]
    | some middle =>
      simp only [doIf, pc_relocate, frames_relocate, Option.map_some, Action.shift,
        List.map_cons, Frame.shift, Nat.add_right_comm]

theorem enterCase_relocate (next : Nat) (entry : CaseEntry) :
    (a.relocate p k).enterCase (next + k) (entry.shift k) = (a.enterCase next entry).shift k := by
  unfold enterCase
  cases hentered : entry.entered with
  | true => simp only [CaseEntry.shift, hentered, if_true, advance_relocate]
  | false => simp only [CaseEntry.shift, hentered, Bool.false_eq_true, if_false, Action.shift]

theorem openLoop_relocate (line stop : Nat) (variableName : String) (state : LoopState) :
    ((a.relocate p k).openLoop line (stop + k) variableName state : Exec σ Action) =
      Action.shift k <$> a.openLoop line stop variableName state := by
  unfold openLoop
  cases state.next? with
  | none => simp only [map_bind, map_pure, frames_relocate, Action.shift, Nat.add_right_comm]
  | some next =>
    simp only [map_bind, map_pure, ← a.advance_relocate (p := p)]
    rfl

theorem nextRound_relocate (line start : Nat) :
    ((a.relocate p k).nextRound line (start + k) : Exec σ Action) =
      Action.shift k <$> a.nextRound line start := by
  unfold nextRound
  simp only [frames_relocate, Frame.unwind_shift, Exec.lift_map, bind_map_left, map_bind]
  refine congrArg _ (funext fun frames => ?_)
  cases frames with
  | nil => rfl
  | cons f rest =>
    cases f with
    | forBlock first stop variableName state =>
      simp only [List.map_cons, Frame.shift]
      cases state.next? with
      | none => simp only [map_pure, Action.shift, Nat.add_right_comm]
      | some next =>
        simp only [map_bind, map_pure, Action.shift, List.map_cons, Frame.shift, Nat.add_right_comm]
    | ifBlock | selectBlock | caseBlock => rfl

theorem exitLoop_relocate (line start : Nat) :
    ((a.relocate p k).exitLoop line (start + k) : Exec σ Action) =
      Action.shift k <$> a.exitLoop line start := by
  unfold exitLoop
  simp only [frames_relocate, Frame.unwind_shift, Exec.lift_map, bind_map_left, map_bind]
  refine congrArg _ (funext fun frames => ?_)
  cases frames with
  | nil => rfl
  | cons f rest =>
    cases f with
    | forBlock first stop variableName state =>
      simp only [List.map_cons, Frame.shift, map_pure, Action.shift, Nat.add_right_comm]
    | ifBlock | selectBlock | caseBlock => rfl

theorem openSelect_relocate (line : Nat) (hlink : p.link (a.pc + k) = (a.program.link a.pc).shift k)
    (results : List String) : ((a.relocate p k).openSelect line results : Exec σ Action) =
      Action.shift k <$> a.openSelect line results := by
  unfold openSelect
  simp only [program_relocate, pc_relocate, hlink]
  cases a.program.link a.pc <;> rfl

theorem execLines_shift (line depth : Nat) (text : String) :
    Action.shift k <$> (execLines line depth text : Exec σ Action) =
      execLines line depth text := by
  unfold execLines
  dsimp only
  split
  · rfl
  · split
    · rfl
    · rfl

/-- A statement does the same at another place, with all indices moved up. -/
theorem At.act_relocate {a : Activation} {cells : List Cell} {c : Cell} (h : a.At cells c)
    (hp : a.program.Embeds p k) (ctx : Context σ) (depth : Nat) :
    (a.relocate p k).act ctx depth c.statement =
      Action.shift k <$> a.act ctx depth c.statement := by
  have hsize : a.pc < a.program.size := by
    rw [h.laidOut.size_eq]
    exact (List.getElem?_eq_some_iff.mp h.cell).1
  have hlink := hp.link a.pc hsize
  have hbreak : ∀ caseAt, c.statement.command = .breakCase →
      a.program.link a.pc = .breakCase caseAt →
      p.link (caseAt + k) = (a.program.link caseAt).shift k := by
    intro caseAt hcommand hback
    have hlt : caseAt < a.pc := h.surrounds.lt_of_mem (h.mem_path_of_break hcommand hback)
    exact hp.link caseAt (by omega)
  have hgoto : ∀ name target, c.statement.command = .goto name →
      a.program.link a.pc = .goto target →
      p.ancestors (target + k) = (a.program.ancestors target).map (· + k) := by
    intro name target hcommand hjump
    obtain ⟨target', d, hfound, hd, -⟩ := h.laidOut.goto a.pc c name h.cell hcommand
    cases hfound.symm.trans hjump
    refine hp.ancestors target ?_
    rw [h.laidOut.size_eq]
    exact (List.getElem?_eq_some_iff.mp hd).1
  obtain ⟨⟨line, command⟩, path, link⟩ := c
  cases command with
  | comment | label => simp only [act, map_pure, frames_relocate, advance_relocate]
  | ifTest negated condition args =>
    simp only [act, program_relocate, pc_relocate, hlink]
    cases a.program.link a.pc with
    | ifTest elseAt stop => simp only [Link.shift, map_bind, map_pure, doIf_relocate]
    | _ => rfl
  | otherwise =>
    simp only [act, program_relocate, pc_relocate, frames_relocate, hlink]
    cases a.program.link a.pc with
    | otherwise stop =>
      simp only [Link.shift, Frame.closeIf_shift, Exec.lift_map, bind_map_left, map_bind,
        map_pure, Action.shift, Nat.add_right_comm]
    | _ => rfl
  | endIf =>
    simp only [act, frames_relocate, Frame.closeIf_shift, Exec.lift_map, bind_map_left,
      map_bind, map_pure, advance_relocate]
  | forLoop header =>
    simp only [act, program_relocate, pc_relocate, hlink]
    cases a.program.link a.pc with
    | loop stop => simp only [Link.shift, map_bind, openLoop_relocate]
    | _ => rfl
  | endFor | continueLoop =>
    simp only [act, program_relocate, pc_relocate, hlink]
    cases a.program.link a.pc with
    | loopControl start => exact a.nextRound_relocate line start
    | _ => rfl
  | exitLoop =>
    simp only [act, program_relocate, pc_relocate, hlink]
    cases a.program.link a.pc with
    | loopControl start => exact a.exitLoop_relocate line start
    | _ => rfl
  | select menu => simp only [act, map_bind, a.openSelect_relocate line hlink]
  | selectVar name =>
    simp only [act, map_bind]
    refine congrArg _ (funext fun s => ?_)
    cases s.vars.get? name with
    | none => rfl
    | some value => exact a.openSelect_relocate line hlink [value]
  | selectString value => simp only [act, map_bind, a.openSelect_relocate line hlink]
  | caseOf value =>
    simp only [act, program_relocate, pc_relocate, frames_relocate, hlink]
    cases a.program.link a.pc with
    | caseOf next select =>
      simp only [Link.shift, Frame.enterCase_shift, Exec.lift_map, bind_map_left, map_bind]
      refine congrArg _ (funext fun s =>
        congrArg _ (funext fun value => congrArg _ (funext fun entry => ?_)))
      rw [a.enterCase_relocate]
      cases hentered : entry.entered with
      | true => simp only [CaseEntry.shift, hentered, if_true, map_bind, map_pure]
      | false => simp only [CaseEntry.shift, hentered, Bool.false_eq_true, if_false, map_pure]
    | _ => rfl
  | defaultCase =>
    simp only [act, program_relocate, pc_relocate, frames_relocate, hlink]
    cases a.program.link a.pc with
    | caseOf next select =>
      simp only [Link.shift, Frame.enterDefault_shift, Exec.lift_map, bind_map_left,
        map_bind, map_pure, enterCase_relocate]
    | _ => rfl
  | breakCase =>
    simp only [act, program_relocate, pc_relocate, frames_relocate, hlink]
    cases hback : a.program.link a.pc with
    | breakCase caseAt =>
      simp only [Link.shift, hbreak caseAt rfl hback]
      cases a.program.link caseAt with
      | caseOf next select =>
        simp only [Frame.unwind_shift, Exec.lift_map, bind_map_left, map_bind, map_pure,
          Action.shift, List.map_tail]
      | _ => rfl
    | _ => rfl
  | endSelect =>
    simp only [act, frames_relocate, Frame.closeSelect_shift, Exec.lift_map, bind_map_left,
      map_bind, map_pure, advance_relocate]
  | goto name =>
    simp only [act, program_relocate, pc_relocate, frames_relocate, hlink]
    cases hjump : a.program.link a.pc with
    | goto target =>
      have hleave := Frame.leaveTo_shift k a.frames (hgoto name target rfl hjump)
      simp only [Link.shift, map_bind, map_pure, Action.shift, hleave]
    | _ => rfl
  | returnEarly | fatalError => rfl
  | setVar name value => simp only [act, map_bind, map_pure, frames_relocate, advance_relocate]
  | instruction kind args =>
    by_cases hexec : kind = .execLines
    · subst hexec
      simp only [act, map_bind, execLines_shift]
    · rw [act_instruction _ ctx depth line args hexec, act_instruction _ ctx depth line args hexec]
      simp only [map_bind, map_pure, frames_relocate, advance_relocate]

end Activation

end InstallScript
