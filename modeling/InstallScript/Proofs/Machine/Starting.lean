import InstallScript.Machine.Run
import InstallScript.Proofs.Machine.Nesting

/-!
What starts a program inside another one. Only `ExecLines` does, and only it fails because of a
program that cannot be loaded or that would be nested too deeply.
-/

namespace InstallScript

open Script

/-- Whether a computation that fails does not do so because of a program inside another one. -/
def Spares {α : Type} (x : Except RunCause α) : Prop :=
  ∀ cause, x = .error cause → cause.isNesting = false

theorem FailsOpenly.spares {α : Type} {x : Except RunCause α} (h : FailsOpenly x) : Spares x :=
  fun cause hcause => (h cause hcause).2.2

namespace Frame

variable {keyword : Keyword} {frames : List Frame}

theorem spares_closeIf : Spares (closeIf keyword frames) := by
  unfold closeIf Spares
  split <;> simp

theorem spares_closeSelect : Spares (closeSelect frames) := by
  unfold closeSelect Spares
  split <;> simp

theorem spares_unwind {start : Nat} : Spares (unwind keyword start frames) := by
  unfold unwind Spares
  split <;> simp

theorem spares_enterCase {pc : Nat} {value : String} : Spares (enterCase pc value frames) := by
  unfold enterCase Spares
  split
  · split <;> simp
  · simp

theorem spares_enterDefault {pc : Nat} : Spares (enterDefault pc frames) := by
  unfold enterDefault Spares
  split <;> simp

end Frame

theorem spares_checkSelection (prompt : Prompt) (picked : List Nat) :
    Spares (checkSelection prompt picked) := by
  unfold checkSelection Spares
  split
  · simp
  · split <;> simp

namespace Exec

variable {σ α β : Type}

/-- Whether a step keeps to its own program: its result has a property, and it does not fail because
    of a program inside another one. -/
def Within (x : Exec σ α) (q : α → Prop) : Prop :=
  Meets (fun _ => True) x (fun a _ => q a) fun failure _ => failure.isNesting = false

namespace Within

variable {q : α → Prop} {r : β → Prop}

protected theorem bind {x : Exec σ α} {f : α → Exec σ β} (hx : Within x fun _ => True)
    (hf : ∀ a, Within (f a) r) :
    Within (x >>= f) r :=
  Meets.bind hx fun a => ⟨fun s _ => (hf a).of_run s trivial⟩

protected theorem pure {a : α} (h : q a) : Within (pure a : Exec σ α) q :=
  Meets.pure fun _ _ => h

theorem get_bind {f : Session σ → Exec σ β} (hf : ∀ s, Within (f s) r) :
    Within (get >>= f) r :=
  Within.bind (Meets.get fun _ _ => trivial) hf

protected theorem modify (f : Session σ → Session σ) :
    Within (modify f : Exec σ PUnit) fun _ => True :=
  Meets.modify fun _ _ => trivial

theorem note (events : List Event) : Within (Exec.note events : Exec σ Unit) fun _ => True :=
  Meets.note fun _ _ => trivial

theorem note_bind {events : List Event} {f : Unit → Exec σ β} (hf : ∀ a, Within (f a) r) :
    Within (Exec.note events >>= f) r :=
  (Within.note events).bind hf

theorem throw {failure : Failure} (h : failure.isNesting = false) :
    Within (throw failure : Exec σ α) q :=
  Meets.throw fun _ _ => h

theorem fail {line : Nat} {cause : RunCause} (h : cause.isNesting = false) :
    Within (Exec.fail line cause : Exec σ α) q :=
  Meets.fail fun _ _ => h

theorem lift_bind {line : Nat} {result : Except RunCause α} {f : α → Exec σ β}
    (h : Spares result) (hf : ∀ a, result = .ok a → Within (f a) r) :
    Within (Exec.lift line result >>= f) r := by
  have hlift : Within (Exec.lift line result : Exec σ α) fun a => result = .ok a :=
    Meets.lift (fun a ha _ _ => ha) fun cause hcause _ _ => h cause hcause
  exact Meets.bind hlift fun a => ⟨fun s ha => (hf a ha).of_run s trivial⟩

theorem call (line : Nat) (call : HostCall σ α) : Within (Exec.call line call) fun _ => True :=
  Meets.call (fun _ _ _ => trivial) fun _ _ _ => rfl

theorem call_bind {line : Nat} {call : HostCall σ α} {f : α → Exec σ β}
    (hf : ∀ a, Within (f a) r) :
    Within (Exec.call line call >>= f) r :=
  (Within.call line call).bind hf

end Within

end Exec

section Effects

variable {σ : Type} (ctx : Context σ) (line : Nat)

theorem Script.Condition.within_holds (condition : Condition) (args : List String) :
    (condition.holds ctx line args).Within fun _ => True := by
  have hversion : ∀ value, Spares (Argument.version value) :=
    fun value => (Argument.failsOpenly_version value).spares
  have hinteger : ∀ range value, Spares (Argument.integer range value) :=
    fun range value => (Argument.failsOpenly_integer range value).spares
  have hreal : ∀ value, Spares (Argument.real value) :=
    fun value => (Argument.failsOpenly_real value).spares
  cases condition with
  | dialogYesNo =>
    refine Exec.Within.call_bind fun answer => ?_
    cases answer with
    | yes | no => exact Exec.Within.pure trivial
    | cancel => exact Exec.Within.throw rfl
  | dataFileExists => exact Exec.Within.call line _
  | versionGreaterThan | versionLessThan =>
    exact Exec.Within.lift_bind (hversion _) fun _ _ => Exec.Within.pure trivial
  | scriptExtenderPresent | graphicsExtenderPresent =>
    exact Exec.Within.call_bind fun _ => Exec.Within.pure trivial
  | scriptExtenderNewerThan | graphicsExtenderNewerThan | oblivionNewerThan =>
    exact Exec.Within.lift_bind (hversion _) fun _ _ => Exec.Within.call_bind fun _ =>
      Exec.Within.pure trivial
  | equal => exact Exec.Within.pure trivial
  | greaterEqual | greaterThan =>
    exact Exec.Within.lift_bind (hinteger _ _) fun _ _ =>
        Exec.Within.lift_bind (hinteger _ _) fun _ _ =>
      Exec.Within.pure trivial
  | fGreaterEqual | fGreaterThan =>
    exact Exec.Within.lift_bind (hreal _) fun _ _ => Exec.Within.lift_bind (hreal _) fun _ _ =>
      Exec.Within.pure trivial

theorem Script.Condition.within_test (condition : Condition) (args : List String) :
    (condition.test ctx line args).Within fun _ => True := by
  refine Exec.Within.get_bind fun s => ?_
  refine Exec.Within.lift_bind (failsOpenly_substituteAll s.vars args).spares fun values _ => ?_
  refine (condition.within_holds ctx line values).bind fun _ => ?_
  exact Exec.Within.note_bind fun _ => Exec.Within.pure trivial

theorem Script.Menu.within_pick (menu : Menu) : (menu.pick ctx line).Within fun _ => True := by
  refine Exec.Within.get_bind fun s => ?_
  refine Exec.Within.lift_bind (failsOpenly_ofMenu ctx.toSite s.vars menu).spares fun prompt _ => ?_
  refine Exec.Within.call_bind fun picked =>
    Exec.Within.lift_bind (spares_checkSelection prompt picked) fun _ _ => ?_
  exact Exec.Within.note_bind fun _ => Exec.Within.pure trivial

theorem Effect.within_perform (effect : Effect) :
    (effect.perform ctx line).Within fun _ => True := by
  cases effect with
  | change | assign => exact Exec.Within.modify _
  | message | showImage | showText => exact Exec.Within.call line _
  | input | readIni | readRenderer => exact Exec.Within.call_bind fun _ => Exec.Within.modify _
  | note => exact Exec.Within.note _

theorem Instruction.within_run {kind : Keyword} {args : List String} (hkind : kind.isAction = true)
    (hexec : kind ≠ .execLines) (hargs : kind.arity.admits args.length = true) :
    (Instruction.run ctx line kind args).Within fun _ => True := by
  have hinterpret : ∀ (s : Session σ) values, s.vars.substituteAll args = .ok values →
      Spares (interpret ctx.toSite s.plan line kind values) := fun s values hvalues =>
    (failsOpenly_interpret ctx.toSite s.plan line hkind hexec
      (length_of_substituteAll s.vars hvalues ▸ hargs)).spares
  rw [run_eq]
  refine Exec.Within.get_bind fun s => ?_
  refine Exec.Within.lift_bind (failsOpenly_substituteAll s.vars args).spares fun values hvalues =>
    ?_
  exact Exec.Within.lift_bind (hinterpret s values hvalues) fun effect _ =>
    effect.within_perform ctx line

end Effects

/-- Whether a run goes on in the same program, or ends. -/
def Action.Stays (action : Action) : Prop :=
  ∀ program, action ≠ .enter program

theorem Action.stays_jump (pc : Nat) (frames : List Frame) : (Action.jump pc frames).Stays := by
  rintro program ⟨⟩

theorem Action.stays_leave : Action.leave.Stays := by
  rintro program ⟨⟩

namespace Activation

variable {σ : Type} (ctx : Context σ) (line : Nat) (a : Activation)

theorem stays_doIf (elseAt : Option Nat) (stop : Nat) (active : Bool) :
    (a.doIf elseAt stop active).Stays := by
  unfold doIf
  split <;> exact Action.stays_jump _ _

theorem stays_enterCase (next : Nat) (entry : CaseEntry) : (a.enterCase next entry).Stays := by
  unfold enterCase
  split <;> exact Action.stays_jump _ _

theorem within_openLoop (stop : Nat) (variableName : String) (state : LoopState) :
    (a.openLoop line stop variableName state : Exec σ Action).Within Action.Stays := by
  unfold openLoop
  split
  · exact Exec.Within.note_bind fun _ => Exec.Within.pure (Action.stays_jump _ _)
  · exact (Exec.Within.modify _).bind fun _ => Exec.Within.pure (Action.stays_jump _ _)

theorem within_nextRound (start : Nat) :
    (a.nextRound line start : Exec σ Action).Within Action.Stays := by
  refine Exec.Within.lift_bind Frame.spares_unwind fun frames _ => ?_
  split
  · split
    · exact (Exec.Within.modify _).bind fun _ => Exec.Within.pure (Action.stays_jump _ _)
    · exact Exec.Within.pure (Action.stays_jump _ _)
  · exact Exec.Within.fail rfl

theorem within_exitLoop (start : Nat) :
    (a.exitLoop line start : Exec σ Action).Within Action.Stays := by
  refine Exec.Within.lift_bind Frame.spares_unwind fun frames _ => ?_
  split
  · exact Exec.Within.pure (Action.stays_jump _ _)
  · exact Exec.Within.fail rfl

theorem within_openSelect (results : List String) :
    (a.openSelect line results : Exec σ Action).Within Action.Stays := by
  unfold openSelect
  split
  · exact Exec.Within.pure (Action.stays_jump _ _)
  · exact Exec.Within.fail rfl

/-- A statement other than `ExecLines` keeps to its program. -/
theorem within_act {statement : Statement} (hshape : statement.command.WellShaped)
    (hexec : ∀ args, statement.command ≠ .instruction .execLines args) (depth : Nat) :
    (a.act ctx depth statement).Within Action.Stays := by
  have hsubstitute : ∀ (s : Session σ) text, Spares (s.vars.substitute text) :=
    fun s text => (failsOpenly_substitute s.vars text).spares
  obtain ⟨line, command⟩ := statement
  cases command with
  | comment | label => exact Exec.Within.pure (Action.stays_jump _ _)
  | ifTest negated condition args =>
    simp only [act]
    split
    · exact (condition.within_test ctx line args).bind fun _ =>
        Exec.Within.pure (a.stays_doIf _ _ _)
    · exact Exec.Within.fail rfl
  | otherwise =>
    simp only [act]
    split
    · exact Exec.Within.lift_bind Frame.spares_closeIf fun _ _ =>
        Exec.Within.pure (Action.stays_jump _ _)
    · exact Exec.Within.fail rfl
  | endIf =>
    exact Exec.Within.lift_bind Frame.spares_closeIf fun _ _ =>
      Exec.Within.pure (Action.stays_jump _ _)
  | forLoop header =>
    simp only [act]
    split
    · refine Exec.Within.get_bind fun s => ?_
      refine Exec.Within.lift_bind (failsOpenly_ofHeader line ctx.toSite s.vars header).spares
        fun state _ => ?_
      exact Exec.Within.note_bind fun _ => a.within_openLoop line _ _ _
    · exact Exec.Within.fail rfl
  | endFor | continueLoop =>
    simp only [act]
    split
    · exact a.within_nextRound line _
    · exact Exec.Within.fail rfl
  | exitLoop =>
    simp only [act]
    split
    · exact a.within_exitLoop line _
    · exact Exec.Within.fail rfl
  | select menu =>
    exact (menu.within_pick ctx line).bind fun results => a.within_openSelect line results
  | selectVar name =>
    refine Exec.Within.get_bind fun s => ?_
    cases s.vars.get? name with
    | none => exact Exec.Within.fail rfl
    | some value => exact a.within_openSelect line [value]
  | selectString value =>
    refine Exec.Within.get_bind fun s => ?_
    exact Exec.Within.lift_bind (hsubstitute s value) fun value _ =>
      a.within_openSelect line [value]
  | caseOf value =>
    simp only [act]
    split
    · refine Exec.Within.get_bind fun s => Exec.Within.lift_bind (hsubstitute s value)
        fun value _ => ?_
      refine Exec.Within.lift_bind Frame.spares_enterCase fun entry _ => ?_
      split
      · exact Exec.Within.note_bind fun _ => Exec.Within.pure (a.stays_enterCase _ _)
      · exact Exec.Within.pure (a.stays_enterCase _ _)
    · exact Exec.Within.fail rfl
  | defaultCase =>
    simp only [act]
    split
    · exact Exec.Within.lift_bind Frame.spares_enterDefault fun _ _ =>
        Exec.Within.pure (a.stays_enterCase _ _)
    · exact Exec.Within.fail rfl
  | breakCase =>
    simp only [act]
    split
    · split
      · exact Exec.Within.lift_bind Frame.spares_unwind fun _ _ =>
          Exec.Within.pure (Action.stays_jump _ _)
      · exact Exec.Within.fail rfl
    · exact Exec.Within.fail rfl
  | endSelect =>
    exact Exec.Within.lift_bind Frame.spares_closeSelect fun _ _ =>
      Exec.Within.pure (Action.stays_jump _ _)
  | goto name =>
    simp only [act]
    split
    · exact Exec.Within.note_bind fun _ => Exec.Within.pure (Action.stays_jump _ _)
    · exact Exec.Within.fail rfl
  | returnEarly => exact Exec.Within.note_bind fun _ => Exec.Within.pure Action.stays_leave
  | fatalError => exact Exec.Within.note_bind fun _ => Exec.Within.throw rfl
  | setVar name value =>
    refine Exec.Within.get_bind fun s => Exec.Within.lift_bind (hsubstitute s value) fun value _ =>
      ?_
    exact (Exec.Within.modify _).bind fun _ => Exec.Within.pure (Action.stays_jump _ _)
  | instruction kind args =>
    have hkind : kind ≠ .execLines := fun heq => hexec args (by rw [heq])
    rw [act_instruction a ctx depth line args hkind]
    refine (Instruction.within_run ctx line hshape.1 hkind hshape.2).bind fun _ =>
      Exec.Within.pure ?_
    exact Action.stays_jump _ _

/-- The program text in what `ExecLines` is given, where bars separate lines. -/
def execSource (text : String) : String :=
  String.ofList (Text.joinWith ['\n'] (Text.splitAt (· == '|') text.toList))

/-- A program has come to an `ExecLines` on a line, which gives a text once values are put in. -/
def Passes (vars : Variables) (line : Nat) (text : String) : Prop :=
  ∃ args template, a.program.statements[a.pc]? = some ⟨line, .instruction .execLines args⟩ ∧
    Argument.get args 0 = .ok template ∧ vars.substitute template = .ok text

variable {line depth : Nat} {text : String} {program : Program} {s t : Session σ}

theorem run_execLines_of_error {error : LoadError}
    (h : Program.parse (execSource text) = .error error) :
    (execLines line depth text : Exec σ Action).run.run s =
      (.error (.run ⟨line, .nested error⟩), s) := by
  unfold execSource at h
  unfold execLines
  dsimp only
  rw [h]
  rfl

theorem run_execLines_of_ok (h : Program.parse (execSource text) = .ok program) :
    (execLines line depth text : Exec σ Action).run.run s =
      if maxExecDepth ≤ depth then (.error (.run ⟨line, .nestedTooDeep maxExecDepth⟩),
        s.note program.loadEvents)
      else (.ok (.enter program), (s.note program.loadEvents).note
        [.debug s!"Running {program.size} statements from 'ExecLines' on line {line}."]) := by
  unfold execSource at h
  unfold execLines
  dsimp only
  rw [h]
  dsimp only
  split <;> rfl

/-- How an `ExecLines` ends: its text cannot be loaded, it is nested too deeply, or it starts what
    it has loaded. -/
theorem execLines_cases {result : Except Failure Action}
    (h : (execLines line depth text : Exec σ Action).run.run s = (result, t)) :
    (∃ error, Program.parse (execSource text) = .error error ∧
      result = .error (.run ⟨line, .nested error⟩)) ∨
    ∃ program, Program.parse (execSource text) = .ok program ∧
      (maxExecDepth ≤ depth ∧ result = .error (.run ⟨line, .nestedTooDeep maxExecDepth⟩) ∨
        depth < maxExecDepth ∧ result = .ok (.enter program)) := by
  cases hparse : Program.parse (execSource text) with
  | error error =>
    rw [run_execLines_of_error hparse] at h
    exact .inl ⟨error, rfl, (Prod.mk.inj h).1.symm⟩
  | ok program =>
    rw [run_execLines_of_ok hparse] at h
    refine .inr ⟨program, rfl, ?_⟩
    by_cases hdepth : maxExecDepth ≤ depth
    · rw [if_pos hdepth] at h
      exact .inl ⟨hdepth, (Prod.mk.inj h).1.symm⟩
    · rw [if_neg hdepth] at h
      exact .inr ⟨Nat.lt_of_not_le hdepth, (Prod.mk.inj h).1.symm⟩

variable {a} {ctx} {statement : Statement}

theorem spares_get (args : List String) (index : Nat) : Spares (Argument.get args index) := by
  unfold Argument.get Spares
  split <;> simp

/-- An `ExecLines` whose text is known loads that text. -/
theorem run_act_of_get {args : List String} {template : String}
    (hget : Argument.get args 0 = .ok template) (hvalue : s.vars.substitute template = .ok text) :
    (a.act ctx depth ⟨line, .instruction .execLines args⟩).run.run s =
      (execLines line depth text).run.run s := by
  simp only [act, Exec.run_bind, hget, Exec.run_lift_ok, Exec.run_get, hvalue]

theorem Passes.exists_statement (ctx : Context σ) {vars : Variables}
    (h : a.Passes vars line text) :
    ∃ statement, a.program.statements[a.pc]? = some statement ∧
      ∀ (s : Session σ) depth, s.vars = vars →
      (a.act ctx depth statement).run.run s = (execLines line depth text).run.run s := by
  obtain ⟨args, template, hstatement, hget, hvalue⟩ := h
  exact ⟨_, hstatement, fun s depth hvars => run_act_of_get hget (by rw [hvars, hvalue])⟩

/-- An `ExecLines` passes a text on, or it fails because there is none. -/
theorem exists_passes_or_fails {args : List String}
    (hstatement : a.program.statements[a.pc]? = some ⟨line, .instruction .execLines args⟩)
    (s : Session σ) (depth : Nat) :
    (∃ text, a.Passes s.vars line text ∧
      (a.act ctx depth ⟨line, .instruction .execLines args⟩).run.run s =
      (execLines line depth text).run.run s) ∨
    ∃ cause, cause.isNesting = false ∧
      (a.act ctx depth ⟨line, .instruction .execLines args⟩).run.run s =
      (.error (.run ⟨line, cause⟩), s) := by
  cases hget : Argument.get args 0 with
  | error cause =>
    refine .inr ⟨cause, spares_get args 0 cause hget, ?_⟩
    simp only [act, Exec.run_bind, hget, Exec.run_lift_error]
  | ok template =>
    cases hvalue : s.vars.substitute template with
    | error cause =>
      refine .inr ⟨cause, (failsOpenly_substitute s.vars template).spares cause hvalue, ?_⟩
      simp only [act, Exec.run_bind, hget, Exec.run_lift_ok, Exec.run_get, hvalue,
        Exec.run_lift_error]
    | ok text =>
      exact .inl ⟨text, ⟨args, template, hstatement, hget, hvalue⟩,
        run_act_of_get hget hvalue⟩

/-- What a statement of a loaded program does: it keeps to its program, or it is an `ExecLines` that
    passes a text on. -/
theorem keeps_or_passes (hstatement : a.program.statements[a.pc]? = some statement)
    (hshape : statement.command.WellShaped) (s : Session σ) (depth : Nat) :
    ((∀ action t, (a.act ctx depth statement).run.run s = (.ok action, t) → action.Stays) ∧
      ∀ failure t, (a.act ctx depth statement).run.run s = (.error failure, t) →
        failure.isNesting = false) ∨
    ∃ text, a.Passes s.vars statement.line text ∧
      (a.act ctx depth statement).run.run s = (execLines statement.line depth text).run.run s := by
  by_cases hexec : ∃ args, statement.command = .instruction .execLines args
  · obtain ⟨line, command⟩ := statement
    obtain ⟨args, rfl⟩ := hexec
    rcases a.exists_passes_or_fails hstatement s depth with hpasses | ⟨cause, hcause, hrun⟩
    · exact .inr hpasses
    · refine .inl ⟨fun action t h => ?_, fun failure t h => ?_⟩
      · rw [hrun] at h
        cases h
      · rw [hrun] at h
        cases h
        exact hcause
  · have hwithin := (within_act ctx a hshape (not_exists.mp hexec) depth).of_run s trivial
    refine .inl ⟨fun action t h => ?_, fun failure t h => ?_⟩
    · rw [h] at hwithin
      exact hwithin
    · rw [h] at hwithin
      exact hwithin

/-- Only an `ExecLines` starts another program, which is loaded from its text and is not nested too
    deeply. -/
theorem exists_passes_of_enter (hstatement : a.program.statements[a.pc]? = some statement)
    (hshape : statement.command.WellShaped)
    (hrun : (a.act ctx depth statement).run.run s = (.ok (.enter program), t)) :
    depth < maxExecDepth ∧ ∃ text, a.Passes s.vars statement.line text ∧
      Program.parse (execSource text) = .ok program := by
  rcases keeps_or_passes hstatement hshape s depth with hkeeps | ⟨text, hpasses, hexec⟩
  · exact absurd rfl (hkeeps.1 _ t hrun program)
  · rcases execLines_cases (hexec.symm.trans hrun) with ⟨_, _, h⟩ | ⟨_, hparse,
      ⟨_, h⟩ | ⟨hdepth, h⟩⟩
    · cases h
    · cases h
    · cases h
      exact ⟨hdepth, text, hpasses, hparse⟩

/-- Only an `ExecLines` whose text is loaded is nested too deeply. -/
theorem exists_passes_of_nestedTooDeep {limit : Nat}
    (hstatement : a.program.statements[a.pc]? = some statement)
    (hshape : statement.command.WellShaped)
    (hrun : (a.act ctx depth statement).run.run s =
      (.error (.run ⟨line, .nestedTooDeep limit⟩), t)) :
    limit = maxExecDepth ∧ maxExecDepth ≤ depth ∧
      ∃ text program, a.Passes s.vars line text ∧
        Program.parse (execSource text) = .ok program := by
  rcases keeps_or_passes hstatement hshape s depth with hkeeps | ⟨text, hpasses, hexec⟩
  · cases hkeeps.2 _ t hrun
  · rcases execLines_cases (hexec.symm.trans hrun) with ⟨_, _, h⟩ | ⟨program, hparse,
      ⟨hdepth, h⟩ | ⟨_, h⟩⟩
    · cases h
    · cases h
      exact ⟨rfl, hdepth, text, program, hpasses, hparse⟩
    · cases h

end Activation

end InstallScript
