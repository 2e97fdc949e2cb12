import InstallScript.Proofs.Machine.Planning

/-!
What a failed statement leaves behind. A statement blames its own line for whatever goes wrong while
it is carried out, and what it would have done to variables and plan has not happened. So a run that
fails stands where it stood before the statement that failed, in the innermost of its programs.
-/

namespace InstallScript

open Script

/-- The line that a failure is blamed on. A script that cannot be loaded does not come to any
    line. -/
def Failure.line? : Failure → Option Nat
  | .load _ => none
  | .run error => some error.line
  | .fatal line | .cancelled line => some line

namespace Exec

variable {σ α β : Type} {line : Nat}

/-- Whether a step blames a line for every failure. -/
def Blames (line : Nat) (x : Exec σ α) : Prop :=
  Meets (fun _ => True) x (fun _ _ => True) fun failure _ => failure.line? = some line

namespace Blames

protected theorem bind {x : Exec σ α} {f : α → Exec σ β} (hx : Blames line x)
    (hf : ∀ a, Blames line (f a)) :
    Blames line (x >>= f) :=
  Meets.bind hx hf

protected theorem pure (a : α) : Blames line (pure a : Exec σ α) :=
  Meets.pure fun _ _ => trivial

protected theorem get : Blames line (get : Exec σ (Session σ)) :=
  Meets.get fun _ _ => trivial

protected theorem modify (f : Session σ → Session σ) : Blames line (modify f : Exec σ PUnit) :=
  Meets.modify fun _ _ => trivial

theorem note (events : List Event) : Blames line (Exec.note events : Exec σ Unit) :=
  Meets.note fun _ _ => trivial

theorem fail (cause : RunCause) : Blames line (Exec.fail line cause : Exec σ α) :=
  Meets.fail fun _ _ => rfl

theorem lift (result : Except RunCause α) : Blames line (Exec.lift line result : Exec σ α) :=
  Meets.lift (fun _ _ _ _ => trivial) fun _ _ _ _ => rfl

theorem call (call : HostCall σ α) : Blames line (Exec.call line call) :=
  Meets.call (fun _ _ _ => trivial) fun _ _ _ => rfl

/-- A step that goes on with the state it finds. -/
theorem get_bind {f : Session σ → Exec σ β} (hf : ∀ s, Blames line (f s)) :
    Blames line (get >>= f) :=
  Blames.get.bind hf

/-- A step that goes on with what was computed without touching the state. -/
theorem lift_bind {result : Except RunCause α} {f : α → Exec σ β}
    (hf : ∀ a, Blames line (f a)) :
    Blames line (Exec.lift line result >>= f) :=
  (Blames.lift result).bind hf

theorem call_bind {call : HostCall σ α} {f : α → Exec σ β} (hf : ∀ a, Blames line (f a)) :
    Blames line (Exec.call line call >>= f) :=
  (Blames.call call).bind hf

theorem note_bind {events : List Event} {f : Unit → Exec σ β} (hf : ∀ a, Blames line (f a)) :
    Blames line (Exec.note events >>= f) :=
  (Blames.note events).bind hf

end Blames

end Exec

section Effects

variable {σ : Type} (ctx : Context σ) (line : Nat)

theorem Script.Condition.blames_holds (condition : Condition) (args : List String) :
    (condition.holds ctx line args).Blames line := by
  cases condition with
  | dialogYesNo =>
    refine Exec.Blames.call_bind fun answer => ?_
    cases answer with
    | yes | no => exact Exec.Blames.pure _
    | cancel => exact Exec.Meets.throw fun _ _ => rfl
  | dataFileExists => exact Exec.Blames.call _
  | versionGreaterThan | versionLessThan => exact Exec.Blames.lift_bind fun _ => Exec.Blames.pure _
  | scriptExtenderPresent | graphicsExtenderPresent =>
    exact Exec.Blames.call_bind fun _ => Exec.Blames.pure _
  | scriptExtenderNewerThan | graphicsExtenderNewerThan | oblivionNewerThan =>
    exact Exec.Blames.lift_bind fun _ => Exec.Blames.call_bind fun _ => Exec.Blames.pure _
  | equal => exact Exec.Blames.pure _
  | greaterEqual | greaterThan | fGreaterEqual | fGreaterThan =>
    exact Exec.Blames.lift_bind fun _ => Exec.Blames.lift_bind fun _ => Exec.Blames.pure _

theorem Script.Condition.blames_test (condition : Condition) (args : List String) :
    (condition.test ctx line args).Blames line := by
  refine Exec.Blames.get_bind fun s => Exec.Blames.lift_bind fun values => ?_
  refine (condition.blames_holds ctx line values).bind fun _ => ?_
  exact Exec.Blames.note_bind fun _ => Exec.Blames.pure _

theorem Script.Menu.blames_pick (menu : Menu) : (menu.pick ctx line).Blames line := by
  refine Exec.Blames.get_bind fun s => Exec.Blames.lift_bind fun prompt => ?_
  refine Exec.Blames.call_bind fun picked => Exec.Blames.lift_bind fun _ => ?_
  exact Exec.Blames.note_bind fun _ => Exec.Blames.pure _

theorem Effect.blames_perform (effect : Effect) : (effect.perform ctx line).Blames line := by
  cases effect with
  | change | assign => exact Exec.Blames.modify _
  | message | showImage | showText => exact Exec.Blames.call _
  | input | readIni | readRenderer => exact Exec.Blames.call_bind fun _ => Exec.Blames.modify _
  | note => exact Exec.Blames.note _

namespace Instruction

theorem blames_carryOut (kind : Keyword) (values : List String) :
    (carryOut ctx line kind values).Blames line := by
  rw [carryOut_eq]
  exact Exec.Blames.get_bind fun _ => Exec.Blames.lift_bind fun effect =>
    effect.blames_perform ctx line

theorem blames_run (kind : Keyword) (args : List String) :
    (Instruction.run ctx line kind args).Blames line :=
  Exec.Blames.get_bind fun _ => Exec.Blames.lift_bind fun values =>
    blames_carryOut ctx line kind values

theorem plans_carryOut (kind : Keyword) (values : List String) {vars : Variables} {plan : Plan} :
    (carryOut ctx line kind values).Plans vars plan fun _ => True := by
  rw [carryOut_eq]
  refine Exec.Plans.get_bind fun s _ => Exec.Plans.lift_bind fun effect _ => ?_
  exact (effect.plans_perform ctx line).mono fun _ _ => trivial

end Instruction

end Effects

namespace Activation

variable {σ : Type} (ctx : Context σ) (line : Nat) (a : Activation)

theorem blames_openLoop (stop : Nat) (variableName : String) (state : LoopState) :
    (a.openLoop line stop variableName state : Exec σ Action).Blames line := by
  unfold openLoop
  split
  · exact Exec.Blames.note_bind fun _ => Exec.Blames.pure _
  · exact (Exec.Blames.modify _).bind fun _ => Exec.Blames.pure _

theorem blames_nextRound (start : Nat) : (a.nextRound line start : Exec σ Action).Blames line := by
  refine Exec.Blames.lift_bind fun frames => ?_
  split
  · split
    · exact (Exec.Blames.modify _).bind fun _ => Exec.Blames.pure _
    · exact Exec.Blames.pure _
  · exact Exec.Blames.fail _

theorem blames_exitLoop (start : Nat) : (a.exitLoop line start : Exec σ Action).Blames line := by
  refine Exec.Blames.lift_bind fun frames => ?_
  split
  · exact Exec.Blames.pure _
  · exact Exec.Blames.fail _

theorem blames_openSelect (results : List String) :
    (a.openSelect line results : Exec σ Action).Blames line := by
  unfold openSelect
  split
  · exact Exec.Blames.pure _
  · exact Exec.Blames.fail _

/-- A program that cannot be loaded is the fault of the line that gives it. -/
theorem blames_execLines (depth : Nat) (text : String) :
    (execLines line depth text : Exec σ Action).Blames line := by
  unfold execLines
  dsimp only
  split
  · exact Exec.Blames.fail _
  · refine Exec.Blames.note_bind fun _ => ?_
    split
    · exact Exec.Blames.fail _
    · exact Exec.Blames.note_bind fun _ => Exec.Blames.pure _

/-- Whatever goes wrong while a statement is carried out is blamed on its line. -/
theorem blames_act (depth : Nat) (statement : Statement) :
    (a.act ctx depth statement).Blames statement.line := by
  obtain ⟨line, command⟩ := statement
  cases command with
  | comment | label => exact Exec.Blames.pure _
  | ifTest negated condition args =>
    simp only [act]
    split
    · exact (condition.blames_test ctx line args).bind fun _ => Exec.Blames.pure _
    · exact Exec.Blames.fail _
  | otherwise | defaultCase =>
    simp only [act]
    split
    · exact Exec.Blames.lift_bind fun _ => Exec.Blames.pure _
    · exact Exec.Blames.fail _
  | endIf | endSelect => exact Exec.Blames.lift_bind fun _ => Exec.Blames.pure _
  | forLoop header =>
    simp only [act]
    split
    · refine Exec.Blames.get_bind fun s => Exec.Blames.lift_bind fun state => ?_
      exact Exec.Blames.note_bind fun _ => a.blames_openLoop line _ _ _
    · exact Exec.Blames.fail _
  | endFor | continueLoop =>
    simp only [act]
    split
    · exact a.blames_nextRound line _
    · exact Exec.Blames.fail _
  | exitLoop =>
    simp only [act]
    split
    · exact a.blames_exitLoop line _
    · exact Exec.Blames.fail _
  | select menu =>
    exact (menu.blames_pick ctx line).bind fun results => a.blames_openSelect line results
  | selectVar name =>
    refine Exec.Blames.get_bind fun s => ?_
    cases s.vars.get? name with
    | none => exact Exec.Blames.fail _
    | some value => exact a.blames_openSelect line [value]
  | selectString value =>
    exact Exec.Blames.get_bind fun s => Exec.Blames.lift_bind fun value =>
      a.blames_openSelect line [value]
  | caseOf value =>
    simp only [act]
    split
    · refine Exec.Blames.get_bind fun s => Exec.Blames.lift_bind fun value =>
        Exec.Blames.lift_bind fun entry => ?_
      split
      · exact Exec.Blames.note_bind fun _ => Exec.Blames.pure _
      · exact Exec.Blames.pure _
    · exact Exec.Blames.fail _
  | breakCase =>
    simp only [act]
    split
    · split
      · exact Exec.Blames.lift_bind fun _ => Exec.Blames.pure _
      · exact Exec.Blames.fail _
    · exact Exec.Blames.fail _
  | goto name =>
    simp only [act]
    split
    · exact Exec.Blames.note_bind fun _ => Exec.Blames.pure _
    · exact Exec.Blames.fail _
  | returnEarly => exact Exec.Blames.note_bind fun _ => Exec.Blames.pure _
  | fatalError => exact Exec.Blames.note_bind fun _ => Exec.Meets.throw fun _ _ => rfl
  | setVar name value =>
    refine Exec.Blames.get_bind fun s => Exec.Blames.lift_bind fun value => ?_
    exact (Exec.Blames.modify _).bind fun _ => Exec.Blames.pure _
  | instruction kind args =>
    by_cases hexec : kind = .execLines
    · subst hexec
      refine Exec.Blames.lift_bind fun text => Exec.Blames.get_bind fun s => ?_
      exact Exec.Blames.lift_bind fun text => blames_execLines line depth text
    · rw [act_instruction a ctx depth line args hexec]
      exact (Instruction.blames_run ctx line kind args).bind fun _ => Exec.Blames.pure _

end Activation

namespace Machine

variable {σ : Type} (ctx : Context σ)

/-- Whether a run fails at a statement that it has come to: the failure is blamed on the line of the
    statement, and variables and plan are left as they were before it. -/
structure FailsAt (m : Machine σ) (statement : Statement) (failure : Failure)
    (after : Session σ) : Prop where
  current : m.statement? = some statement
  step : m.step ctx = .failed failure after
  line : failure.line? = some statement.line
  vars : after.vars = m.session.vars
  plan : after.plan = m.session.plan

/-- A step that fails does so at a statement. -/
theorem exists_failsAt_of_step {m : Machine σ} {failure : Failure} {after : Session σ}
    (h : m.step ctx = .failed failure after) :
    ∃ statement, m.FailsAt ctx statement failure after := by
  have hholds := m.makes_step ctx
  rw [h] at hholds
  obtain ⟨stack, session⟩ := m
  cases stack with
  | nil => cases h
  | cons a waiting =>
    cases hstatement : a.program.statements[a.pc]? with
    | none =>
      simp only [step, hstatement] at h
      cases h
    | some statement =>
      refine ⟨statement, hstatement, h, ?_, hholds.1, hholds.2⟩
      have hblames := (a.blames_act ctx waiting.length statement).of_run
        (session.note [trace statement]) trivial
      simp only [step, hstatement] at h
      generalize (a.act ctx waiting.length statement).run.run (session.note [trace statement]) =
        r at h hblames
      obtain ⟨other | action, t⟩ := r
      · cases h
        exact hblames
      · cases action <;> cases h

/-- A run that fails has come to the statement that failed. -/
theorem exists_failsAt_of_run {m : Machine σ} {steps : Nat} {failure : Failure}
    {after : Session σ} (h : m.run ctx steps = .failed failure after) :
    ∃ k, k < steps ∧ ∃ last statement,
      m.run ctx k = .unfinished last ∧ last.FailsAt ctx statement failure after := by
  induction steps generalizing m with
  | zero => cases h
  | succ steps ih =>
    cases hstep : m.step ctx with
    | next next =>
      simp only [run, hstep] at h
      obtain ⟨k, hk, last, statement, hrun, hfails⟩ := ih h
      refine ⟨k + 1, Nat.succ_lt_succ hk, last, statement, ?_, hfails⟩
      simp only [run, hstep, hrun]
    | ended completion session =>
      simp only [run, hstep] at h
      cases h
    | failed other session =>
      simp only [run, hstep] at h
      cases h
      obtain ⟨statement, hfails⟩ := exists_failsAt_of_step ctx hstep
      exact ⟨0, Nat.succ_pos steps, m, statement, rfl, hfails⟩

end Machine

/-- A run that fails, from whatever state and on whatever host, has come to a statement of its
    innermost program, which was loaded from some text; the failure is blamed on the line that the
    statement has there, and variables and plan are those from before the statement. In particular
    carrying out a single statement, with whatever values for its arguments, changes neither if it
    fails. -/
theorem Session.failsAt_of_execute {σ : Type} (ctx : Context σ) :
    (∀ text program (session after : Session σ) steps failure,
      Program.parse text = .ok program →
      session.execute ctx steps program = .failed failure after →
      ∃ k, k < steps ∧ ∃ a waiting last statement source,
        session.execute ctx k program = .unfinished ⟨a :: waiting, last⟩ ∧
        Program.parse source = .ok a.program ∧
        a.program.statements[a.pc]? = some statement ∧
        Machine.FailsAt ctx ⟨a :: waiting, last⟩ statement failure after) ∧
    ∀ line kind values (s t : Session σ) failure,
      (Instruction.carryOut ctx line kind values).run.run s = (.error failure, t) →
      failure.line? = some line ∧ t.vars = s.vars ∧ t.plan = s.plan := by
  constructor
  · intro text program session after steps failure hparse h
    obtain ⟨k, hk, ⟨stack, last⟩, statement, hrun, hfails⟩ :=
      Machine.exists_failsAt_of_run ctx h
    have hsound := (Machine.sound_start hparse session).run ctx k
    rw [hrun] at hsound
    cases stack with
    | nil => cases hfails.current
    | cons a waiting =>
      obtain ⟨⟨source, hsource⟩, -⟩ := hsound a List.mem_cons_self
      exact ⟨k, hk, a, waiting, last, statement, source, hrun, hsource, hfails.current, hfails⟩
  · intro line kind values s t failure hrun
    have hblames := (Instruction.blames_carryOut ctx line kind values).of_run s trivial
    have hplans := (Instruction.plans_carryOut ctx line kind values).of_run s ⟨rfl, rfl⟩
    rw [hrun] at hblames hplans
    exact ⟨hblames, hplans⟩

/-- A folder that the package does not have is copied by the second line of a program inside a
    program; what was staged before the run, and assigned by the line before, is kept. -/
theorem Session.failsAt_of_nested_copy :
    let ctx : Context Prepared :=
      ⟨⟨.default, ⟨[⟨"a.txt", 0, 0, 0⟩], []⟩, .empty⟩, Prepared.host⟩
    let text := "ExecLines \"SetVar v 1|CopyDataFolder b c\""
    let session :=
      (Session.start ({} : Prepared)).change [.installData ⟨"a.txt", 0, 0, 0⟩ "a.txt"]
    ∃ program after, Program.parse text = .ok program ∧
      session.execute ctx 3 program = .failed (.run ⟨2, .missingFolder "b"⟩) after ∧
      after.plan.dataOutputs = ["a.txt"] ∧ after.vars.get? "v" = some "1" ∧
      ∃ k, k < 3 ∧ ∃ a waiting last statement,
        session.execute ctx k program = .unfinished ⟨a :: waiting, last⟩ ∧
        a.program.statements[a.pc]? = some statement ∧ statement.line = 2 ∧
        after.vars = last.vars ∧ after.plan = last.plan := by
  intro ctx text session
  have houtcome : (Program.parse text).toOption.map
      (fun program => match session.execute ctx 3 program with
      | .failed failure after => some (failure, after.plan.dataOutputs, after.vars.get? "v")
      | _ => none) = some (some (.run ⟨2, .missingFolder "b"⟩, ["a.txt"], some "1")) := by
    decide +kernel
  obtain ⟨program, hprogram, hresult⟩ := Option.map_eq_some_iff.mp houtcome
  have hparse := Except.toOption_eq_some_iff.mp hprogram
  split at hresult
  · rename_i failure after hfailed
    obtain ⟨rfl, houtputs, hvalue⟩ : failure = .run ⟨2, .missingFolder "b"⟩ ∧
        after.plan.dataOutputs = ["a.txt"] ∧ after.vars.get? "v" = some "1" := by
      simpa only [Option.some.injEq, Prod.mk.injEq] using hresult
    obtain ⟨k, hk, a, waiting, last, statement, -, hrun, -, hstatement, hfails⟩ :=
      (Session.failsAt_of_execute ctx).1 text program session after 3 _ hparse hfailed
    have hline : statement.line = 2 := (Option.some.inj hfails.line).symm
    exact ⟨program, after, hparse, hfailed, houtputs, hvalue, k, hk, a, waiting, last, statement,
      hrun, hstatement, hline, hfails.vars, hfails.plan⟩
  · cases hresult

end InstallScript
