import InstallScript.Proofs.Machine.Changes
import InstallScript.Proofs.Machine.Nesting

/-!
What the steps of a run do to its plan. A step that fails leaves variables and plan as they were,
and one that does not fail leaves the plan as it was or applies the changes that its statement was
settled to.
-/

namespace InstallScript

open Script

/-- What one statement can make of a plan. -/
def Plan.Becomes (site : Site) (p q : Plan) : Prop :=
  q = p ∨ ∃ line kind args changes,
    Instruction.interpret site p line kind args = .ok (.change changes) ∧
      q = Change.applyAll changes p

/-- The plan that an effect leaves. -/
def Effect.planAfter (effect : Effect) (p : Plan) : Plan :=
  match effect with
  | .change changes => Change.applyAll changes p
  | _ => p

/-- What a statement makes of a plan. Control flow leaves the plan as it is; any other statement is
    settled to an effect, once its arguments have been put in. -/
def Script.Statement.Makes (site : Site) (vars : Variables) (statement : Statement) (p q : Plan) :
    Prop :=
  match statement.command with
  | .instruction .execLines _ => q = p
  | .instruction kind args => ∃ values effect, vars.substituteAll args = .ok values ∧
    Instruction.interpret site p statement.line kind values = .ok effect ∧ q = effect.planAfter p
  | _ => q = p

theorem Script.Statement.makes_instruction {site : Site} {vars : Variables} {line : Nat}
    {kind : Keyword} {args : List String} {p q : Plan} (hexec : kind ≠ .execLines) :
    Statement.Makes site vars ⟨line, .instruction kind args⟩ p q ↔ ∃ values effect,
      vars.substituteAll args = .ok values ∧
      Instruction.interpret site p line kind values = .ok effect ∧
        q = effect.planAfter p := by
  unfold Makes
  split
  next heq => exact absurd (Command.instruction.inj heq).1 hexec
  next heq =>
    obtain ⟨rfl, rfl⟩ := Command.instruction.inj heq
    exact Iff.rfl
  next hnone => exact absurd rfl (hnone kind args)

/-- What no change can make false of a plan that a statement can be settled to, no statement can. -/
theorem Plan.Becomes.of_issued {site : Site} {p q : Plan} (h : p.Becomes site q)
    (Inv : Plan → Prop) (hinv : ∀ p c, Inv p → Change.Issued site.files c → Inv (c.apply p))
    (hp : Inv p) : Inv q := by
  have hall : ∀ (changes : List Change) (p : Plan), (∀ c ∈ changes, c.Issued site.files) →
      Inv p →
      Inv (Change.applyAll changes p) := by
    intro changes
    induction changes with
    | nil => exact fun p _ hp => hp
    | cons c rest ih =>
      intro p hissued hp
      obtain ⟨hc, hrest⟩ := List.forall_mem_cons.mp hissued
      exact ih (c.apply p) hrest (hinv p c hp hc)
  rcases h with rfl | ⟨line, kind, args, changes, hchanges, rfl⟩
  · exact hp
  · exact hall changes p (Instruction.issues_interpret site p line kind args _ hchanges) hp

theorem Script.Statement.Makes.becomes {site : Site} {vars : Variables} {statement : Statement}
    {p q : Plan} (h : statement.Makes site vars p q) :
    p.Becomes site q := by
  unfold Makes at h
  split at h
  · exact .inl h
  · obtain ⟨values, effect, -, heffect, rfl⟩ := h
    cases effect with
    | change changes => exact .inr ⟨_, _, values, changes, heffect, rfl⟩
    | _ => exact .inl rfl
  · exact .inl h

/-- Whether a state has these variables and this plan. -/
def Session.Holds {σ : Type} (vars : Variables) (plan : Plan) (s : Session σ) : Prop :=
  s.vars = vars ∧ s.plan = plan

namespace Exec

variable {σ α β : Type} {vars : Variables} {plan : Plan}

/-- Whether a step leaves the plan in a state of which `q` holds, or fails and leaves variables and
    plan as they were. -/
def Plans (vars : Variables) (plan : Plan) (x : Exec σ α) (q : Plan → Prop) : Prop :=
  Meets (Session.Holds vars plan) x (fun _ s => q s.plan) fun _ => Session.Holds vars plan

/-- Whether a step leaves variables and plan as they were in any case. -/
def Reads (vars : Variables) (plan : Plan) (x : Exec σ α) : Prop :=
  Meets (Session.Holds vars plan) x (fun _ => Session.Holds vars plan) fun _ =>
    Session.Holds vars plan

namespace Reads

protected theorem bind {x : Exec σ α} {f : α → Exec σ β} (hx : Reads vars plan x)
    (hf : ∀ a, Reads vars plan (f a)) : Reads vars plan (x >>= f) :=
  Meets.bind hx hf

protected theorem pure (a : α) : Reads vars plan (pure a : Exec σ α) :=
  Meets.pure fun _ hs => hs

protected theorem get : Reads vars plan (get : Exec σ (Session σ)) :=
  Meets.get fun _ hs => hs

protected theorem throw (failure : Failure) : Reads vars plan (throw failure : Exec σ α) :=
  Meets.throw fun _ hs => hs

theorem fail (line : Nat) (cause : RunCause) :
    Reads vars plan (Exec.fail line cause : Exec σ α) :=
  Meets.fail fun _ hs => hs

theorem note (events : List Event) : Reads vars plan (Exec.note events : Exec σ Unit) :=
  Meets.note fun _ hs => hs

theorem lift (line : Nat) (result : Except RunCause α) :
    Reads vars plan (Exec.lift line result : Exec σ α) :=
  Meets.lift (fun _ _ _ hs => hs) fun _ _ _ hs => hs

theorem call (line : Nat) (call : HostCall σ α) : Reads vars plan (Exec.call line call) :=
  Meets.call (fun _ _ hs => hs) fun _ _ hs => hs

/-- A step that comes after one that only reads. -/
theorem then_plans {x : Exec σ α} {f : α → Exec σ β} {q : Plan → Prop}
    (hx : Reads vars plan x) (hf : ∀ a, Plans vars plan (f a) q) : Plans vars plan (x >>= f) q :=
  Meets.bind hx hf

theorem plans {x : Exec σ α} {q : Plan → Prop} (hx : Reads vars plan x) (hq : q plan) :
    Plans vars plan x q := by
  refine Meets.mono hx fun a s hs => ?_
  rw [hs.2]
  exact hq

end Reads

namespace Plans

variable {q : Plan → Prop}

theorem mono {x : Exec σ α} {r : Plan → Prop} (hx : Plans vars plan x q)
    (h : ∀ p, q p → r p) :
    Plans vars plan x r :=
  Meets.mono hx fun _ s hs => h s.plan hs

theorem get_bind {f : Session σ → Exec σ β}
    (h : ∀ s, s.Holds vars plan → Plans vars plan (f s) q) :
    Plans vars plan (get >>= f) q :=
  ⟨fun s hs => (h s hs).of_run s hs⟩

theorem lift_bind {line : Nat} {result : Except RunCause α} {f : α → Exec σ β}
    (h : ∀ a, result = .ok a → Plans vars plan (f a) q) :
    Plans vars plan (Exec.lift line result >>= f) q := by
  cases result with
  | ok a => exact ⟨fun s hs => (h a rfl).of_run s hs⟩
  | error cause => exact ⟨fun s hs => hs⟩

end Plans

/-- A last step that gives a variable a value. -/
theorem plans_setVariable (name value : String) (action : Action) :
    Plans vars plan (do modify fun s => s.setVariable name value; pure action : Exec σ Action)
      (· = plan) := by
  refine Meets.bind (Meets.modify fun s hs => ?_) fun _ => Meets.pure fun _ hs => hs
  exact hs.2

end Exec

section Effects

variable {σ : Type} (ctx : Context σ) (line : Nat) {vars : Variables} {plan : Plan}

theorem Script.Condition.reads_holds (condition : Condition) (args : List String) :
    (condition.holds ctx line args).Reads vars plan := by
  cases condition with
  | dialogYesNo =>
    refine (Exec.Reads.call line _).bind fun answer => ?_
    cases answer with
    | yes | no => exact Exec.Reads.pure _
    | cancel => exact Exec.Reads.throw _
  | dataFileExists => exact Exec.Reads.call line _
  | versionGreaterThan | versionLessThan =>
    exact (Exec.Reads.lift line _).bind fun _ => Exec.Reads.pure _
  | scriptExtenderPresent | graphicsExtenderPresent =>
    exact (Exec.Reads.call line _).bind fun _ => Exec.Reads.pure _
  | scriptExtenderNewerThan | graphicsExtenderNewerThan | oblivionNewerThan =>
    exact (Exec.Reads.lift line _).bind fun _ => (Exec.Reads.call line _).bind fun _ =>
      Exec.Reads.pure _
  | equal => exact Exec.Reads.pure _
  | greaterEqual | greaterThan | fGreaterEqual | fGreaterThan =>
    exact (Exec.Reads.lift line _).bind fun _ => (Exec.Reads.lift line _).bind fun _ =>
      Exec.Reads.pure _

theorem Script.Condition.reads_test (condition : Condition) (args : List String) :
    (condition.test ctx line args).Reads vars plan := by
  refine Exec.Reads.get.bind fun s => (Exec.Reads.lift line _).bind fun values => ?_
  refine (condition.reads_holds ctx line values).bind fun _ => ?_
  exact (Exec.Reads.note _).bind fun _ => Exec.Reads.pure _

theorem Script.Menu.reads_pick (menu : Menu) : (menu.pick ctx line).Reads vars plan := by
  refine Exec.Reads.get.bind fun s => (Exec.Reads.lift line _).bind fun prompt => ?_
  refine (Exec.Reads.call line _).bind fun picked => (Exec.Reads.lift line _).bind fun _ => ?_
  exact (Exec.Reads.note _).bind fun _ => Exec.Reads.pure _

/-- Only the changes of an effect change the plan. -/
theorem Effect.plans_perform (effect : Effect) :
    (effect.perform ctx line).Plans vars plan (· = effect.planAfter plan) := by
  cases effect with
  | change changes =>
    refine Exec.Meets.modify fun s hs => ?_
    rw [← hs.2]
    rfl
  | assign name value => exact Exec.Meets.modify fun s hs => hs.2
  | message | showImage | showText => exact (Exec.Reads.call line _).plans rfl
  | input | readIni | readRenderer =>
    exact (Exec.Reads.call line _).then_plans fun value => Exec.Meets.modify fun s hs => hs.2
  | note event => exact (Exec.Reads.note _).plans rfl

theorem Instruction.plans_run {kind : Keyword} (hexec : kind ≠ .execLines) (args : List String) :
    (Instruction.run ctx line kind args).Plans vars plan
      (Statement.Makes ctx.toSite vars ⟨line, .instruction kind args⟩ plan) := by
  rw [run_eq]
  refine Exec.Plans.get_bind fun s hs => Exec.Plans.lift_bind fun values hvalues => ?_
  refine Exec.Plans.lift_bind fun effect heffect => ?_
  rw [hs.1] at hvalues
  rw [hs.2] at heffect
  refine (effect.plans_perform ctx line).mono fun p hp => ?_
  exact (Statement.makes_instruction hexec).mpr ⟨values, effect, hvalues, heffect, hp⟩

theorem Instruction.run_of_change {kind : Keyword} {args values : List String}
    {changes : List Change} {s : Session σ} (hargs : s.vars.substituteAll args = .ok values)
    (h : interpret ctx.toSite s.plan line kind values = .ok (.change changes)) :
    (Instruction.run ctx line kind args).run.run s = (.ok (), s.change changes) := by
  rw [run_eq, Exec.run_bind, Exec.run_get]
  dsimp only
  rw [hargs, Exec.run_bind, Exec.run_lift_ok]
  dsimp only
  rw [h, Exec.run_bind, Exec.run_lift_ok]
  rfl

end Effects

namespace Activation

variable {σ : Type} (ctx : Context σ) (line : Nat) {vars : Variables} {plan : Plan}
  (a : Activation)

theorem plans_openLoop (stop : Nat) (variableName : String) (state : LoopState) :
    (a.openLoop line stop variableName state : Exec σ Action).Plans vars plan (· = plan) := by
  unfold openLoop
  cases state.next? with
  | none => exact ((Exec.Reads.note _).bind fun _ => Exec.Reads.pure _).plans rfl
  | some next => exact Exec.plans_setVariable _ _ _

theorem plans_nextRound (start : Nat) :
    (a.nextRound line start : Exec σ Action).Plans vars plan (· = plan) := by
  refine (Exec.Reads.lift line _).then_plans fun frames => ?_
  split
  · split
    · exact Exec.plans_setVariable _ _ _
    · exact (Exec.Reads.pure _).plans rfl
  · exact (Exec.Reads.fail line _).plans rfl

theorem reads_exitLoop (start : Nat) :
    (a.exitLoop line start : Exec σ Action).Reads vars plan := by
  refine (Exec.Reads.lift line _).bind fun frames => ?_
  split
  · exact Exec.Reads.pure _
  · exact Exec.Reads.fail line _

theorem reads_openSelect (results : List String) :
    (a.openSelect line results : Exec σ Action).Reads vars plan := by
  unfold openSelect
  split
  · exact Exec.Reads.pure _
  · exact Exec.Reads.fail line _

theorem reads_execLines (depth : Nat) (text : String) :
    (execLines line depth text : Exec σ Action).Reads vars plan := by
  unfold execLines
  dsimp only
  split
  · exact Exec.Reads.fail line _
  · refine (Exec.Reads.note _).bind fun _ => ?_
    split
    · exact Exec.Reads.fail line _
    · exact (Exec.Reads.note _).bind fun _ => Exec.Reads.pure _

/-- Whatever a statement does, it fails and leaves variables and plan as they were, or it makes of
    the plan what the statement makes of it. -/
theorem plans_act (depth : Nat) (statement : Statement) :
    (a.act ctx depth statement).Plans vars plan (statement.Makes ctx.toSite vars plan) := by
  obtain ⟨line, command⟩ := statement
  cases command with
  | comment | label => exact (Exec.Reads.pure _).plans rfl
  | ifTest negated condition args =>
    simp only [act]
    split
    · exact ((condition.reads_test ctx line args).bind fun _ => Exec.Reads.pure _).plans rfl
    · exact (Exec.Reads.fail line _).plans rfl
  | otherwise =>
    simp only [act]
    split
    · exact ((Exec.Reads.lift line _).bind fun _ => Exec.Reads.pure _).plans rfl
    · exact (Exec.Reads.fail line _).plans rfl
  | endIf | endSelect => exact ((Exec.Reads.lift line _).bind fun _ => Exec.Reads.pure _).plans rfl
  | forLoop header =>
    simp only [act]
    split
    · refine Exec.Reads.get.then_plans fun s => (Exec.Reads.lift line _).then_plans fun state => ?_
      exact (Exec.Reads.note _).then_plans fun _ => a.plans_openLoop line _ _ _
    · exact (Exec.Reads.fail line _).plans rfl
  | endFor | continueLoop =>
    simp only [act]
    split
    · exact a.plans_nextRound line _
    · exact (Exec.Reads.fail line _).plans rfl
  | exitLoop =>
    simp only [act]
    split
    · exact (a.reads_exitLoop line _).plans rfl
    · exact (Exec.Reads.fail line _).plans rfl
  | select menu =>
    exact ((menu.reads_pick ctx line).bind fun results => a.reads_openSelect line results).plans rfl
  | selectVar name =>
    refine Exec.Reads.get.then_plans fun s => ?_
    cases s.vars.get? name with
    | none => exact (Exec.Reads.fail line _).plans rfl
    | some value => exact (a.reads_openSelect line [value]).plans rfl
  | selectString value =>
    refine Exec.Reads.get.then_plans fun s => (Exec.Reads.lift line _).then_plans fun value => ?_
    exact (a.reads_openSelect line [value]).plans rfl
  | caseOf value =>
    simp only [act]
    split
    · refine Exec.Reads.get.then_plans fun s => (Exec.Reads.lift line _).then_plans fun value => ?_
      refine (Exec.Reads.lift line _).then_plans fun entry => ?_
      split
      · exact ((Exec.Reads.note _).bind fun _ => Exec.Reads.pure _).plans rfl
      · exact (Exec.Reads.pure _).plans rfl
    · exact (Exec.Reads.fail line _).plans rfl
  | defaultCase =>
    simp only [act]
    split
    · exact ((Exec.Reads.lift line _).bind fun _ => Exec.Reads.pure _).plans rfl
    · exact (Exec.Reads.fail line _).plans rfl
  | breakCase =>
    simp only [act]
    split
    · split
      · exact ((Exec.Reads.lift line _).bind fun _ => Exec.Reads.pure _).plans rfl
      · exact (Exec.Reads.fail line _).plans rfl
    · exact (Exec.Reads.fail line _).plans rfl
  | goto name =>
    simp only [act]
    split
    · exact ((Exec.Reads.note _).bind fun _ => Exec.Reads.pure _).plans rfl
    · exact (Exec.Reads.fail line _).plans rfl
  | returnEarly => exact ((Exec.Reads.note _).bind fun _ => Exec.Reads.pure _).plans rfl
  | fatalError => exact ((Exec.Reads.note _).bind fun _ => Exec.Reads.throw _).plans rfl
  | setVar name value =>
    refine Exec.Reads.get.then_plans fun s => (Exec.Reads.lift line _).then_plans fun value => ?_
    exact Exec.plans_setVariable _ _ _
  | instruction kind args =>
    by_cases hexec : kind = .execLines
    · subst hexec
      refine (Exec.Reads.lift line _).then_plans fun text => Exec.Reads.get.then_plans fun s => ?_
      exact ((Exec.Reads.lift line _).bind fun text => reads_execLines line depth text).plans rfl
    · rw [act_instruction a ctx depth line args hexec]
      refine Exec.Meets.bind (Instruction.plans_run ctx line hexec args) fun _ => ?_
      exact Exec.Meets.pure fun s hs => hs

end Activation

namespace Machine

variable {σ : Type} (ctx : Context σ)

/-- The statement that a run has come to. -/
def statement? (m : Machine σ) : Option Statement :=
  m.stack.head?.bind fun a => a.program.statements[a.pc]?

/-- What the statement that a run has come to makes of its plan. -/
def Makes (site : Site) (m : Machine σ) (plan : Plan) : Prop :=
  match m.statement? with
  | some statement => statement.Makes site m.session.vars m.session.plan plan
  | none => plan = m.session.plan

/-- A step makes of the plan what the statement it carries out makes of it, unless it fails. -/
theorem makes_step (m : Machine σ) : match m.step ctx with
    | .next next => m.Makes ctx.toSite next.session.plan
    | .ended _ session => m.Makes ctx.toSite session.plan
    | .failed _ session => session.Holds m.session.vars m.session.plan := by
  obtain ⟨stack, session⟩ := m
  cases stack with
  | nil => rfl
  | cons a rest =>
    cases hs : a.program.statements[a.pc]? with
    | none =>
      simp only [Machine.step, Makes, statement?, List.head?_cons, Option.bind_some, hs]
    | some statement =>
      have hact : (a.act ctx rest.length statement).Plans session.vars session.plan
        (statement.Makes ctx.toSite session.vars session.plan) :=
          a.plans_act ctx rest.length statement
      have hrun := hact.of_run (session.note [trace statement]) ⟨rfl, rfl⟩
      simp only [Machine.step, Makes, statement?, List.head?_cons, Option.bind_some, hs]
      generalize (a.act ctx rest.length statement).run.run (session.note [trace statement]) =
        r at hrun
      obtain ⟨failure | action, t⟩ := r
      · exact hrun
      · cases action with
        | jump | enter | leave => exact hrun

theorem Makes.becomes {m : Machine σ} {site : Site} {plan : Plan} (h : m.Makes site plan) :
    m.session.plan.Becomes site plan := by
  unfold Makes at h
  split at h
  · exact Statement.Makes.becomes h
  · exact .inl h

/-- A step makes of the plan what one statement can make of it, unless it fails. -/
theorem becomes_step (m : Machine σ) : match m.step ctx with
    | .next next => m.session.plan.Becomes ctx.toSite next.session.plan
    | .ended _ session => m.session.plan.Becomes ctx.toSite session.plan
    | .failed _ session => session.Holds m.session.vars m.session.plan := by
  have hmakes := m.makes_step ctx
  generalize m.step ctx = r at hmakes
  cases r with
  | next next => exact hmakes.becomes
  | ended completion session => exact hmakes.becomes
  | failed failure session => exact hmakes

/-- A statement that is settled to changes applies them, and the program goes on after it. -/
theorem step_of_change {a : Activation} {rest : List Activation} {s : Session σ} {line : Nat}
    {kind : Keyword} {args values : List String} {changes : List Change}
    (hst : a.program.statements[a.pc]? = some ⟨line, .instruction kind args⟩)
    (hexec : kind ≠ .execLines) (hargs : s.vars.substituteAll args = .ok values)
    (h : Instruction.interpret ctx.toSite s.plan line kind values = .ok (.change changes)) :
    (⟨a :: rest, s⟩ : Machine σ).step ctx = .next ⟨{ a with pc := a.pc + 1 } :: rest,
      (s.note [trace ⟨line, .instruction kind args⟩]).change changes⟩ := by
  have hnoted : (s.note [trace ⟨line, .instruction kind args⟩]).vars.substituteAll args =
    .ok values := hargs
  have hrun := Instruction.run_of_change ctx line hnoted h
  simp only [step, hst, Activation.act_instruction a ctx _ line args hexec, Exec.run_bind, hrun]
  rfl

/-- What no statement can make false of a plan stays true through a run. -/
theorem plan_of_run (Inv : Plan → Prop)
    (hinv : ∀ p q, Inv p → p.Becomes ctx.toSite q → Inv q) {m : Machine σ}
    (h : Inv m.session.plan) (steps : Nat) : Inv (m.run ctx steps).session.plan := by
  induction steps generalizing m with
  | zero => exact h
  | succ steps ih =>
    have hstep := m.becomes_step ctx
    simp only [Machine.run]
    generalize m.step ctx = r at hstep
    cases r with
    | next next => exact ih (hinv _ _ h hstep)
    | ended completion session => exact hinv _ _ h hstep
    | failed failure session =>
      change Inv session.plan
      rw [hstep.2]
      exact h

end Machine

/-- The state in which a loaded program is started. -/
def Session.loaded {σ : Type} (host : σ) (program : Program) : Session σ :=
  let size := program.size
  (Session.start host).note
    (program.loadEvents ++ [.info s!"Running a script with {size} statements."])

/-- A script that comes to its end has been loaded and run, and its plan has been finished. -/
theorem execute_of_runScript {σ : Type} {ctx : Context σ} {host : σ} {steps : Nat}
    {text : String} {completion : Completion} {session : Session σ}
    (h : runScript ctx host steps text = .ended completion session) :
    ∃ program last, Program.parse text = .ok program ∧
      (Session.loaded host program).execute ctx steps program = .ended completion last ∧
        session = last.finalize := by
  unfold runScript at h
  dsimp only at h
  split at h
  · cases h
  · rename_i program hparse
    split at h
    · rename_i last hrun
      cases h
      exact ⟨program, last, hparse, hrun, rfl⟩
    · rename_i hended
      exact absurd h (hended completion session)

/-- A script that comes to its end has been run from no variables and an empty plan, and its plan
    has been finished. -/
theorem exists_execute_of_runScript {σ : Type} {ctx : Context σ} {host : σ} {steps : Nat}
    {text : String} {completion : Completion} {session : Session σ}
    (h : runScript ctx host steps text = .ended completion session) :
    ∃ program first last, Program.parse text = .ok program ∧
      Session.Holds .empty .empty first ∧
      first.execute ctx steps program = .ended completion last ∧ session = last.finalize := by
  obtain ⟨program, last, hparse, hrun, rfl⟩ := execute_of_runScript h
  exact ⟨program, .loaded host program, last, hparse, ⟨rfl, rfl⟩, hrun, rfl⟩

end InstallScript
