import InstallScript.Proofs.Machine.Starting
import Mathlib.Logic.Relation

/-!
Runs as calls that count how deep they are nested. Each `ExecLines` that starts a program counts one
up, and one down when the program has come to its end, in whatever way it did. That leads to the
same results as a run, which has the waiting programs on its stack and counts them.
-/

namespace InstallScript

open Script

/-- What a call is doing: it carries a program out, or hands back how the program came to its
    end. -/
inductive Control where
  | running (a : Activation)
  | ended (result : Except Failure Completion)

/-- What an `ExecLines` makes of how the program that it started came to its end: its own program
    goes on after the last of the lines, and is over with the same result otherwise. -/
def Control.handBack (result : Except Failure Completion) (caller : Activation) : Control :=
  match result with
  | .ok .finished => .running caller
  | _ => .ended result

/-- The innermost call, the programs that wait at an `ExecLines` for it to come back, innermost
    first, and how many programs were counted. -/
structure Calls (σ : Type) where
  control : Control
  callers : List Activation
  depth : Nat
  session : Session σ

/-- How a run came to its end, and the state in which it did. -/
def Outcome.result? {σ : Type} : Outcome σ → Option (Except Failure Completion × Session σ)
  | .ended completion session => some (.ok completion, session)
  | .failed failure session => some (.error failure, session)
  | .unfinished _ => none

namespace Calls

variable {σ : Type}

/-- A call of a program where some programs have been counted. -/
def start (program : Program) (session : Session σ) (depth : Nat) : Calls σ :=
  ⟨.running (.start program), [], depth, session⟩

/-- What a call does next. If it is over, the `ExecLines` that waits for it counts down, however it
    came to its end. -/
def step (ctx : Context σ) (c : Calls σ) : Option (Calls σ) :=
  match c.control with
  | .ended result =>
    match c.callers with
    | [] => none
    | caller :: callers => some ⟨.handBack result caller, callers, c.depth - 1, c.session⟩
  | .running a =>
    match a.program.statements[a.pc]? with
    | none => some ⟨.ended (.ok .finished), c.callers, c.depth, c.session⟩
    | some statement =>
      match (a.act ctx c.depth statement).run.run (c.session.note [Machine.trace statement]) with
      | (.ok (.jump pc frames), session) =>
        some ⟨.running { a with pc, frames }, c.callers, c.depth, session⟩
      | (.ok (.enter program), session) =>
        some ⟨.running (.start program), { a with pc := a.pc + 1 } :: c.callers,
          c.depth + 1, session⟩
      | (.ok .leave, session) => some ⟨.ended (.ok .returned), c.callers, c.depth, session⟩
      | (.error failure, session) => some ⟨.ended (.error failure), c.callers, c.depth, session⟩

/-- Whether calls come from one state to another. -/
def Leads (ctx : Context σ) : Calls σ → Calls σ → Prop :=
  Relation.ReflTransGen fun c d => c.step ctx = some d

/-- The states that the scripts of a session lead to, run one after the other however those before
    came to their end, and whatever is done to the state in between. Nothing is counted at first,
    and nothing sets the counter back. -/
inductive Reached (ctx : Context σ) : Calls σ → Prop
  | start {text : String} {program : Program} (session : Session σ)
    (h : Program.parse text = .ok program) :
      Reached ctx (start program session 0)
  | step {c d : Calls σ} (hc : Reached ctx c) (h : c.step ctx = some d) : Reached ctx d
  | again {text : String} {program : Program} {result : Except Failure Completion} {depth : Nat}
      {last : Session σ}
      (hc : Reached ctx ⟨.ended result, [], depth, last⟩) (session : Session σ)
        (h : Program.parse text = .ok program) :
      Reached ctx (Calls.start program session depth)

variable {ctx : Context σ} {c d : Calls σ} {a : Activation}
  {callers : List Activation} {depth : Nat} {session : Session σ}
  {result : Except Failure Completion}

/-- What a step does to the programs and the counter. -/
inductive Turns (ctx : Context σ) (c d : Calls σ) : Prop
  /-- The program goes on. -/
  | goes (a : Activation) (pc : Nat) (frames : List Frame) (hc : c.control = .running a)
      (hd : d.control = .running { a with pc, frames }) (hcallers : d.callers = c.callers)
        (hdepth : d.depth = c.depth)
  /-- The program is over without an error. -/
  | completes (a : Activation) (completion : Completion) (hc : c.control = .running a)
      (hd : d.control = .ended (.ok completion)) (hcallers : d.callers = c.callers)
        (hdepth : d.depth = c.depth)
  /-- A statement fails. -/
  | fails (a : Activation) (statement : Statement) (failure : Failure) (t : Session σ)
      (hc : c.control = .running a)
      (hstatement : a.program.statements[a.pc]? = some statement)
      (hrun : (a.act ctx c.depth statement).run.run (c.session.note [Machine.trace statement]) =
        (.error failure, t))
      (hd : d.control = .ended (.error failure)) (hcallers : d.callers = c.callers)
        (hdepth : d.depth = c.depth)
  /-- An `ExecLines` starts another program. -/
  | starts (a : Activation) (statement : Statement) (program : Program) (t : Session σ)
      (hc : c.control = .running a)
      (hstatement : a.program.statements[a.pc]? = some statement)
      (hrun : (a.act ctx c.depth statement).run.run (c.session.note [Machine.trace statement]) =
        (.ok (.enter program), t))
      (hd : d.control = .running (.start program))
        (hcallers : d.callers = { a with pc := a.pc + 1 } :: c.callers)
      (hdepth : d.depth = c.depth + 1)
  /-- An `ExecLines` takes over from the program that it started. -/
  | returns (result : Except Failure Completion) (caller : Activation)
      (hc : c.control = .ended result)
      (hd : d.control = .handBack result caller) (hcallers : c.callers = caller :: d.callers)
      (hdepth : d.depth = c.depth - 1)

theorem turns_of_step (h : c.step ctx = some d) : Turns ctx c d := by
  obtain ⟨control, callers, depth, session⟩ := c
  cases control with
  | ended result =>
    cases callers with
    | nil => cases h
    | cons caller callers =>
      cases h
      exact .returns result caller rfl rfl rfl rfl
  | running a =>
    unfold step at h
    dsimp only at h
    split at h
    · cases h
      exact .completes a _ rfl rfl rfl rfl
    · rename_i statement hstatement
      split at h
      · cases h
        exact .goes a _ _ rfl rfl rfl rfl
      · rename_i program t hrun
        cases h
        exact .starts a statement program t rfl hstatement hrun rfl rfl rfl
      · cases h
        exact .completes a _ rfl rfl rfl rfl
      · rename_i failure t hrun
        cases h
        exact .fails a statement failure t rfl hstatement hrun rfl rfl rfl

/-- Counting keeps up with the programs that wait. -/
theorem depth_eq_of_step (base : Nat) (h : c.step ctx = some d)
    (hc : c.depth = base + c.callers.length) :
    d.depth = base + d.callers.length := by
  cases turns_of_step h with
  | goes _ _ _ _ _ hcallers hdepth => rw [hdepth, hcallers, hc]
  | completes _ _ _ _ hcallers hdepth => rw [hdepth, hcallers, hc]
  | fails _ _ _ _ _ _ _ _ hcallers hdepth => rw [hdepth, hcallers, hc]
  | starts _ _ _ _ _ _ _ _ hcallers hdepth =>
    rw [hdepth, hcallers, hc, List.length_cons, Nat.add_assoc]
  | returns _ _ _ _ hcallers hdepth =>
    rw [hdepth, hc, hcallers, List.length_cons, ← Nat.add_assoc, Nat.add_sub_cancel]

/-- A call that comes to its end leaves the counter as it found it. -/
theorem depth_eq_of_leads (base : Nat) (h : c.Leads ctx d)
    (hdepth : c.depth = base + c.callers.length) :
    d.depth = base + d.callers.length := by
  induction h with
  | refl => exact hdepth
  | tail _ hstep ih => exact depth_eq_of_step base hstep ih

/-- The programs that a state holds. -/
def programs (c : Calls σ) : List Program :=
  match c.control with
  | .running a => a.program :: c.callers.map Activation.program
  | .ended _ => c.callers.map Activation.program

/-- What holds of every state of a session: all programs were loaded, and as many are counted as
    wait, which are not too many. -/
structure Kept (c : Calls σ) : Prop where
  loaded : ∀ program ∈ c.programs, ∃ text, Program.parse text = .ok program
  depth_eq : c.depth = c.callers.length
  depth_le : c.depth ≤ maxExecDepth

theorem kept_start {text : String} {program : Program} (h : Program.parse text = .ok program)
    (session : Session σ) :
    (start program session 0).Kept where
  loaded := List.forall_mem_singleton.mpr ⟨text, h⟩
  depth_eq := rfl
  depth_le := Nat.zero_le _

theorem Kept.wellShaped (h : c.Kept) (hcontrol : c.control = .running a) {statement : Statement}
    (hstatement : a.program.statements[a.pc]? = some statement) : statement.command.WellShaped := by
  obtain ⟨text, htext⟩ := h.loaded a.program (by simp [programs, hcontrol])
  exact Program.wellShaped_of_parse htext hstatement

/-- Every call keeps to the bound: a program is only started below it. -/
theorem Kept.step (h : c.Kept) (hstep : c.step ctx = some d) : d.Kept := by
  have hdepth : d.depth = d.callers.length := by
    have hsum := depth_eq_of_step 0 hstep
    rw [Nat.zero_add, Nat.zero_add] at hsum
    exact hsum h.depth_eq
  have hloaded := h.loaded
  have hle := h.depth_le
  cases turns_of_step hstep with
  | goes _ _ _ hc hd hcallers heq =>
    refine ⟨?_, hdepth, heq ▸ hle⟩
    simp only [programs, hc, hd, hcallers] at hloaded ⊢
    exact hloaded
  | completes _ _ hc hd hcallers heq | fails _ _ _ _ hc _ _ hd hcallers heq =>
    refine ⟨?_, hdepth, heq ▸ hle⟩
    simp only [programs, hc, hd, hcallers] at hloaded ⊢
    exact fun program hmem => hloaded program (List.mem_cons_of_mem _ hmem)
  | starts _ _ _ _ hc hstatement hrun hd hcallers heq =>
    obtain ⟨hlt, text, -, hparse⟩ :=
      Activation.exists_passes_of_enter hstatement (h.wellShaped hc hstatement) hrun
    refine ⟨?_, hdepth, heq ▸ hlt⟩
    simp only [programs, hc, hd, hcallers] at hloaded ⊢
    exact List.forall_mem_cons.mpr ⟨⟨_, hparse⟩, hloaded⟩
  | returns _ _ hc hd hcallers heq =>
    refine ⟨?_, hdepth, heq ▸ Nat.le_trans (Nat.sub_le c.depth 1) hle⟩
    simp only [programs, hc, hcallers, List.map_cons] at hloaded
    unfold Control.handBack at hd
    split at hd
    · simp only [programs, hd]
      exact hloaded
    · simp only [programs, hd]
      exact fun program hmem => hloaded program (List.mem_cons_of_mem _ hmem)

theorem Reached.kept (h : Reached ctx c) : c.Kept := by
  induction h with
  | start session hparse => exact kept_start hparse session
  | step _ hstep ih => exact ih.step hstep
  | @again _ program _ depth _ _ session hparse ih =>
    have hzero : depth = 0 := ih.depth_eq
    rw [hzero]
    exact kept_start hparse session

theorem Reached.leads (h : Reached ctx c) (hleads : Leads ctx c d) : Reached ctx d := by
  induction hleads with
  | refl => exact h
  | tail _ hstep ih => exact ih.step hstep

/-- A result other than the end of the lines is handed back to every program that waits. -/
theorem leads_over (ctx : Context σ) (h : result ≠ .ok .finished) (callers : List Activation)
    (depth : Nat) (session : Session σ) : ∀ i ≤ callers.length,
      Leads ctx ⟨.ended result, callers, depth, session⟩ ⟨.ended result, callers.drop i,
        depth - i, session⟩ := by
  induction callers generalizing depth with
  | nil =>
    intro i hi
    obtain rfl : i = 0 := Nat.le_zero.mp hi
    exact .refl
  | cons caller callers ih =>
    intro i hi
    cases i with
    | zero => exact .refl
    | succ i =>
      have hhand : Control.handBack result caller = .ended result := by
        unfold Control.handBack
        split
        · exact absurd rfl h
        · rfl
      have hstep : step ctx ⟨.ended result, caller :: callers, depth, session⟩ =
          some ⟨.ended result, callers, depth - 1, session⟩ := by
        unfold step
        dsimp only
        rw [hhand]
      have hrest := ih (depth - 1) i (Nat.le_of_succ_le_succ hi)
      rw [Nat.sub_sub, Nat.add_comm] at hrest
      exact .head hstep hrest

section Run

variable {m next : Machine σ} {after : Session σ}

/-- The state of calls in which a run stands. -/
def ofMachine (m : Machine σ) : Calls σ :=
  match m.stack with
  | [] => ⟨.ended (.ok .finished), [], 0, m.session⟩
  | a :: waiting => ⟨.running a, waiting, waiting.length, m.session⟩

/-- What one step of a run leads to, calls come to as well. -/
theorem leads_of_step (ctx : Context σ) (m : Machine σ) : match m.step ctx with
    | .next next => Leads ctx (ofMachine m) (ofMachine next)
    | .ended completion after => Leads ctx (ofMachine m) ⟨.ended (.ok completion), [], 0, after⟩
    | .failed failure after =>
      Leads ctx (ofMachine m) ⟨.ended (.error failure), [], 0, after⟩ := by
  obtain ⟨stack, session⟩ := m
  cases stack with
  | nil => exact .refl
  | cons a waiting =>
    have hback : ∀ (result : Except Failure Completion) after, result ≠ .ok .finished →
        Leads ctx ⟨.ended result, waiting, waiting.length, after⟩ ⟨.ended result, [],
            0, after⟩ := by
      intro result after h
      have hleads := leads_over ctx h waiting waiting.length after waiting.length (Nat.le_refl _)
      rw [List.drop_length, Nat.sub_self] at hleads
      exact hleads
    have hstep : ∀ d, step ctx ⟨.running a, waiting, waiting.length, session⟩ = some d →
        Leads ctx (ofMachine ⟨a :: waiting, session⟩) d := fun d hd => .single hd
    cases hstatement : a.program.statements[a.pc]? with
    | none =>
      simp only [Machine.step, hstatement]
      simp only [step, hstatement] at hstep
      have hover := hstep _ rfl
      cases waiting with
      | nil => exact hover
      | cons caller callers => exact hover.tail rfl
    | some statement =>
      simp only [Machine.step, hstatement]
      simp only [step, hstatement] at hstep
      generalize (a.act ctx waiting.length statement).run.run
        (session.note [Machine.trace statement]) = r at hstep
      obtain ⟨failure | action, t⟩ := r
      · exact (hstep _ rfl).trans (hback _ t (by simp))
      · cases action with
        | jump pc frames => exact hstep _ rfl
        | enter program => exact hstep _ rfl
        | leave => exact (hstep _ rfl).trans (hback _ t (by simp))

theorem leads_of_run {steps : Nat} (h : (m.run ctx steps).result? = some (result, after)) :
    Leads ctx (ofMachine m) ⟨.ended result, [], 0, after⟩ := by
  induction steps generalizing m with
  | zero => cases h
  | succ steps ih =>
    have hleads := leads_of_step ctx m
    rw [Machine.run] at h
    generalize m.step ctx = stepped at h hleads
    cases stepped with
    | next next => exact hleads.trans (ih h)
    | ended completion session =>
      cases h
      exact hleads
    | failed failure session =>
      cases h
      exact hleads

/-- Whether a run that goes on as calls do comes to its end with a result. -/
def Gives (ctx : Context σ) (c : Calls σ) (result : Except Failure Completion)
    (after : Session σ) : Prop :=
  match c.control with
  | .running a =>
    ∃ steps, ((Machine.mk (a :: c.callers) c.session).run ctx steps).result? =
      some (result, after)
  | .ended (.ok .finished) =>
    ∃ steps, ((Machine.mk c.callers c.session).run ctx steps).result? = some (result, after)
  | .ended other => other = result ∧ c.session = after

theorem exists_run_of_next (h : m.step ctx = .next next)
    (hnext : ∃ steps, (next.run ctx steps).result? = some (result, after)) :
    ∃ steps, (m.run ctx steps).result? = some (result, after) := by
  obtain ⟨steps, hsteps⟩ := hnext
  refine ⟨steps + 1, ?_⟩
  simp only [Machine.run, h, hsteps]

/-- Going one step back changes nothing about the end of a run. -/
theorem gives_of_step (h : c.step ctx = some d) (hdepth : c.depth = c.callers.length)
    (hd : d.Gives ctx result after) : c.Gives ctx result after := by
  obtain ⟨control, callers, depth, session⟩ := c
  obtain rfl : depth = callers.length := hdepth
  cases control with
  | ended own =>
    cases callers with
    | nil => cases h
    | cons caller callers =>
      cases h
      obtain failure | completion := own
      · exact hd
      · cases completion with
        | finished => exact hd
        | returned => exact hd
  | running a =>
    cases hstatement : a.program.statements[a.pc]? with
    | none =>
      simp only [step, hstatement, Option.some.injEq] at h
      subst h
      exact exists_run_of_next (by simp only [Machine.step, hstatement]) hd
    | some statement =>
      simp only [step, hstatement] at h
      generalize hrun : (a.act ctx callers.length statement).run.run
        (session.note [Machine.trace statement]) = r at h
      obtain ⟨failure | action, t⟩ := r
      · cases h
        obtain ⟨rfl, rfl⟩ := hd
        exact ⟨1, by simp only [Machine.run, Machine.step, hstatement, hrun, Outcome.result?]⟩
      · cases action with
        | jump pc frames | enter program =>
          cases h
          exact exists_run_of_next (by simp only [Machine.step, hstatement, hrun]) hd
        | leave =>
          cases h
          obtain ⟨rfl, rfl⟩ := hd
          exact ⟨1, by simp only [Machine.run, Machine.step, hstatement, hrun, Outcome.result?]⟩

theorem gives_of_leads (h : Leads ctx c ⟨.ended result, [], 0, after⟩)
    (hdepth : c.depth = c.callers.length) :
    c.Gives ctx result after := by
  induction h using Relation.ReflTransGen.head_induction_on with
  | refl =>
    obtain failure | completion := result
    · exact ⟨rfl, rfl⟩
    · cases completion with
      | finished => exact ⟨1, rfl⟩
      | returned => exact ⟨rfl, rfl⟩
  | @head c d hstep _ ih =>
    have hsum := depth_eq_of_step 0 hstep
    rw [Nat.zero_add, Nat.zero_add] at hsum
    exact gives_of_step hstep hdepth (ih (hsum hdepth))

/-- Calls come to the same ends as a run. -/
theorem exists_run_iff_leads {program : Program} {session : Session σ} :
    (∃ steps, (session.execute ctx steps program).result? = some (result, after)) ↔
      Leads ctx (start program session 0) ⟨.ended result, [], 0, after⟩ := by
  constructor
  · rintro ⟨steps, h⟩
    exact leads_of_run h
  · exact fun h => gives_of_leads h rfl

end Run

section Ends

variable {b : Calls σ} {line limit : Nat} {text : String} {error : LoadError}

/-- A program that is over before the end of its lines ends all that wait. -/
theorem leads_of_step_over (h : c.step ctx = some ⟨.ended result, c.callers, c.depth, session⟩)
    (hresult : result ≠ .ok .finished) :
    ∀ i ≤ c.callers.length, Leads ctx c ⟨.ended result, c.callers.drop i,
      c.depth - i, session⟩ :=
  fun i hi => .head h (leads_over ctx hresult c.callers c.depth session i hi)

section Statement

variable {statement : Statement} {t : Session σ} (hcontrol : c.control = .running a)
  (hstatement : a.program.statements[a.pc]? = some statement)

include hcontrol hstatement

theorem step_of_leave
    (hrun : (a.act ctx c.depth statement).run.run (c.session.note [Machine.trace statement]) =
      (.ok .leave, t)) :
    c.step ctx = some ⟨.ended (.ok .returned), c.callers, c.depth, t⟩ := by
  unfold step
  rw [hcontrol]
  dsimp only
  rw [hstatement]
  dsimp only
  rw [hrun]

theorem step_of_error {failure : Failure}
    (hrun : (a.act ctx c.depth statement).run.run (c.session.note [Machine.trace statement]) =
      (.error failure, t)) :
    c.step ctx = some ⟨.ended (.error failure), c.callers, c.depth, t⟩ := by
  unfold step
  rw [hcontrol]
  dsimp only
  rw [hstatement]
  dsimp only
  rw [hrun]

end Statement

/-- Lines that cannot be loaded fail at the `ExecLines` that gives them. -/
theorem exists_leads_nested (ctx : Context σ) (hcontrol : c.control = .running a)
    (hpasses : a.Passes c.session.vars line text)
    (hparse : Program.parse (Activation.execSource text) = .error error) :
    ∃ session, ∀ i ≤ c.callers.length,
      Leads ctx c ⟨.ended (.error (.run ⟨line, .nested error⟩)), c.callers.drop i,
        c.depth - i, session⟩ := by
  obtain ⟨statement, hstatement, hact⟩ := hpasses.exists_statement ctx
  have hrun := hact (c.session.note [Machine.trace statement]) c.depth rfl
  rw [Activation.run_execLines_of_error hparse] at hrun
  exact ⟨_, leads_of_step_over (step_of_error hcontrol hstatement hrun) (by simp)⟩

/-- A `Return` ends every program that waits as it ends its own. -/
theorem exists_leads_returned (ctx : Context σ) (hcontrol : c.control = .running a)
    (hstatement : a.program.statements[a.pc]? = some ⟨line, .returnEarly⟩) :
    ∃ session, ∀ i ≤ c.callers.length,
      Leads ctx c ⟨.ended (.ok .returned), c.callers.drop i, c.depth - i, session⟩ := by
  have hrun : ∀ s : Session σ, (a.act ctx c.depth ⟨line, .returnEarly⟩).run.run s =
      (.ok .leave, s.note [.info s!"The script returned early on line {line}."]) := fun s => rfl
  exact ⟨_, leads_of_step_over (step_of_leave hcontrol hstatement (hrun _)) (by simp)⟩

/-- A program is nested too deeply only where as many as may be are running, at an `ExecLines` whose
    lines can be loaded. -/
theorem Reached.exists_of_nestedTooDeep (h : Reached ctx c)
    (hover : c.control = .ended (.error (.run ⟨line, .nestedTooDeep limit⟩))) :
    limit = maxExecDepth ∧ ∃ b a text program, Reached ctx b ∧ Leads ctx b c ∧
      b.control = .running a ∧
      b.callers.length = maxExecDepth ∧ a.Passes b.session.vars line text ∧
      Program.parse (Activation.execSource text) = .ok program := by
  induction h with
  | start | again => cases hover
  | @step c d hc hstep ih =>
    cases turns_of_step hstep with
    | goes _ _ _ _ hd | completes _ _ _ hd =>
      rw [hd] at hover
      cases hover
    | starts _ _ _ _ _ _ _ hd =>
      rw [hd] at hover
      cases hover
    | fails a statement failure t hcontrol hstatement hrun hd =>
      rw [hd] at hover
      cases hover
      have hkept := hc.kept
      obtain ⟨rfl, hle, text, program, hpasses, hparse⟩ :=
        Activation.exists_passes_of_nestedTooDeep hstatement
          (hkept.wellShaped hcontrol hstatement) hrun
      have hlength : c.callers.length = maxExecDepth :=
        hkept.depth_eq.symm.trans (Nat.le_antisymm hkept.depth_le hle)
      exact ⟨rfl, c, a, text, program, hc, .single hstep, hcontrol, hlength, hpasses, hparse⟩
    | returns result caller hcontrol hd =>
      rw [hd] at hover
      unfold Control.handBack at hover
      split at hover
      · cases hover
      · cases hover
        obtain ⟨rfl, b, a, text, program, hb, hleads, hrest⟩ := ih hcontrol
        exact ⟨rfl, b, a, text, program, hb, hleads.tail hstep, hrest⟩

end Ends

/-- In every state of a session, as many programs are counted as `ExecLines` has started and not
    come back from, which are at most 32. A call that comes to its end, at whatever depth and in
    whatever way, leaves the counter as it found it, so the next script of the session starts at
    zero; and counting like this, calls come to the same ends as runs. A program is nested too
    deeply only at an `ExecLines` whose lines can be loaded where 32 are running. Lines that cannot
    be loaded always fail at the `ExecLines` that gives them, and a `Return` ends all the programs
    around its own as it ends that. -/
theorem depth_balanced (ctx : Context σ) :
    (∀ c, Reached ctx c → c.depth = c.callers.length ∧ c.depth ≤ 32) ∧
    (∀ c d, c.callers.length ≤ c.depth → Leads ctx c d →
      d.callers.length = c.callers.length → d.depth = c.depth) ∧
    (∀ program session result after,
      (∃ steps, (session.execute ctx steps program).result? = some (result, after)) ↔
      Leads ctx (start program session 0) ⟨.ended result, [], 0, after⟩) ∧
    (∀ c line limit, Reached ctx c →
      c.control = .ended (.error (.run ⟨line, .nestedTooDeep limit⟩)) →
      limit = 32 ∧ ∃ b a text program, Reached ctx b ∧ Leads ctx b c ∧
        b.control = .running a ∧
        b.callers.length = 32 ∧ a.Passes b.session.vars line text ∧
        Program.parse (Activation.execSource text) = .ok program) ∧
    (∀ c a line text error, c.control = .running a → a.Passes c.session.vars line text →
      Program.parse (Activation.execSource text) = .error error →
      ∃ session, ∀ i ≤ c.callers.length,
        Leads ctx c ⟨.ended (.error (.run ⟨line, .nested error⟩)), c.callers.drop i,
          c.depth - i, session⟩) ∧
    ∀ c a line, c.control = .running a →
      a.program.statements[a.pc]? = some ⟨line, .returnEarly⟩ →
      ∃ session, ∀ i ≤ c.callers.length,
        Leads ctx c ⟨.ended (.ok .returned), c.callers.drop i, c.depth - i, session⟩ := by
  refine ⟨fun c hc => ⟨hc.kept.depth_eq, hc.kept.depth_le⟩, fun c d hle hleads hlength => ?_,
    fun program session result after => exists_run_iff_leads,
    fun c line limit hc hover => hc.exists_of_nestedTooDeep hover,
    fun c a line text error => exists_leads_nested ctx, fun c a line => exists_leads_returned ctx⟩
  have hd := depth_eq_of_leads (c.depth - c.callers.length) hleads (Nat.sub_add_cancel hle).symm
  rw [hd, hlength, Nat.sub_add_cancel hle]

/-- A script fails two programs deep, and the next one starts where nothing is counted. -/
theorem depth_balanced_of_nested_failure :
    let ctx : Context Prepared := ⟨⟨.default, .empty, .empty⟩, Prepared.host⟩
    ∃ program error after, Program.parse "ExecLines \"ExecLines Bogus\"" = .ok program ∧
      Leads ctx (start program (Session.start {}) 0)
        ⟨.ended (.error (.run ⟨1, .nested error⟩)), [], 0, after⟩ ∧
      Reached ctx (start program after 0) := by
  intro ctx
  have houtcome : ((Program.parse "ExecLines \"ExecLines Bogus\"").toOption.bind fun program =>
      ((Session.start {}).execute ctx 2 program).result?.bind fun outcome => outcome.1.error?) =
        some (.run ⟨1, .nested ⟨1, .unknownKeyword "Bogus"⟩⟩) := by
    decide +kernel
  obtain ⟨program, hprogram, hfails⟩ := Option.bind_eq_some_iff.mp houtcome
  obtain ⟨⟨result, after⟩, hrun, herror⟩ := Option.bind_eq_some_iff.mp hfails
  have hparse := Except.toOption_eq_some_iff.mp hprogram
  obtain rfl := Except.error?_eq_some_iff.mp herror
  have hleads := ((depth_balanced ctx).2.2.1 program _ _ after).mp ⟨2, hrun⟩
  have hreached := (Reached.start _ hparse).leads hleads
  exact ⟨program, _, after, hparse, hleads, .again hreached after hparse⟩

end Calls

end InstallScript
