import InstallScript.Proofs.Machine.Cases

/-!
The rounds of a loop. A loop that is open knows where it is in its sequence, and nothing that a
statement does while the loop stays open changes that, except that the next round is started; and a
round gives the variable of the loop the next value of the sequence, whatever its value was. So the
values that a run gives to the variable by starting rounds are the values of the sequence, in their
order.
-/

namespace InstallScript

open Script

theorem cons_inj_of_suffix {α : Type} {x y : α} {rest all : List α} (hx : x :: rest <:+ all)
    (hy : y :: rest <:+ all) :
    x = y := by
  have hsuffix := List.suffix_of_suffix_length_le hx hy (Nat.le_refl _)
  exact (List.cons.inj (hsuffix.eq_of_length rfl)).1

/-- A loop that is open: the programs that wait for the one it belongs to, the blocks that are open
    around it, where it starts and stops, and its variable. -/
structure OpenLoop where
  below : List Activation
  around : List Frame
  start : Nat
  stop : Nat
  variableName : String

namespace OpenLoop

/-- The block of a loop, with the rest of its sequence. -/
def frame (loop : OpenLoop) (state : LoopState) : Frame :=
  .forBlock loop.start loop.stop loop.variableName state

theorem frame_inj {loop : OpenLoop} {state other : LoopState}
    (h : loop.frame state = loop.frame other) :
    state = other :=
  (Frame.forBlock.inj h).2.2.2

end OpenLoop

/-- Whether a run is inside a loop that has come to some place of its sequence. Programs that were
    started inside the loop may be running. -/
def Machine.Inside {σ : Type} (m : Machine σ) (loop : OpenLoop) (state : LoopState) : Prop :=
  ∃ a, a :: loop.below <:+ m.stack ∧ loop.frame state :: loop.around <:+ a.frames

namespace Frame

variable {old frames : List Frame}

/-- Whether every loop that is open among blocks was open before, at the same place of its sequence
    and with the same blocks around it. -/
def KeepsLoops (old frames : List Frame) : Prop :=
  ∀ first stop name state around, .forBlock first stop name state :: around <:+ frames →
    .forBlock first stop name state :: around <:+ old

theorem keepsLoops_of_suffix (h : frames <:+ old) : KeepsLoops old frames :=
  fun _ _ _ _ _ hloop => hloop.trans h

/-- Opening a block that is no loop. -/
theorem KeepsLoops.cons {f : Frame} (h : KeepsLoops old frames) (hf : f.enclosure.kind ≠ .loop) :
    KeepsLoops old (f :: frames) := by
  intro first stop name state around hloop
  rcases List.suffix_cons_iff.mp hloop with heq | hloop
  · cases heq
    exact absurd rfl hf
  · exact h first stop name state around hloop

theorem keepsLoops_of_enterCase {pc : Nat} {value : String} {entry : CaseEntry}
    (h : enterCase pc value frames = .ok entry) : KeepsLoops frames entry.frames := by
  have hclose := closeCase_suffix frames
  unfold enterCase at h
  split at h
  · rename_i start results matched rest heq
    rw [heq] at hclose
    have hrest := keepsLoops_of_suffix ((List.suffix_cons _ _).trans hclose)
    split at h
    · cases h
      exact (hrest.cons (by simp [enclosure])).cons (by simp [enclosure])
    · cases h
      exact keepsLoops_of_suffix hclose
  · cases h

theorem keepsLoops_of_enterDefault {pc : Nat} {entry : CaseEntry}
    (h : enterDefault pc frames = .ok entry) :
    KeepsLoops frames entry.frames := by
  have hclose := closeCase_suffix frames
  unfold enterDefault at h
  split at h
  · rename_i heq
    rw [heq] at hclose
    cases h
    split
    · exact (keepsLoops_of_suffix hclose).cons (by simp [enclosure])
    · exact keepsLoops_of_suffix hclose
  · cases h

end Frame

namespace Activation

variable {σ : Type} {a : Activation}

/-- Whether a program goes on with no loop open that was not open before, and none in another
    round. -/
def KeepsLoops (a : Activation) : Action → Prop
  | .jump _ frames => Frame.KeepsLoops a.frames frames
  | _ => True

theorem keepsLoops_jump {pc : Nat} {frames : List Frame} (h : frames <:+ a.frames) :
    a.KeepsLoops (.jump pc frames) :=
  Frame.keepsLoops_of_suffix h

theorem keepsLoops_enterCase {next : Nat} {entry : CaseEntry}
    (h : Frame.KeepsLoops a.frames entry.frames) :
    a.KeepsLoops (a.enterCase next entry) := by
  unfold enterCase
  split
  · exact h
  · exact h

theorem gives_keepsLoops_openSelect (line : Nat) (results : List String) :
    (a.openSelect line results : Exec σ Action).Gives a.KeepsLoops := by
  unfold openSelect
  split
  · refine Exec.Gives.pure ?_
    exact (Frame.keepsLoops_of_suffix (List.suffix_refl a.frames)).cons (by simp [Frame.enclosure])
  · exact Exec.Gives.fail line _

/-- A statement other than a `For`, an `EndFor` and a `Continue` leaves loops as they are, or closes
    them. -/
theorem gives_keepsLoops (ctx : Context σ) (depth line : Nat) {command : Command}
    (hfor : command.opens? ≠ some .loop) (hend : command ≠ .endFor)
    (hcontinue : command ≠ .continueLoop) :
    (a.act ctx depth ⟨line, command⟩).Gives a.KeepsLoops := by
  have hself : a.frames <:+ a.frames := List.suffix_refl _
  cases command with
  | forLoop => exact absurd rfl hfor
  | endFor => exact absurd rfl hend
  | continueLoop => exact absurd rfl hcontinue
  | comment | label => exact Exec.Gives.pure (keepsLoops_jump hself)
  | ifTest negated condition args =>
    have hopen : Frame.KeepsLoops a.frames (.ifBlock a.pc :: a.frames) :=
      (Frame.keepsLoops_of_suffix hself).cons (by simp [Frame.enclosure])
    simp only [act]
    split
    · rename_i elseAt stop _
      refine Exec.Gives.any_bind fun result => Exec.Gives.pure ?_
      cases result != negated with
      | true => exact hopen
      | false =>
        cases elseAt with
        | none => exact keepsLoops_jump hself
        | some middle => exact hopen
    · exact Exec.Gives.fail line _
  | otherwise =>
    simp only [act]
    split
    · refine Exec.Gives.lift_bind fun frames hframes => Exec.Gives.pure ?_
      exact keepsLoops_jump (Frame.suffix_of_closeIf hframes)
    · exact Exec.Gives.fail line _
  | endIf =>
    refine Exec.Gives.lift_bind fun frames hframes => Exec.Gives.pure ?_
    exact keepsLoops_jump (Frame.suffix_of_closeIf hframes)
  | exitLoop =>
    simp only [act]
    split
    · refine Exec.Gives.lift_bind fun frames hframes => ?_
      obtain ⟨hsuffix, -⟩ := Frame.suffix_of_unwind hframes
      split
      · exact Exec.Gives.pure (keepsLoops_jump ((List.suffix_cons _ _).trans hsuffix))
      · exact Exec.Gives.fail line _
    · exact Exec.Gives.fail line _
  | select menu => exact Exec.Gives.any_bind fun results => gives_keepsLoops_openSelect line results
  | selectVar name =>
    refine Exec.Gives.any_bind fun s => ?_
    split
    · exact gives_keepsLoops_openSelect line _
    · exact Exec.Gives.fail line _
  | selectString value =>
    exact Exec.Gives.any_bind fun s => Exec.Gives.any_bind fun value =>
      gives_keepsLoops_openSelect line _
  | caseOf value =>
    simp only [act]
    split
    · refine Exec.Gives.any_bind fun s => Exec.Gives.any_bind fun value => ?_
      refine Exec.Gives.lift_bind fun entry hentry => ?_
      have hkeeps := Frame.keepsLoops_of_enterCase hentry
      split
      · exact Exec.Gives.any_bind fun _ => Exec.Gives.pure (keepsLoops_enterCase hkeeps)
      · exact Exec.Gives.pure (keepsLoops_enterCase hkeeps)
    · exact Exec.Gives.fail line _
  | defaultCase =>
    simp only [act]
    split
    · refine Exec.Gives.lift_bind fun entry hentry => Exec.Gives.pure ?_
      exact keepsLoops_enterCase (Frame.keepsLoops_of_enterDefault hentry)
    · exact Exec.Gives.fail line _
  | breakCase =>
    simp only [act]
    split
    · split
      · refine Exec.Gives.lift_bind fun frames hframes => Exec.Gives.pure ?_
        exact keepsLoops_jump ((List.tail_suffix _).trans (Frame.suffix_of_unwind hframes).1)
      · exact Exec.Gives.fail line _
    · exact Exec.Gives.fail line _
  | endSelect =>
    refine Exec.Gives.lift_bind fun frames hframes => Exec.Gives.pure ?_
    exact keepsLoops_jump (Frame.suffix_of_closeSelect hframes)
  | goto name =>
    simp only [act]
    split
    · exact Exec.Gives.any_bind fun _ =>
        Exec.Gives.pure (keepsLoops_jump (List.dropWhile_suffix _))
    · exact Exec.Gives.fail line _
  | returnEarly => exact Exec.Gives.any_bind fun _ => Exec.Gives.pure trivial
  | fatalError => exact Exec.Gives.any_bind fun _ => Exec.Gives.throw _
  | setVar name value =>
    refine Exec.Gives.any_bind fun s => Exec.Gives.any_bind fun value => ?_
    exact Exec.Gives.any_bind fun _ => Exec.Gives.pure (keepsLoops_jump hself)
  | instruction kind args =>
    by_cases hexec : kind = .execLines
    · subst hexec
      refine Exec.Gives.any_bind fun text => Exec.Gives.any_bind fun s =>
        Exec.Gives.any_bind fun text => ?_
      unfold execLines
      dsimp only
      split
      · exact Exec.Gives.fail line _
      · refine Exec.Gives.any_bind fun _ => ?_
        split
        · exact Exec.Gives.fail line _
        · exact Exec.Gives.any_bind fun _ => Exec.Gives.pure trivial
    · rw [act_instruction a ctx depth line args hexec]
      exact Exec.Gives.any_bind fun _ => Exec.Gives.pure (keepsLoops_jump hself)

/-- How a loop can have come to be open where a program goes on: it was open before, it has just
    been opened, or the next of its rounds has been started with the next value of its sequence. -/
def Advances (a : Activation) (vars : Variables) (action : Action) (after : Variables) : Prop :=
  match action with
  | .jump _ frames =>
    ∀ first stop name state around, .forBlock first stop name state :: around <:+ frames →
      .forBlock first stop name state :: around <:+ a.frames ∨ around = a.frames ∨
      ∃ before item, .forBlock first stop name before :: around <:+ a.frames ∧
        before.next? = some (item, state) ∧
        after = vars.insert name item
  | _ => True

theorem KeepsLoops.advances {action : Action} (h : a.KeepsLoops action) (vars after : Variables) :
    a.Advances vars action after := by
  cases action with
  | jump pc frames =>
    exact fun first stop name state around hloop => .inl (h first stop name state around hloop)
  | enter | leave => trivial

/-- Opening a loop leaves the loops around it as they are. -/
theorem gives_advances_openLoop (line stop : Nat) (name : String) (state : LoopState) :
    (a.openLoop line stop name state : Exec σ Action).Gives fun action =>
      ∀ vars after, a.Advances vars action after := by
  unfold openLoop
  split
  · refine Exec.Gives.any_bind fun _ => Exec.Gives.pure ?_
    exact (keepsLoops_jump (List.suffix_refl _)).advances
  · refine Exec.Gives.any_bind fun _ => Exec.Gives.pure fun vars after => ?_
    intro first stop name state around hloop
    rcases List.suffix_cons_iff.mp hloop with heq | hloop
    · exact .inr (.inl (List.cons.inj heq).2)
    · exact .inl hloop

/-- Going on to the next round of a loop leaves the loops around it as they are, and takes the next
    value off its sequence whatever the value of its variable is. -/
theorem advances_nextRound (line start : Nat) (vars : Variables) :
    (a.nextRound line start : Exec σ Action).Meets (fun s => s.vars = vars)
      (fun action t => a.Advances vars action t.vars) fun _ _ => True := by
  have hunwind : (Exec.lift line (Frame.unwind .endFor start a.frames) : Exec σ (List Frame)).Meets
      (fun s => s.vars = vars) (fun frames s => frames <:+ a.frames ∧ s.vars = vars) fun _ _ =>
          True := by
    refine Exec.Meets.lift (fun frames hframes s hs => ?_) fun _ _ _ _ => trivial
    exact ⟨(Frame.suffix_of_unwind hframes).1, hs⟩
  refine Exec.Meets.bind hunwind fun frames => ?_
  split
  · rename_i first stop name state rest
    split
    · rename_i item next hnext
      refine Exec.Meets.bind (Exec.Meets.modify fun s hs => ?_) fun _ =>
        Exec.Meets.pure fun s hs => hs
      intro first stop name after around hloop
      rcases List.suffix_cons_iff.mp hloop with heq | hloop
      · obtain ⟨hframe, rfl⟩ := List.cons.inj heq
        cases hframe
        refine .inr (.inr ⟨state, item, hs.1, hnext, ?_⟩)
        rw [← hs.2]
        rfl
      · exact .inl (hloop.trans ((List.suffix_cons _ _).trans hs.1))
    · refine Exec.Meets.pure fun s hs => ?_
      exact (keepsLoops_jump ((List.suffix_cons _ _).trans hs.1)).advances vars s.vars
  · exact Exec.Meets.fail fun _ _ => trivial

theorem advances_act (ctx : Context σ) (depth : Nat) (statement : Statement) (vars : Variables) :
    (a.act ctx depth statement).Meets (fun s => s.vars = vars)
      (fun action t => a.Advances vars action t.vars) fun _ _ => True := by
  obtain ⟨line, command⟩ := statement
  by_cases hend : command = .endFor ∨ command = .continueLoop
  · rcases hend with rfl | rfl
    all_goals
      simp only [act]
      split
      · exact advances_nextRound line _ vars
      · exact Exec.Meets.fail fun _ _ => trivial
  · have hgives : (a.act ctx depth ⟨line, command⟩).Gives fun action => ∀ vars after,
        a.Advances vars action after := by
      by_cases hfor : command.opens? = some .loop
      · cases command with
        | forLoop header =>
          simp only [act]
          split
          · refine Exec.Gives.any_bind fun s => Exec.Gives.any_bind fun state =>
              Exec.Gives.any_bind fun _ => ?_
            exact gives_advances_openLoop line _ _ _
          · exact Exec.Gives.fail line _
        | _ => cases hfor
      · obtain ⟨hendFor, hcontinue⟩ := not_or.mp hend
        exact Exec.Meets.mono (gives_keepsLoops ctx depth line hfor hendFor hcontinue)
          fun action _ h => h.advances
    exact (hgives.meets _).mono fun action s h => h vars s.vars

end Activation

namespace Machine

variable {σ : Type} {ctx : Context σ} {m next : Machine σ} {loop : OpenLoop}
  {state after : LoopState}

theorem Inside.unique (h : m.Inside loop state) (h' : m.Inside loop after) : after = state := by
  obtain ⟨a, ha, hloop⟩ := h
  obtain ⟨b, hb, hloop'⟩ := h'
  cases cons_inj_of_suffix ha hb
  exact OpenLoop.frame_inj (cons_inj_of_suffix hloop' hloop)

/-- What a step can do to the programs that have not ended and to the loops that are open in the
    innermost one. -/
theorem stack_of_step {a : Activation} {rest : List Activation} {s : Session σ}
    (h : (⟨a :: rest, s⟩ : Machine σ).step ctx = .next next) :
    next.stack = rest ∨
    (∃ program, next.stack = .start program :: { a with pc := a.pc + 1 } :: rest) ∨
      ∃ pc frames, next.stack = { a with pc, frames } :: rest ∧
        a.Advances s.vars (.jump pc frames) next.session.vars := by
  cases hstatement : a.program.statements[a.pc]? with
  | none =>
    simp only [step, hstatement] at h
    cases h
    exact .inl rfl
  | some statement =>
    have hact := (a.advances_act ctx rest.length statement s.vars).of_run
      (s.note [trace statement]) rfl
    simp only [step, hstatement] at h
    generalize (a.act ctx rest.length statement).run.run (s.note [trace statement]) = r at h hact
    obtain ⟨failure | action, t⟩ := r
    · cases h
    · cases action with
      | jump pc frames =>
        cases h
        exact .inr (.inr ⟨pc, frames, rfl, hact⟩)
      | enter program =>
        cases h
        exact .inr (.inl ⟨program, rfl⟩)
      | leave => cases h

/-- As long as a loop stays open, a step leaves it as it is, or starts its next round. -/
theorem Inside.step (h : m.Inside loop state) (hstep : m.step ctx = .next next)
    (hnext : next.Inside loop after) :
    after = state ∨ ∃ item, state.next? = some (item, after) ∧
      next.session.vars = m.session.vars.insert loop.variableName item := by
  obtain ⟨stack, session⟩ := m
  cases stack with
  | nil => cases hstep
  | cons a rest =>
    obtain ⟨b, hb, hloop⟩ := h
    have hmoves := stack_of_step hstep
    rcases List.suffix_cons_iff.mp hb with heq | hbelow
    · -- The loop belongs to the innermost program.
      cases heq
      obtain ⟨c, hc, hloop'⟩ := hnext
      rcases hmoves with hstack | ⟨program, hstack⟩ | ⟨pc, frames, hstack, hadvances⟩
      · rw [hstack] at hc
        exact absurd hc.length_le (by simp)
      · rw [hstack] at hc
        cases cons_inj_of_suffix hc (List.suffix_cons _ _)
        exact .inl (OpenLoop.frame_inj (cons_inj_of_suffix hloop' hloop))
      · rw [hstack] at hc
        cases cons_inj_of_suffix hc (List.suffix_refl _)
        rcases hadvances _ _ _ _ _ hloop' with hkept | haround | ⟨before, item,
          hbefore, hitem, hvars⟩
        · exact .inl (OpenLoop.frame_inj (cons_inj_of_suffix hkept hloop))
        · -- Just opened, it could not have been open before.
          rw [haround] at hloop
          exact absurd hloop.length_le (by simp)
        · obtain rfl : before = state := OpenLoop.frame_inj (cons_inj_of_suffix hbefore hloop)
          exact .inr ⟨item, hitem, hvars⟩
    · -- The loop belongs to a program that waits.
      have hrest : rest <:+ next.stack := by
        rcases hmoves with hstack | ⟨program, hstack⟩ | ⟨pc, frames, hstack, -⟩
        · exact ⟨[], hstack.symm⟩
        · rw [hstack]
          exact (List.suffix_cons _ _).trans (List.suffix_cons _ _)
        · rw [hstack]
          exact List.suffix_cons _ _
      exact .inl (Inside.unique ⟨b, hbelow.trans hrest, hloop⟩ hnext)

/-- A run that stays inside a loop, and the values that the rounds it starts give the variable of
    the loop. -/
inductive Rounds (ctx : Context σ) (loop : OpenLoop) : (steps : Nat) → Machine σ →
    List String → Machine σ → Prop where
  | rest {m : Machine σ} : Rounds ctx loop 0 m [] m
  | body {steps : Nat} {m next last : Machine σ} {state : LoopState} {items : List String} :
      m.Inside loop state → m.step ctx = .next next → next.Inside loop state →
        Rounds ctx loop steps next items last →
      Rounds ctx loop (steps + 1) m items last
  | round {steps : Nat} {m next last : Machine σ} {state after : LoopState} {item : String}
      {items : List String} :
      m.Inside loop state → m.step ctx = .next next → state.next? = some (item, after) →
        next.Inside loop after →
      next.session.vars = m.session.vars.insert loop.variableName item →
        Rounds ctx loop steps next items last →
      Rounds ctx loop (steps + 1) m (item :: items) last

/-- Whether a run goes on for some steps and is inside a loop before and after each of them. -/
def StaysInside (ctx : Context σ) (loop : OpenLoop) : (steps : Nat) → Machine σ → Prop
  | 0, m => ∃ state, m.Inside loop state
  | steps + 1, m =>
    (∃ state, m.Inside loop state) ∧ ∃ next, m.step ctx = .next next ∧
      StaysInside ctx loop steps next

theorem StaysInside.exists_inside {steps : Nat} (h : m.StaysInside ctx loop steps) :
    ∃ state, m.Inside loop state := by
  cases steps with
  | zero => exact h
  | succ steps => exact h.1

/-- The rounds that a run starts while it stays inside a loop take the values of the loop's sequence
    one after the other, whatever is done to the variable of the loop between them. -/
theorem StaysInside.exists_rounds {steps : Nat} (h : m.StaysInside ctx loop steps)
    (hm : m.Inside loop state) (hstate : state.InRange) :
    ∃ items last after, m.run ctx steps = .unfinished last ∧
      Rounds ctx loop steps m items last ∧ last.Inside loop after ∧
      state.items = items ++ after.items := by
  induction steps generalizing m state with
  | zero => exact ⟨[], m, state, rfl, .rest, hm, rfl⟩
  | succ steps ih =>
    obtain ⟨-, next, hstep, hstays⟩ := h
    obtain ⟨between, hnext⟩ := hstays.exists_inside
    have hrun : ∀ last, next.run ctx steps = .unfinished last →
        m.run ctx (steps + 1) = .unfinished last := by
      intro last hlast
      simp only [run, hstep, hlast]
    rcases hm.step hstep hnext with rfl | ⟨item, hitem, hvars⟩
    · obtain ⟨items, last, after, hlast, hrounds, hafter, hitems⟩ := ih hstays hnext hstate
      exact ⟨items, last, after, hrun last hlast, .body hm hstep hnext hrounds, hafter, hitems⟩
    · have hsequence := hstate.next?
      rw [hitem] at hsequence
      obtain ⟨hbetween, hsplit⟩ := hsequence
      obtain ⟨items, last, after, hlast, hrounds, hafter, hitems⟩ := ih hstays hnext hbetween
      refine ⟨item :: items, last, after, hrun last hlast,
        .round hm hstep hitem hnext hvars hrounds, hafter, ?_⟩
      rw [hsplit, hitems, List.cons_append]

/-- Whether a run that has come to the start of a loop gives the variable of the loop these values.
    Without any, it goes on after the loop. Otherwise it enters the loop with the first one, and for
    as long as it stays inside, the rounds that it starts take the others one after the other. -/
def WalksOver (ctx : Context σ) (m : Machine σ) (loop : OpenLoop) :
    (values : List String) → Prop
  | [] => ∃ next a, m.step ctx = .next next ∧ next.stack = a :: loop.below ∧
    a.pc = loop.stop + 1 ∧
      a.frames = loop.around ∧ next.session.vars = m.session.vars
  | first :: others => ∃ next state, m.step ctx = .next next ∧ next.Inside loop state ∧
      next.session.vars = m.session.vars.insert loop.variableName first ∧
      ∀ steps, next.StaysInside ctx loop steps →
        ∃ items last after, next.run ctx steps = .unfinished last ∧
        Rounds ctx loop steps next items last ∧ last.Inside loop after ∧
          others = items ++ after.items

section Start

variable {a : Activation} {rest : List Activation} {s : Session σ} {line stop : Nat}
  {header : LoopHeader}

/-- A loop whose sequence cannot be made is not entered. -/
theorem step_of_ofHeader_error
    (hstatement : a.program.statements[a.pc]? = some ⟨line, .forLoop header⟩)
    (hlink : a.program.link a.pc = .loop stop) {cause : RunCause}
    (h : LoopState.ofHeader ctx.toSite s.vars line header = .error cause) :
    (⟨a :: rest, s⟩ : Machine σ).step ctx =
      .failed (.run ⟨line, cause⟩) (s.note [trace ⟨line, .forLoop header⟩]) := by
  have hvars :
      LoopState.ofHeader ctx.toSite (s.note [trace ⟨line, .forLoop header⟩]).vars line header =
        .error cause := h
  simp only [step, hstatement, Activation.act, hlink, Exec.run_bind, Exec.run_get, hvars,
    Exec.run_lift_error]

/-- A loop whose sequence can be made is started. -/
theorem step_of_openLoop
    (hstatement : a.program.statements[a.pc]? = some ⟨line, .forLoop header⟩)
    (hlink : a.program.link a.pc = .loop stop) {events : List Event}
    (h : LoopState.ofHeader ctx.toSite s.vars line header = .ok (state, events)) {pc : Nat}
    {frames : List Frame}
    {t : Session σ}
    (hopen : (a.openLoop line stop header.variableName state : Exec σ Action).run.run
      ((s.note [trace ⟨line, .forLoop header⟩]).note events) = (.ok (.jump pc frames), t)) :
    (⟨a :: rest, s⟩ : Machine σ).step ctx = .next ⟨{ a with pc, frames } :: rest, t⟩ := by
  have hvars : LoopState.ofHeader ctx.toSite (s.note [trace ⟨line, .forLoop header⟩]).vars line
    header =
    .ok (state, events) := h
  simp only [step, hstatement, Activation.act, hlink, Exec.run_bind, Exec.run_get, hvars,
    Exec.run_lift_ok, Exec.run_note, hopen]

/-- A loop walks over the values of its sequence. -/
theorem walksOver_items
    (hstatement : a.program.statements[a.pc]? = some ⟨line, .forLoop header⟩)
    (hlink : a.program.link a.pc = .loop stop) {events : List Event}
    (h : LoopState.ofHeader ctx.toSite s.vars line header = .ok (state, events)) :
    (⟨a :: rest, s⟩ : Machine σ).WalksOver ctx ⟨rest, a.frames, a.pc, stop,
      header.variableName⟩ state.items := by
  have hsequence := (LoopState.inRange_of_ofHeader h).next?
  cases hnext : state.next? with
  | none =>
    have hopen : ∀ t : Session σ, (a.openLoop line stop header.variableName state :
        Exec σ Action).run.run t =
        (.ok (.jump (stop + 1) a.frames),
            t.note [.debug s!"Loop on line {line} has no iterations."]) := by
      intro t
      simp only [Activation.openLoop, hnext, Exec.run_bind, Exec.run_note, Exec.run_pure]
    have hstep : (⟨a :: rest, s⟩ : Machine σ).step ctx = _ :=
      step_of_openLoop hstatement hlink h (hopen _)
    rw [hnext] at hsequence
    rw [hsequence]
    exact ⟨_, _, hstep, rfl, rfl, rfl, rfl⟩
  | some pair =>
    obtain ⟨item, after⟩ := pair
    have hopen : ∀ t : Session σ, (a.openLoop line stop header.variableName state :
        Exec σ Action).run.run t =
        (.ok (.jump (a.pc + 1) (.forBlock a.pc stop header.variableName after :: a.frames)),
          t.setVariable header.variableName item) := by
      intro t
      simp only [Activation.openLoop, hnext, Exec.run_bind, Exec.run_modify, Exec.run_pure,
        Activation.advance]
    have hstep : (⟨a :: rest, s⟩ : Machine σ).step ctx = _ :=
      step_of_openLoop hstatement hlink h (hopen _)
    rw [hnext] at hsequence
    obtain ⟨hafter, hitems⟩ := hsequence
    rw [hitems]
    refine ⟨_, after, hstep, ⟨_, List.suffix_refl _, List.suffix_refl _⟩, rfl,
      fun steps hstays => ?_⟩
    exact hstays.exists_rounds ⟨_, List.suffix_refl _, List.suffix_refl _⟩ hafter

end Start

end Machine

end InstallScript
