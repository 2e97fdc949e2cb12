import InstallScript.Proofs.Machine.Relocation

/-!
One program behind another. Statements that can be loaded on their own can be loaded behind each
other, and running all of them is running the first ones and then, unless these return early or
fail, the others.
-/

namespace InstallScript

open Script

theorem Exec.run_map {σ α β : Type} (f : α → β) (x : Exec σ α) (s : Session σ) :
    (f <$> x).run.run s = match x.run.run s with
      | (.ok a, t) => (.ok (f a), t)
      | (.error failure, t) => (.error failure, t) := by
  rw [map_eq_pure_bind, run_bind]
  rfl

/-- Whether two runs stand the same: they ended or failed alike, or neither has ended and both are
    in one state. -/
inductive Outcome.Agrees {σ : Type} : Outcome σ → Outcome σ → Prop where
  | ended (completion : Completion) (session : Session σ) :
      Agrees (.ended completion session) (.ended completion session)
  | failed (failure : Failure) (session : Session σ) :
    Agrees (.failed failure session) (.failed failure session)
  | unfinished {m n : Machine σ} : m.session = n.session → Agrees (.unfinished m) (.unfinished n)

theorem Outcome.Agrees.refl {σ : Type} (outcome : Outcome σ) : outcome.Agrees outcome := by
  cases outcome with
  | ended completion session => exact .ended completion session
  | failed failure session => exact .failed failure session
  | unfinished m => exact .unfinished rfl

/-- Whether a run stopped before the end of its program. -/
inductive Outcome.Stopped {σ : Type} : Outcome σ → Prop where
  | returned (session : Session σ) : Stopped (.ended .returned session)
  | failed (failure : Failure) (session : Session σ) : Stopped (.failed failure session)

namespace Machine

variable {σ : Type} (ctx : Context σ)

/-- Whether a run of `p` is where a run of `q` is, which is found in `p` from index `k` on. What
    runs inside of the two is the same. -/
inductive Follows (p q : Program) (k : Nat) (cells : List Cell) :
    Machine σ → Machine σ → Prop where
  | intro (above : List Activation) (a : Activation) (session : Session σ) : a.program = q →
      a.Nested cells →
      Follows p q k cells ⟨above ++ [a.relocate p k], session⟩ ⟨above ++ [a], session⟩

/-- The run of a program that has come to index `pc` with no block open. -/
def resume (p : Program) (pc : Nat) (session : Session σ) : Machine σ :=
  ⟨[⟨p, pc, []⟩], session⟩

variable {p q : Program} {k : Nat} {b : Block} {m n : Machine σ}

theorem Follows.session_eq {cells : List Cell} (h : Follows p q k cells m n) :
    m.session = n.session := by
  cases h
  rfl

/-- While the one program has not come to its end, both runs take the same step. -/
theorem Follows.step (h : Follows p q k (b.layout [] 0) m n) (hlaid : q.LaidOut (b.layout [] 0))
    (hshape : ∀ (j : Nat) (s : Statement), q.statements[j]? = some s → s.command.WellShaped)
    (hp : q.Embeds p k) :
    (∃ session, m = resume p (q.size + k) session ∧ n = resume q q.size session) ∨
      match n.step ctx with
      | .next next => ∃ next', m.step ctx = .next next' ∧
        Follows p q k (b.layout [] 0) next' next
      | .ended .finished _ => False
      | .ended .returned session => m.step ctx = .ended .returned session
      | .failed failure session => m.step ctx = .failed failure session := by
  obtain ⟨above, a, session, rfl, hnested⟩ := h
  cases above with
  | nil =>
    cases hs : a.program.statements[a.pc]? with
    | none =>
      left
      rcases hnested.arrives with ⟨hpath, hend⟩ | ⟨c, hc, -⟩
      · have hframes : a.frames = [] := List.map_eq_nil_iff.mp hpath
        refine ⟨session, ?_, ?_⟩
        · simp [resume, Activation.relocate, hframes, hend, hlaid.size_eq]
        · obtain ⟨program, pc, frames⟩ := a
          cases hframes
          simp_all [resume, hlaid.size_eq]
      · rw [hlaid.statement_eq hc] at hs
        cases hs
    | some s =>
      right
      obtain ⟨c, hat, rfl⟩ := hnested.exists_at hlaid hs
      have hkeeps := (hat.yields_act ctx (hshape a.pc _ hs) 0).of_run
        (session.note [trace c.statement]) trivial
      have hplaced : p.statements[a.pc + k]? = some c.statement :=
        (hp.statement a.pc (Array.getElem?_eq_some_iff.mp hs).1).trans hs
      simp only [List.nil_append, Machine.step, hs, Activation.program_relocate,
        Activation.pc_relocate, hplaced, List.length_nil, hat.act_relocate hp, Exec.run_map]
      generalize (a.act ctx 0 c.statement).run.run (session.note [trace c.statement]) =
        result at hkeeps
      obtain ⟨failure | action, t⟩ := result
      · rfl
      · cases action with
        | leave => rfl
        | jump pc frames => exact ⟨_, rfl, .intro [] ⟨a.program, pc, frames⟩ t rfl hkeeps⟩
        | enter program =>
          refine ⟨_, rfl, ?_⟩
          have hfollows : Follows p a.program k (b.layout [] 0) _ _ :=
            .intro [.start program] ⟨a.program, a.pc + 1, a.frames⟩ t rfl hkeeps.2
          simpa only [Activation.relocate, Nat.add_right_comm, List.cons_append,
            List.nil_append] using hfollows
  | cons first rest =>
    right
    have hdepth : (rest ++ [a.relocate p k]).length = (rest ++ [a]).length := by simp
    cases hs : first.program.statements[first.pc]? with
    | none =>
      simp only [List.cons_append, Machine.step, hs]
      exact ⟨_, rfl, .intro rest a session rfl hnested⟩
    | some s =>
      simp only [List.cons_append, Machine.step, hs, hdepth]
      generalize (first.act ctx (rest ++ [a]).length s).run.run (session.note [trace s]) = result
      obtain ⟨failure | action, t⟩ := result
      · rfl
      · cases action with
        | leave => rfl
        | jump pc frames =>
          exact ⟨_, rfl, .intro ({ first with pc, frames } :: rest) a t rfl hnested⟩
        | enter program =>
          exact ⟨_, rfl,
            .intro (.start program :: { first with pc := first.pc + 1 } :: rest) a t rfl hnested⟩

/-- The runs are at the end of the one program, or take a step together, or stop together. -/
theorem Follows.step_cases (h : Follows p q k (b.layout [] 0) m n)
    (hlaid : q.LaidOut (b.layout [] 0))
    (hshape : ∀ (j : Nat) (s : Statement), q.statements[j]? = some s → s.command.WellShaped)
    (hp : q.Embeds p k) :
    (∃ session, m = resume p (q.size + k) session ∧ n = resume q q.size session) ∨
      (∃ m' n', m.step ctx = .next m' ∧ n.step ctx = .next n' ∧
        Follows p q k (b.layout [] 0) m' n') ∨
      ∃ outcome, outcome.Stopped ∧ ∀ steps, m.run ctx (steps + 1) = outcome ∧
        n.run ctx (steps + 1) = outcome := by
  rcases h.step ctx hlaid hshape hp with hend | hstep
  · exact .inl hend
  · right
    cases hn : n.step ctx with
    | next n' =>
      simp only [hn] at hstep
      obtain ⟨m', hm, hnext⟩ := hstep
      exact .inl ⟨m', n', hm, rfl, hnext⟩
    | failed failure session =>
      simp only [hn] at hstep
      exact .inr ⟨_, .failed failure session,
        fun steps => by simp only [Machine.run, hn, hstep, and_self]⟩
    | ended completion session =>
      simp only [hn] at hstep
      cases completion with
      | finished => exact hstep.elim
      | returned =>
        exact .inr ⟨_, .returned session,
          fun steps => by simp only [Machine.run, hn, hstep, and_self]⟩

theorem run_of_next {next : Machine σ} (h : m.step ctx = .next next) (steps : Nat) :
    m.run ctx (steps + 1) = next.run ctx steps := by
  simp only [run, h]

theorem step_resume {pc : Nat} (hend : p.statements[pc]? = none) (session : Session σ) :
    (resume p pc session).step ctx = .next ⟨[], session⟩ := by
  simp only [resume, Machine.step, hend]

/-- A run of the one program up to its end, and the run of the other one that follows it. -/
theorem Follows.run (h : Follows p q k (b.layout [] 0) m n) (hlaid : q.LaidOut (b.layout [] 0))
    (hshape : ∀ (j : Nat) (s : Statement), q.statements[j]? = some s → s.command.WellShaped)
    (hp : q.Embeds p k) (steps : Nat) : match n.run ctx steps with
      | .ended .finished session => ∃ first, first ≤ steps ∧
        ∀ j, m.run ctx (first + j) = (resume p (q.size + k) session).run ctx j
      | .ended .returned session => m.run ctx steps = .ended .returned session
      | .failed failure session => m.run ctx steps = .failed failure session
      | .unfinished last => ∃ first, first ≤ steps ∧ steps ≤ first + 1 ∧
        ∃ next, m.run ctx first = .unfinished next ∧ next.session = last.session := by
  induction steps generalizing m n with
  | zero => exact ⟨0, Nat.le_refl 0, Nat.zero_le 1, m, rfl, h.session_eq⟩
  | succ steps ih =>
    rcases h.step_cases ctx hlaid hshape hp with
      ⟨session, rfl, rfl⟩ | ⟨m', n', hm, hn, hnext⟩ | ⟨outcome, hstopped, hruns⟩
    · have hend : q.statements[q.size]? = none := Array.getElem?_eq_none (Nat.le_refl _)
      rw [run_of_next ctx (step_resume ctx hend session)]
      cases steps with
      | zero => exact ⟨0, Nat.zero_le 1, Nat.le_refl 1, _, rfl, rfl⟩
      | succ steps =>
        refine ⟨0, Nat.zero_le _, fun j => ?_⟩
        rw [Nat.zero_add]
    · have hrest := ih hnext
      rw [run_of_next ctx hn]
      generalize n'.run ctx steps = outcome at hrest
      cases outcome with
      | ended completion session =>
        cases completion with
        | finished =>
          obtain ⟨first, hfirst, hthen⟩ := hrest
          refine ⟨first + 1, by omega, fun j => ?_⟩
          rw [Nat.add_right_comm, run_of_next ctx hm, hthen]
        | returned => exact (run_of_next ctx hm steps).trans hrest
      | failed failure session => exact (run_of_next ctx hm steps).trans hrest
      | unfinished last =>
        obtain ⟨first, hle, hge, reached, hreached, hsession⟩ := hrest
        exact ⟨first + 1, by omega, by omega, reached, (run_of_next ctx hm first).trans hreached,
          hsession⟩
    · obtain ⟨hm, hn⟩ := hruns steps
      rw [hn]
      cases hstopped with
      | returned session => exact hm
      | failed failure session => exact hm

/-- Where the other program ends with the one, their runs stand the same after any number of
    steps. -/
theorem Follows.agrees (h : Follows p q k (b.layout [] 0) m n) (hlaid : q.LaidOut (b.layout [] 0))
    (hshape : ∀ (j : Nat) (s : Statement), q.statements[j]? = some s → s.command.WellShaped)
    (hp : q.Embeds p k) (hsize : p.size = q.size + k) (steps : Nat) :
    (m.run ctx steps).Agrees (n.run ctx steps) := by
  induction steps generalizing m n with
  | zero => exact .unfinished h.session_eq
  | succ steps ih =>
    rcases h.step_cases ctx hlaid hshape hp with ⟨session, rfl, rfl⟩ | ⟨m', n', hm, hn,
      hnext⟩ | ⟨outcome, -, hruns⟩
    · have hend : q.statements[q.size]? = none := Array.getElem?_eq_none (Nat.le_refl _)
      have hend' : p.statements[q.size + k]? = none := Array.getElem?_eq_none (Nat.le_of_eq hsize)
      rw [run_of_next ctx (step_resume ctx hend session),
        run_of_next ctx (step_resume ctx hend' session)]
      exact .refl _
    · rw [run_of_next ctx hm, run_of_next ctx hn]
      exact ih hnext
    · obtain ⟨hm, hn⟩ := hruns steps
      rw [hm, hn]
      exact .refl _

/-- A program at its start follows itself. -/
theorem follows_start (b : Block) (p q : Program) (k : Nat) (session : Session σ) :
    Follows p q k (b.layout [] 0) (resume p k session) (start q session) := by
  have hnested : Activation.Nested (.start q) (b.layout [] 0) :=
    ⟨b.arrives_layout, by simp [Activation.start]⟩
  have hfollows : Follows p q k (b.layout [] 0) _ _ := .intro [] (.start q) session rfl hnested
  simpa [Activation.relocate, Activation.start, resume, start] using hfollows

end Machine

theorem Script.Program.LaidOut.wellShaped {q : Program} {b : Block} (h : q.LaidOut (b.layout [] 0))
    (hparsed : ∀ s ∈ b.statements, ∃ line : Line, line.parse = .ok s) (j : Nat)
    (s : Statement) (hs : q.statements[j]? = some s) : s.command.WellShaped := by
  obtain ⟨c, hc, rfl⟩ := h.exists_cell hs
  have hmem : c.statement ∈ b.statements := by
    rw [← b.map_statement_layout [] 0]
    exact List.mem_map_of_mem (List.mem_of_getElem? hc)
  obtain ⟨line, hline⟩ := hparsed _ hmem
  exact Line.wellShaped_parse hline

/-- Statements that can be loaded can be loaded behind others, if no label is declared by both. Each
    of the two programs is found in the one program that they make. -/
theorem Script.Program.exists_embeds_append {A B : List Statement}
    (hparsed : ∀ s ∈ A ++ B, ∃ line : Line, line.parse = .ok s) {first second : Program}
    (hA : Program.ofStatements A = .ok first) (hB : Program.ofStatements B = .ok second)
    (hlabels : ∀ name ∈ labelNames A, name ∉ labelNames B) :
    ∃ a b : Block, a.statements = A ∧ b.statements = B ∧
      ∃ p, Program.ofStatements (A ++ B) = .ok p ∧ first.LaidOut (a.layout [] 0) ∧
        second.LaidOut (b.layout [] 0) ∧
        first.Embeds p 0 ∧ second.Embeds p first.size ∧ p.size = second.size + first.size := by
  obtain ⟨hparsedA, hparsedB⟩ := List.forall_mem_append.mp hparsed
  obtain ⟨a, rfl⟩ := Program.exists_block_of_ofStatements hparsedA hA
  obtain ⟨b, rfl⟩ := Program.exists_block_of_ofStatements hparsedB hB
  have hfirst := a.laidOut hA
  have hsecond := b.laidOut hB
  have hload := (a.exists_ofStatements_iff.mp ⟨first, hA⟩).append
    (b.exists_ofStatements_iff.mp ⟨second, hB⟩) hlabels
  obtain ⟨p, hp⟩ := (a.append b).exists_ofStatements_iff.mpr hload
  have hlaid := (a.append b).laidOut hp
  have hsize : first.size = a.size := by rw [hfirst.size_eq, Block.length_layout]
  have hleft : ∀ j c, (a.layout [] 0)[j]? = some c →
      ((a.append b).layout [] 0)[j + 0]? = some (c.shift 0) := by
    intro j c hc
    have hlt := (List.getElem?_eq_some_iff.mp hc).1
    rw [Nat.add_zero, Cell.shift_zero, Block.layout_append_shift, List.getElem?_append_left hlt, hc]
  have hright : ∀ j c, (b.layout [] 0)[j]? = some c →
      ((a.append b).layout [] 0)[j + a.size]? = some (c.shift a.size) := by
    intro j c hc
    rw [Block.layout_append_shift, List.getElem?_append_right (by simp), Block.length_layout,
      Nat.add_sub_cancel, List.getElem?_map, hc]
    rfl
  refine ⟨a, b, rfl, rfl, p, Block.statements_append a b ▸ hp, hfirst, hsecond, ?_, ?_, ?_⟩
  · exact embeds_of_layout hfirst hlaid hload.labels hleft
  · rw [hsize]
    exact embeds_of_layout hsecond hlaid hload.labels hright
  · rw [hlaid.size_eq, hsecond.size_eq, hsize, Block.layout_append_shift]
    simp [Nat.add_comm]

/-- Whether running `p` is running `first` and then, if that comes to its end, `second`. If `first`
    returns early or fails, so does `p`. As long as `first` runs on, `p` is in the same state,
    except that it takes no step of its own to find the end of `first`. -/
def Script.Program.Sequences (p first second : Program) : Prop :=
  ∀ (σ : Type) (ctx : Context σ) (session : Session σ) (steps : Nat),
    match session.execute ctx steps first with
    | .ended .finished last => ∃ k, k ≤ steps ∧
      ∀ j, (session.execute ctx (k + j) p).Agrees (last.execute ctx j second)
    | .ended .returned last => session.execute ctx steps p = .ended .returned last
    | .failed failure last => session.execute ctx steps p = .failed failure last
    | .unfinished m => ∃ k, k ≤ steps ∧ steps ≤ k + 1 ∧
      ∃ n, session.execute ctx k p = .unfinished n ∧ n.session = m.session

/-- Statements that can be loaded on their own and declare different labels can be loaded behind
    each other, and running them all is running the ones and then the others. -/
theorem Script.Program.exists_sequences_append {A B : List Statement}
    (hparsed : ∀ s ∈ A ++ B, ∃ line : Line, line.parse = .ok s) {first second : Program}
    (hA : Program.ofStatements A = .ok first) (hB : Program.ofStatements B = .ok second)
    (hlabels : ∀ name ∈ labelNames A, name ∉ labelNames B) :
    ∃ p, Program.ofStatements (A ++ B) = .ok p ∧ p.Sequences first second := by
  obtain ⟨a, b, ha, hb, p, hp, hfirst, hsecond, hleft, hright, hsize⟩ :=
    Program.exists_embeds_append hparsed hA hB hlabels
  obtain ⟨hparsedA, hparsedB⟩ := List.forall_mem_append.mp hparsed
  have hshapeA := hfirst.wellShaped (ha ▸ hparsedA)
  have hshapeB := hsecond.wellShaped (hb ▸ hparsedB)
  refine ⟨p, hp, fun σ ctx session steps => ?_⟩
  have hrun := (Machine.follows_start a p first 0 session).run ctx hfirst hshapeA hleft steps
  simp only [Session.execute]
  generalize (Machine.start first session).run ctx steps = outcome at hrun
  cases outcome with
  | ended completion last =>
    cases completion with
    | finished =>
      obtain ⟨k, hk, hthen⟩ := hrun
      refine ⟨k, hk, fun j => ?_⟩
      have hagrees := (Machine.follows_start b p second first.size last).agrees ctx hsecond
        hshapeB hright hsize j
      change ((Machine.resume p 0 session).run ctx (k + j)).Agrees _
      rw [hthen j]
      exact hagrees
    | returned => exact hrun
  | failed failure last => exact hrun
  | unfinished m => exact hrun

/-- Two programs with a jump each, the second of which is moved up behind the first. -/
theorem Script.Program.exists_sequences_of_jumps :
    let A : List Statement :=
      [⟨1, .ifTest false .equal ["x", "y"]⟩, ⟨2, .goto "a"⟩, ⟨3, .endIf⟩, ⟨4, .label "a"⟩]
    let B : List Statement :=
      [⟨1, .forLoop (.count "i" "1" "2" none)⟩, ⟨2, .goto "b"⟩, ⟨3, .endFor⟩,
      ⟨4, .label "b"⟩]
    ∃ first second, (∀ s ∈ A ++ B, ∃ line : Line, line.parse = .ok s) ∧
      Program.ofStatements A = .ok first ∧ Program.ofStatements B = .ok second ∧
      (∀ name ∈ labelNames A, name ∉ labelNames B) ∧
      ∃ p, Program.ofStatements (A ++ B) = .ok p ∧ p.Sequences first second := by
  intro A B
  have hparsed : ∀ s ∈ A ++ B, ∃ line : Line, line.parse = .ok s := by
    simp only [A, B, List.cons_append, List.nil_append, List.forall_mem_cons]
    exact ⟨⟨⟨1, "If Equal x y"⟩, rfl⟩, ⟨⟨2, "Goto a"⟩, rfl⟩,
      ⟨⟨3, "EndIf"⟩, rfl⟩, ⟨⟨4, "Label a"⟩, rfl⟩,
      ⟨⟨1, "For Count i 1 2"⟩, rfl⟩, ⟨⟨2, "Goto b"⟩, rfl⟩,
        ⟨⟨3, "EndFor"⟩, rfl⟩, ⟨⟨4, "Label b"⟩, rfl⟩, by simp⟩
  have hlabels : ∀ name ∈ labelNames A, name ∉ labelNames B := by decide
  exact ⟨_, _, hparsed, rfl, rfl, hlabels,
    Program.exists_sequences_append hparsed rfl rfl hlabels⟩

end InstallScript
