import InstallScript.Proofs.Machine.Progress
import InstallScript.Proofs.Structured.Landing
import Mathlib.Data.DFinsupp.WellFounded
import Mathlib.Data.ENat.Basic

/-!
Runs that end. A program without `ExecLines` in which every jump leads on ends, whatever the host
answers and whatever its loops do to their variables. What decreases is given for each statement,
the first one most significant: the rounds that are left where a loop is open, nothing for the other
statements that lie behind, and no bound for those that lie ahead.
-/

namespace InstallScript

open Script

/-- Functions are ordered by the first argument at which they differ. -/
theorem toLex_lt_of_le {n : Nat} {α : Type} [PartialOrder α] {f g : Fin n → α} {k : Fin n}
    (hle : ∀ i < k, f i ≤ g i) (hlt : f k < g k) : toLex f < toLex g := by
  obtain ⟨i, hi, hmin⟩ :=
    WellFounded.has_min wellFounded_lt {i : Fin n | f i < g i} ⟨k, hlt⟩
  have hik : i ≤ k := not_lt.mp (hmin k hlt)
  refine ⟨i, fun j hj => ?_, hi⟩
  by_contra hne
  exact hmin j (lt_of_le_of_ne (hle j (lt_of_lt_of_le hj hik)) hne) hj

namespace Frame

/-- Whether inner loops start after the loops around them. -/
def Sorted (frames : List Frame) : Prop :=
  (loops frames).Pairwise fun inner outer => outer.1 < inner.1

/-- What is left of the statement at index `i` when a program has come to `pc`. -/
def remaining (pc : Nat) (frames : List Frame) (i : Nat) : ℕ∞ :=
  match (loops frames).find? (·.1 == i) with
  | some (_, state) => (state.items.length : ℕ∞)
  | none => if i < pc then 0 else ⊤

variable {all : List Cell} {frames next : List Frame} {pc pc' i j : Nat}

theorem sorted_loops (h : Surrounds all (path frames) j) :
    Sorted frames ∧ ∀ l ∈ loops frames, l.1 < j := by
  induction frames generalizing j with
  | nil => exact ⟨.nil, by simp [loops]⟩
  | cons f rest ih =>
    obtain ⟨hlt, -, hrest⟩ := h
    obtain ⟨hsorted, hstarts⟩ := ih hrest
    cases f with
    | forBlock start stop variableName state =>
      refine ⟨List.pairwise_cons.mpr ⟨hstarts, hsorted⟩, fun l hl => ?_⟩
      rcases List.mem_cons.mp hl with rfl | hl
      · exact hlt
      · exact (hstarts l hl).trans hlt
    | ifBlock | selectBlock | caseBlock => exact ⟨hsorted, fun l hl => (hstarts l hl).trans hlt⟩

/-- What is left of a loop that is open is its rounds. -/
theorem remaining_of_mem (h : Sorted frames) {state : LoopState}
    (hmem : (i, state) ∈ loops frames) :
    remaining pc frames i = (state.items.length : ℕ∞) := by
  have hfind : (loops frames).find? (·.1 == i) = some (i, state) := by
    obtain ⟨inner, outer, hsplit⟩ := List.append_of_mem hmem
    have hinner : ∀ l ∈ inner, (l.1 == i) = false := by
      intro l hl
      unfold Sorted at h
      rw [hsplit] at h
      have hlt : i < l.1 := (List.pairwise_append.mp h).2.2 l hl (i, state) List.mem_cons_self
      exact beq_eq_false_iff_ne.mpr hlt.ne'
    rw [hsplit, List.find?_append, List.find?_eq_none.mpr fun l hl => by simp [hinner l hl]]
    simp
  unfold remaining
  rw [hfind]

theorem remaining_of_not_mem (h : ∀ l ∈ loops frames, l.1 ≠ i) :
    remaining pc frames i = if i < pc then 0 else ⊤ := by
  have hfind : (loops frames).find? (·.1 == i) = none :=
    List.find?_eq_none.mpr fun l hl => by simpa using h l hl
  unfold remaining
  rw [hfind]

/-- Where no loop is opened and nothing lies ahead any more, no more is left than before. -/
theorem remaining_le (h : Sorted frames) (hi : i < pc')
    (hloops : ∀ l ∈ loops next, l.1 = i → l ∈ loops frames) :
    remaining pc' next i ≤ remaining pc frames i := by
  cases hfind : (loops next).find? (·.1 == i) with
  | none =>
    have hzero : remaining pc' next i = 0 := by
      unfold remaining
      rw [hfind]
      exact if_pos hi
    rw [hzero]
    exact zero_le
  | some l =>
    obtain ⟨start, state⟩ := l
    obtain rfl : start = i := by simpa using List.find?_some hfind
    have hmem := hloops _ (List.mem_of_find?_eq_some hfind) rfl
    rw [remaining_of_mem h hmem]
    unfold remaining
    rw [hfind]

end Frame

namespace Activation

variable {a : Activation} {cells : List Cell} {c : Cell}

theorem At.sorted_loops (h : a.At cells c) : Frame.Sorted a.frames ∧
    ∀ l ∈ Frame.loops a.frames, l.1 < a.pc := by
  rcases h.frames with hpath | ⟨-, start, hpath⟩
  · exact Frame.sorted_loops (hpath ▸ h.surrounds)
  · -- The case that is still open is no loop; the blocks around it are those of the statement.
    obtain ⟨rest, hframes, hrest⟩ := Frame.of_path_arm hpath
    have hloops := Frame.sorted_loops (hrest ▸ h.surrounds)
    rw [hframes]
    exact hloops

/-- Whether the sequences of all open loops stay within the range of numbers. -/
def InRange (a : Activation) : Prop :=
  ∀ l ∈ Frame.loops a.frames, l.2.InRange

theorem Moves.inRange {pc : Nat} {frames : List Frame} (h : a.Moves (.jump pc frames))
    (hrange : a.InRange) :
    InRange ⟨a.program, pc, frames⟩ := by
  cases h with
  | onward _ hloops => exact fun l hl => hrange l (hloops.subset hl)
  | loop hstate => exact List.forall_mem_cons.mpr ⟨hstate, hrange⟩
  | @round before rest start stop variableName item state next hframes hnext =>
    have hsuffix := Frame.loops_suffix_of_append hframes
    have hstate := (hrange (start, state) (hsuffix.subset List.mem_cons_self)).next?
    rw [hnext] at hstate
    refine List.forall_mem_cons.mpr ⟨hstate.1, fun l hl => ?_⟩
    exact hrange l (hsuffix.subset (List.mem_cons_of_mem _ hl))

/-- What is left of the statements of a program, the first one most significant. -/
def remaining (n : Nat) (pc : Nat) (frames : List Frame) : Lex (Fin n → ℕ∞) :=
  toLex fun i => Frame.remaining pc frames i

/-- However a statement moves a program, less is left of its statements. -/
theorem At.remaining_lt (h : a.At cells c) (hrange : a.InRange) {pc : Nat} {frames : List Frame}
    (hmoves : a.Moves (.jump pc frames)) {n : Nat} (hn : a.pc < n) :
    remaining n pc frames < remaining n a.pc a.frames := by
  obtain ⟨hsorted, hstarts⟩ := h.sorted_loops
  have hahead : Frame.remaining a.pc a.frames a.pc = ⊤ := by
    rw [Frame.remaining_of_not_mem fun l hl => (hstarts l hl).ne, if_neg (Nat.lt_irrefl _)]
  cases hmoves with
  | onward hpc hloops =>
    have hbehind : Frame.remaining pc frames a.pc = 0 := by
      rw [Frame.remaining_of_not_mem fun l hl => (hstarts l (hloops.subset hl)).ne, if_pos hpc]
    refine toLex_lt_of_le (k := ⟨a.pc, hn⟩) (fun i hi => ?_) ?_
    · exact Frame.remaining_le hsorted (lt_trans hi hpc) fun l hl _ => hloops.subset hl
    · dsimp only
      rw [hbehind, hahead]
      exact ENat.natCast_lt_top 0
  | @loop stop variableName state hstate =>
    have hopened : Frame.Sorted (.forBlock a.pc stop variableName state :: a.frames) :=
      List.pairwise_cons.mpr ⟨hstarts, hsorted⟩
    refine toLex_lt_of_le (k := ⟨a.pc, hn⟩) (fun i hi => ?_) ?_
    · refine Frame.remaining_le hsorted (Nat.lt_succ_of_lt hi) fun l hl hstart => ?_
      rcases List.mem_cons.mp hl with rfl | hl
      · exact absurd hstart (Nat.ne_of_gt hi)
      · exact hl
    · dsimp only
      rw [hahead, Frame.remaining_of_mem hopened List.mem_cons_self]
      exact ENat.natCast_lt_top _
  | @round before rest start stop variableName item state next hframes hnext =>
    have hsuffix := Frame.loops_suffix_of_append hframes
    have hmem : (start, state) ∈ Frame.loops a.frames := hsuffix.subset List.mem_cons_self
    have hinner : Frame.Sorted (.forBlock start stop variableName state :: rest) :=
      hsorted.sublist hsuffix.sublist
    have hopened : Frame.Sorted (.forBlock start stop variableName next :: rest) :=
      List.pairwise_cons.mpr (List.pairwise_cons.mp hinner)
    have hitems := (hrange _ hmem).next?
    rw [hnext] at hitems
    refine toLex_lt_of_le (k := ⟨start, (hstarts _ hmem).trans hn⟩) (fun i hi => ?_) ?_
    · refine Frame.remaining_le hsorted (Nat.lt_succ_of_lt hi) fun l hl hstart => ?_
      rcases List.mem_cons.mp hl with rfl | hl
      · exact absurd hstart (Nat.ne_of_gt hi)
      · exact hsuffix.subset (List.mem_cons_of_mem _ hl)
    · dsimp only
      rw [Frame.remaining_of_mem hsorted hmem, Frame.remaining_of_mem hopened List.mem_cons_self,
        hitems.2]
      exact Nat.cast_lt.mpr (Nat.lt_succ_self _)

end Activation

namespace Machine

variable {σ : Type}

theorem ends_of_end {p : Program} {pc : Nat} (hend : p.statements[pc]? = none) (ctx : Context σ)
    (frames : List Frame) (session : Session σ) :
    (single p pc frames session).Ends ctx (.ended .finished session) := by
  refine ⟨2, fun n => ?_⟩
  simp only [run, step, single, hend]

/-- From wherever a program is that only leads on, its run comes to an end. -/
theorem exists_ends {p : Program} {b : Block} (hlaid : p.LaidOut (b.layout [] 0))
    (hshape : ∀ (j : Nat) (s : Statement), p.statements[j]? = some s → s.command.WellShaped)
    (hexec : ∀ s ∈ p.statements, ∀ args, s.command ≠ .instruction .execLines args)
    (hgoto : ∀ j target, p.link j = .goto target → j < target) (ctx : Context σ) {pc : Nat}
    {frames : List Frame} (hnested : Activation.Nested ⟨p, pc, frames⟩ (b.layout [] 0))
    (hrange : Activation.InRange ⟨p, pc, frames⟩) (session : Session σ) :
    ∃ outcome, ((∃ completion t, outcome = .ended completion t) ∨
      ∃ failure t, outcome = .failed failure t) ∧
        (single p pc frames session).Ends ctx outcome := by
  induction hleft : Activation.remaining p.size pc frames using WellFoundedLT.induction
    generalizing pc frames session with
  | ind left ih =>
    subst hleft
    cases hs : p.statements[pc]? with
    | none => exact ⟨_, .inl ⟨_, _, rfl⟩, ends_of_end hs ctx frames session⟩
    | some s =>
      obtain ⟨c, hat, rfl⟩ := hnested.exists_at hlaid hs
      have hpc : pc < p.size := (Array.getElem?_eq_some_iff.mp hs).1
      have hkeeps := (hat.yields_act ctx (hshape pc _ hs) 0).of_run
        (session.note [trace c.statement]) trivial
      have hmoves :=
        (hat.gives_act (b.ahead_layout hat.cell) (hgoto pc) (hexec _ (Array.mem_of_getElem? hs)) ctx
        0).of_run (session.note [trace c.statement]) trivial
      generalize hrun : (Activation.act ⟨p, pc, frames⟩ ctx 0 c.statement).run.run
        (session.note [trace c.statement]) = result at hkeeps hmoves
      obtain ⟨failure | action, t⟩ := result
      · exact ⟨_, .inr ⟨failure, t, rfl⟩, ends_failed hs hrun⟩
      · cases action with
        | leave => exact ⟨_, .inl ⟨.returned, t, rfl⟩, ends_leave hs hrun⟩
        | enter program => cases hmoves
        | jump next opened =>
          have hless := hat.remaining_lt hrange hmoves hpc
          obtain ⟨outcome, hend, hends⟩ := ih _ hless hkeeps (hmoves.inRange hrange) t rfl
          exact ⟨outcome, hend, (reaches_jump hs hrun).ends hends⟩

end Machine

/-- A loaded program without `ExecLines` whose jumps all lead to later statements ends, whatever the
    host, the settings, the files and the variables are. -/
theorem Session.exists_execute_of_jumps_ahead {text : String} {program : Program}
    (hparse : Program.parse text = .ok program)
    (hexec : ∀ s ∈ program.statements, ∀ args, s.command ≠ .instruction .execLines args)
    (hgoto : ∀ j target, program.link j = .goto target → j < target)
    {σ : Type} (ctx : Context σ) (session : Session σ) :
    ∃ steps outcome, ((∃ completion t, outcome = .ended completion t) ∨
      ∃ failure t, outcome = .failed failure t) ∧
      ∀ n, steps ≤ n → session.execute ctx n program = outcome := by
  obtain ⟨b, hb⟩ := Program.exists_block_of_parse hparse
  have hlaid := Program.laidOut_of_parse hparse hb
  have hnested : Activation.Nested (.start program) (b.layout [] 0) :=
    ⟨b.arrives_layout, by simp [Activation.start]⟩
  have hrange : Activation.InRange (.start program) := by
    rintro l ⟨⟩
  obtain ⟨outcome, hend, steps, hsteps⟩ := Machine.exists_ends hlaid
    (fun _ _ hs => Program.wellShaped_of_parse hparse hs) hexec hgoto ctx hnested hrange session
  refine ⟨steps, outcome, hend, fun n hn => ?_⟩
  obtain ⟨extra, rfl⟩ := Nat.exists_eq_add_of_le' hn
  exact hsteps extra

/-- A jump that leaves two loops at once. -/
theorem Session.exists_execute_of_leaving_loops :
    ∃ program,
      Program.parse "For Count i 1 9\nFor Count j 1 3\nGoto a\nEndFor\nEndFor\nLabel a" =
        .ok program ∧
      (∀ s ∈ program.statements, ∀ args, s.command ≠ .instruction .execLines args) ∧
      (∀ j target, program.link j = .goto target → j < target) ∧
      ∀ (ctx : Context Prepared) (session : Session Prepared), ∃ steps outcome,
        ((∃ completion t, outcome = .ended completion t) ∨
          ∃ failure t, outcome = .failed failure t) ∧
          ∀ n, steps ≤ n → session.execute ctx n program = outcome := by
  let program : Program :=
    ⟨#[⟨1, .forLoop (.count "i" "1" "9" none)⟩, ⟨2, .forLoop (.count "j" "1" "3" none)⟩,
        ⟨3, .goto "a"⟩, ⟨4, .endFor⟩, ⟨5, .endFor⟩, ⟨6, .label "a"⟩],
      #[.loop 4, .loop 3, .goto 5, .loopControl 1, .loopControl 0, .none],
      #[none, some 0, some 1, some 1, some 0, none], [("a", 5)]⟩
  have hparse :
      Program.parse "For Count i 1 9\nFor Count j 1 3\nGoto a\nEndFor\nEndFor\nLabel a" =
        .ok program := rfl
  have hexec : ∀ s ∈ program.statements, ∀ args,
      s.command ≠ .instruction .execLines args := by
    simp [program]
  have hgoto : ∀ j target, program.link j = .goto target → j < target := by
    intro j target h
    match j with
    | 2 =>
      cases h
      decide
    | 0 | 1 | 3 | 4 | 5 | _ + 6 => cases h
  exact ⟨program, hparse, hexec, hgoto, fun ctx session =>
    Session.exists_execute_of_jumps_ahead hparse hexec hgoto ctx session⟩

end InstallScript
