import InstallScript.Proofs.Machine.Exec
import InstallScript.Proofs.Machine.Nesting
import InstallScript.Proofs.Structured.Semantics

/-!
Where a run comes to while it works on a block: behind the block if that ends normally, and
otherwise to the next round of a loop, behind a loop, or to what ends a case, with the blocks inside
it closed.
-/

namespace InstallScript

open Script

variable {σ : Type} (ctx : Context σ)

namespace Machine

/-- A run in which one program has not ended. -/
def single (p : Program) (pc : Nat) (frames : List Frame) (session : Session σ) : Machine σ :=
  ⟨[⟨p, pc, frames⟩], session⟩

/-- Whether a run comes to a state. -/
def Reaches (m target : Machine σ) : Prop :=
  ∃ k, ∀ n, m.run ctx (n + k) = target.run ctx n

/-- Whether a run comes to an end. -/
def Ends (m : Machine σ) (outcome : Outcome σ) : Prop :=
  ∃ k, ∀ n, m.run ctx (n + k) = outcome

variable {ctx}

theorem Reaches.refl (m : Machine σ) : m.Reaches ctx m :=
  ⟨0, fun _ => rfl⟩

theorem Reaches.trans {m m' target : Machine σ} (h : m.Reaches ctx m')
    (h' : m'.Reaches ctx target) :
    m.Reaches ctx target := by
  obtain ⟨k, hk⟩ := h
  obtain ⟨k', hk'⟩ := h'
  refine ⟨k' + k, fun n => ?_⟩
  rw [← Nat.add_assoc, hk, hk']

theorem Reaches.ends {m m' : Machine σ} {outcome : Outcome σ} (h : m.Reaches ctx m')
    (h' : m'.Ends ctx outcome) : m.Ends ctx outcome := by
  obtain ⟨k, hk⟩ := h
  obtain ⟨k', hk'⟩ := h'
  refine ⟨k' + k, fun n => ?_⟩
  rw [← Nat.add_assoc, hk, hk']

theorem reaches_of_step {m target : Machine σ} (h : m.step ctx = .next target) :
    m.Reaches ctx target :=
  ⟨1, fun n => by simp only [run, h]⟩

section Single

variable {p : Program} {i pc : Nat} {frames next : List Frame} {st : Statement} {s t : Session σ}
  (hst : p.statements[i]? = some st)

include hst

theorem reaches_jump
    (hact : ((⟨p, i, frames⟩ : Activation).act ctx 0 st).run.run (s.note [trace st]) =
      (.ok (.jump pc next), t)) :
    (single p i frames s).Reaches ctx (single p pc next t) := by
  refine reaches_of_step ?_
  simp only [step, single, hst, List.length_nil, hact]

theorem ends_leave
    (hact : ((⟨p, i, frames⟩ : Activation).act ctx 0 st).run.run (s.note [trace st]) =
      (.ok .leave, t)) :
    (single p i frames s).Ends ctx (.ended .returned t) := by
  refine ⟨1, fun n => ?_⟩
  simp only [run, step, single, hst, List.length_nil, hact]

theorem ends_failed {failure : Failure}
    (hact : ((⟨p, i, frames⟩ : Activation).act ctx 0 st).run.run (s.note [trace st]) =
      (.error failure, t)) :
    (single p i frames s).Ends ctx (.failed failure t) := by
  refine ⟨1, fun n => ?_⟩
  simp only [run, step, single, hst, List.length_nil, hact]

end Single

/-- A loop that goes on with its next round, or that is left. -/
def round (p : Program) (start stop : Nat) (variableName : String) (state : LoopState)
    (frames : List Frame) (session : Session σ) : Machine σ :=
  match state.next? with
  | some (item, state) => single p (start + 1) (.forBlock start stop variableName state :: frames)
    (session.setVariable variableName item)
  | none => single p (stop + 1) frames session

/-- A statement that starts the next round of a loop. -/
theorem reaches_round {p : Program} {i start stop : Nat} {frames rest : List Frame} {st : Statement}
    {variableName : String} {state : LoopState} (hst : p.statements[i]? = some st)
    (hact : (⟨p, i, frames⟩ : Activation).act ctx 0 st =
      Activation.nextRound ⟨p, i, frames⟩ st.line start)
    (hunwind : Frame.unwind .endFor start frames =
      .ok (.forBlock start stop variableName state :: rest))
    (s : Session σ) :
    (single p i frames s).Reaches ctx
      (round p start stop variableName state rest (s.note [trace st])) := by
  unfold round
  cases hn : state.next? with
  | none =>
    refine reaches_jump hst ?_
    simp only [hact, Activation.nextRound, hunwind, Exec.run_bind, Exec.run_lift_ok,
      hn, Exec.run_pure]
  | some pair =>
    refine reaches_jump hst ?_
    simp only [hact, Activation.nextRound, hunwind, Exec.run_bind, Exec.run_lift_ok, hn,
      Exec.run_modify, Exec.run_pure]

end Machine

/-- Whether a frame is that of a loop. -/
def Frame.isLoop : Frame → Bool
  | .forBlock .. => true
  | _ => false

/-- Whether a frame is that of an `If`. -/
def Frame.isBranch : Frame → Bool
  | .ifBlock _ => true
  | _ => false

/-- What is left of frames when those inside the innermost loop are closed. -/
theorem Frame.dropWhile_isLoop {before : List Frame} (h : ∀ e ∈ path before, e.kind ≠ .loop)
    (start stop : Nat) (variableName : String) (state : LoopState) (rest : List Frame) :
    (before ++ .forBlock start stop variableName state :: rest).dropWhile (!·.isLoop) =
      .forBlock start stop variableName state :: rest := by
  refine List.dropWhile_append_of_pos fun f hf => ?_
  have hkind := h f.enclosure (List.mem_map_of_mem hf)
  cases f with
  | forBlock => exact absurd rfl hkind
  | ifBlock | selectBlock | caseBlock => rfl

/-- What is left of frames when the `If` blocks inside the innermost case are closed. -/
theorem Frame.dropWhile_isBranch {before : List Frame} (h : ∀ e ∈ path before, e.kind = .branch)
    (start : Nat) (rest : List Frame) :
    (before ++ .caseBlock start :: rest).dropWhile Frame.isBranch = .caseBlock start :: rest := by
  refine List.dropWhile_append_of_pos fun f hf => ?_
  have hkind := h f.enclosure (List.mem_map_of_mem hf)
  cases f with
  | ifBlock => rfl
  | forBlock | selectBlock | caseBlock => cases hkind

/-- Where a run comes to when a block ends in some way. Behind the block the statement at `next`
    follows, and `frames` are open around it. -/
inductive Lands (p : Program) (frames : List Frame) (next : Nat) (m : Machine σ) :
    Except Failure Flow × Session σ → Prop where
  | failed {failure : Failure} {t : Session σ} (h : m.Ends ctx (.failed failure t)) :
    Lands p frames next m (.error failure, t)
  | returned {t : Session σ} (h : m.Ends ctx (.ended .returned t)) :
    Lands p frames next m (.ok .returned, t)
  | normal {t : Session σ} (h : m.Reaches ctx (.single p next frames t)) :
    Lands p frames next m (.ok .normal, t)
  | continueLoop {t : Session σ} {start stop : Nat} {variableName : String} {state : LoopState}
    {rest : List Frame}
    (hloop : frames.dropWhile (!·.isLoop) = .forBlock start stop variableName state :: rest)
    (h : m.Reaches ctx (.round p start stop variableName state rest t)) :
    Lands p frames next m (.ok .continueLoop, t)
  | exitLoop {t : Session σ} {start stop : Nat} {variableName : String} {state : LoopState}
    {rest : List Frame}
    (hloop : frames.dropWhile (!·.isLoop) = .forBlock start stop variableName state :: rest)
    (h : m.Reaches ctx (.single p (stop + 1) rest t)) : Lands p frames next m (.ok .exitLoop, t)
  | breakCase {t : Session σ} {start after select : Nat} {rest : List Frame}
    (harm : frames.dropWhile Frame.isBranch = .caseBlock start :: rest)
      (hlink : p.link start = .caseOf after select)
    (h : m.Reaches ctx (.single p after rest t)) : Lands p frames next m (.ok .breakCase, t)

namespace Exec

theorem run_trace_bind {α : Type} (st : Statement) (x : Exec σ α) (s : Session σ) :
    (trace st >>= fun _ => x).run.run s = x.run.run (s.note [Machine.trace st]) := by
  rw [run_bind]
  rfl

theorem run_andThen (x rest : Exec σ Flow) (s : Session σ) :
    (x.andThen rest).run.run s = match x.run.run s with
      | (.ok .normal, t) => rest.run.run t
      | result => result := by
  rw [andThen, run_bind]
  generalize x.run.run s = r
  obtain ⟨failure | flow, t⟩ := r
  · rfl
  · cases flow <;> rfl

/-- What follows a sequence follows its second part. -/
theorem bind_andThen {α : Type} (x : Exec σ α) (f : α → Exec σ Flow) (rest : Exec σ Flow) :
    (x >>= f).andThen rest = x >>= fun a => (f a).andThen rest := by
  simp only [andThen, bind_assoc]

end Exec

namespace Lands

variable {ctx} {p : Program} {frames : List Frame} {mid next : Nat} {m : Machine σ}

theorem of_reaches {m' : Machine σ} {r : Except Failure Flow × Session σ} (h : m.Reaches ctx m')
    (h' : Lands ctx p frames next m' r) : Lands ctx p frames next m r := by
  cases h' with
  | failed hend => exact failed (h.ends hend)
  | returned hend => exact returned (h.ends hend)
  | normal hreach => exact normal (h.trans hreach)
  | continueLoop hloop hreach => exact continueLoop hloop (h.trans hreach)
  | exitLoop hloop hreach => exact exitLoop hloop (h.trans hreach)
  | breakCase harm hlink hreach => exact breakCase harm hlink (h.trans hreach)

theorem of_eq {next' : Nat} {r : Except Failure Flow × Session σ}
    (h : Lands ctx p frames next m r) (hnext : next = next') : Lands ctx p frames next' m r :=
  hnext ▸ h

/-- A statement that goes where something that can fail tells it to, and what is meant to follow. -/
theorem of_act {α : Type} {x : Exec σ α} {k : α → Exec σ Flow} {action : α → Action}
    {i : Nat} {here : List Frame} {st : Statement} (hst : p.statements[i]? = some st)
    (hact : ∀ t, ((⟨p, i, here⟩ : Activation).act ctx 0 st).run.run t =
      (x >>= fun a => pure (action a)).run.run t)
    (hk : ∀ a, ∃ pc opened, action a = .jump pc opened ∧
      ∀ t, Lands ctx p frames next (.single p pc opened t) ((k a).run.run t)) (s : Session σ) :
    Lands ctx p frames next (.single p i here s)
      ((x >>= k).run.run (s.note [Machine.trace st])) := by
  have hrun := hact (s.note [Machine.trace st])
  rw [Exec.run_bind] at hrun ⊢
  generalize x.run.run (s.note [Machine.trace st]) = r at hrun
  obtain ⟨failure | a, t⟩ := r
  · exact failed (Machine.ends_failed hst hrun)
  · obtain ⟨pc, opened, haction, hlands⟩ := hk a
    dsimp only at hrun
    rw [haction] at hrun
    exact of_reaches (Machine.reaches_jump hst hrun) (hlands t)

/-- One block after the other. -/
theorem andThen {x rest : Exec σ Flow} {s : Session σ}
    (hx : Lands ctx p frames mid m (x.run.run s))
    (hrest : ∀ t, Lands ctx p frames next (.single p mid frames t) (rest.run.run t)) :
    Lands ctx p frames next m ((x.andThen rest).run.run s) := by
  rw [Exec.run_andThen]
  generalize x.run.run s = r at hx
  cases hx with
  | failed hend => exact failed hend
  | returned hend => exact returned hend
  | normal hreach => exact of_reaches hreach (hrest _)
  | continueLoop hloop hreach => exact continueLoop hloop hreach
  | exitLoop hloop hreach => exact exitLoop hloop hreach
  | breakCase harm hlink hreach => exact breakCase harm hlink hreach

/-- A branch of an `If` up to the statement that ends it. -/
theorem branch {x : Exec σ Flow} {s : Session σ} {start : Nat} {stop : Statement}
    (hx : Lands ctx p (.ifBlock start :: frames) mid m (x.run.run s))
    (hstop : ∀ t, (Machine.single p mid (.ifBlock start :: frames) t).Reaches ctx
      (.single p next frames (t.note [Machine.trace stop]))) :
    Lands ctx p frames next m ((x.andThen (Exec.mark stop)).run.run s) := by
  rw [Exec.run_andThen]
  generalize x.run.run s = r at hx
  cases hx with
  | failed hend => exact failed hend
  | returned hend => exact returned hend
  | normal hreach => exact normal (hreach.trans (hstop _))
  | continueLoop hloop hreach => exact continueLoop hloop hreach
  | exitLoop hloop hreach => exact exitLoop hloop hreach
  | breakCase harm hlink hreach => exact breakCase harm hlink hreach

/-- A case up to the statement that ends it. The cases after it follow if it came to its end or was
    left by a `Break`. -/
theorem arm {x others : Exec σ Flow} {stop : Statement} {i start select after : Nat}
    {results used : List String} {s : Session σ} (hlink : p.link i = .caseOf after select)
    (hx : Lands ctx p (.caseBlock i :: .selectBlock start results used :: frames) after
      m (x.run.run s))
    (hothers : ∀ opened t, Frame.closeCase opened = .selectBlock start results used :: frames →
      Lands ctx p frames next (.single p after opened t)
        ((others.andThen (Exec.mark stop)).run.run t)) :
    Lands ctx p frames next m ((x >>= fun flow => Exec.andThen (match flow with
      | .normal | .breakCase => others
      | flow => pure flow) (Exec.mark stop)).run.run s) := by
  rw [Exec.run_bind]
  generalize x.run.run s = r at hx
  cases hx with
  | failed hend => exact failed hend
  | returned hend => exact returned hend
  | normal hreach => exact of_reaches hreach (hothers _ _ rfl)
  | continueLoop hloop hreach => exact continueLoop hloop hreach
  | exitLoop hloop hreach => exact exitLoop hloop hreach
  | breakCase harm hafter hreach =>
    cases harm
    cases hafter.symm.trans hlink
    exact of_reaches hreach (hothers _ _ rfl)

/-- All rounds of a loop. The induction is on the values that the loop variable has yet to take. -/
theorem rounds {body : Exec σ Flow} {start stop : Nat} {variableName : String}
    {stopStatement : Statement}
    (hbody : ∀ state t, Lands ctx p (.forBlock start stop variableName state :: frames) stop
      (.single p (start + 1) (.forBlock start stop variableName state :: frames) t)
        (body.run.run t))
    (hstop : ∀ state t,
      (Machine.single p stop (.forBlock start stop variableName state :: frames) t).Reaches ctx
        (.round p start stop variableName state frames (t.note [Machine.trace stopStatement])))
    {state : LoopState} (hstate : state.InRange) (s : Session σ) :
    Lands ctx p frames (stop + 1) (.round p start stop variableName state frames s)
      ((Exec.rounds variableName stopStatement body state.items).run.run s) := by
  generalize hitems : state.items = items
  induction items generalizing state s with
  | nil =>
    have hnext := hstate.next?
    cases hn : state.next? with
    | none =>
      refine normal ?_
      rw [Machine.round, hn]
      exact .refl _
    | some pair =>
      rw [hn, hitems] at hnext
      exact absurd hnext.2 (by simp)
  | cons item rest ih =>
    have hnext := hstate.next?
    cases hn : state.next? with
    | none =>
      rw [hn, hitems] at hnext
      cases hnext
    | some pair =>
      obtain ⟨first, state'⟩ := pair
      rw [hn, hitems] at hnext
      obtain ⟨hstate', hcons⟩ := hnext
      obtain ⟨rfl, hrest⟩ := List.cons.inj hcons
      rw [Machine.round, hn, Exec.rounds, Exec.run_bind, Exec.run_modify]
      dsimp only
      rw [Exec.run_bind]
      have hround := hbody state' (s.setVariable variableName item)
      generalize body.run.run (s.setVariable variableName item) = r at hround
      cases hround with
      | failed hend => exact failed hend
      | returned hend => exact returned hend
      | normal hreach =>
        dsimp only
        rw [Exec.run_trace_bind]
        exact of_reaches (hreach.trans (hstop state' _)) (ih hstate' _ hrest.symm)
      | continueLoop hloop hreach =>
        cases hloop
        exact of_reaches hreach (ih hstate' _ hrest.symm)
      | exitLoop hloop hreach =>
        cases hloop
        exact normal hreach
      | breakCase harm hlink hreach => cases harm

end Lands

end InstallScript
