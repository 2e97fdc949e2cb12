import InstallScript.Machine.Session

/-!
Steps of a run, taken apart: what running each of them in a state gives, and rules for what holds
after them.
-/

namespace InstallScript.Exec

variable {σ α β : Type}

/-- Steps that give the same from every state are the same. -/
theorem ext {x y : Exec σ α} (h : ∀ s, x.run.run s = y.run.run s) : x = y :=
  funext h

section Run

variable (s : Session σ)

theorem run_bind (x : Exec σ α) (f : α → Exec σ β) :
    (x >>= f).run.run s = match x.run.run s with
      | (.ok a, t) => (f a).run.run t
      | (.error failure, t) => (.error failure, t) := by
  change (match x.run.run s with
    | (result, t) => (ExceptT.bindCont f result).run t) = _
  generalize x.run.run s = r
  obtain ⟨_ | _, _⟩ := r <;> rfl

@[simp] theorem run_pure (a : α) : (pure a : Exec σ α).run.run s = (.ok a, s) := rfl

@[simp] theorem run_get : (get : Exec σ (Session σ)).run.run s = (.ok s, s) := rfl

@[simp] theorem run_modify (f : Session σ → Session σ) :
    (modify f : Exec σ PUnit).run.run s = (.ok ⟨⟩, f s) := rfl

@[simp] theorem run_note (events : List Event) :
    (note events : Exec σ Unit).run.run s = (.ok (), s.note events) := rfl

@[simp] theorem run_lift_ok (line : Nat) (a : α) :
    (lift line (.ok a) : Exec σ α).run.run s = (.ok a, s) := rfl

@[simp] theorem run_lift_error (line : Nat) (cause : RunCause) :
    (lift line (.error cause) : Exec σ α).run.run s = (.error (.run ⟨line, cause⟩), s) := rfl

/-- A call of the host gives what the host answers, and notes what the host did in any case. -/
theorem run_call (line : Nat) (call : HostCall σ α) :
    (Exec.call line call).run.run s =
      ((call s.host).answer.mapError fun reason => Failure.run ⟨line, .host reason⟩,
        { s.note (call s.host).events with host := (call s.host).state }) := by
  rw [Exec.call, run_bind, run_get]
  dsimp only
  rw [run_bind]
  cases (call s.host).answer <;> rfl

end Run

/-- Whenever a step is run where `pre` holds, it gives a result for which `post` holds, or a failure
    for which `fault` holds. -/
structure Meets (pre : Session σ → Prop) (x : Exec σ α) (post : α → Session σ → Prop)
    (fault : Failure → Session σ → Prop) : Prop where
  of_run : ∀ s, pre s → match x.run.run s with
    | (.ok a, t) => post a t
    | (.error failure, t) => fault failure t

namespace Meets

variable {pre : Session σ → Prop} {fault : Failure → Session σ → Prop}

protected theorem bind {x : Exec σ α} {f : α → Exec σ β} {mid : α → Session σ → Prop}
    {post : β → Session σ → Prop} (hx : Meets pre x mid fault)
    (hf : ∀ a, Meets (mid a) (f a) post fault) : Meets pre (x >>= f) post fault := by
  refine ⟨fun s hs => ?_⟩
  have hfirst := hx.of_run s hs
  rw [run_bind]
  generalize x.run.run s = r at hfirst
  obtain ⟨failure | a, t⟩ := r
  · exact hfirst
  · exact (hf a).of_run t hfirst

theorem mono {x : Exec σ α} {post post' : α → Session σ → Prop}
    (hx : Meets pre x post fault) (h : ∀ a s, post a s → post' a s) :
    Meets pre x post' fault := by
  refine ⟨fun s hs => ?_⟩
  have hrun := hx.of_run s hs
  generalize x.run.run s = r at hrun
  obtain ⟨failure | a, t⟩ := r
  · exact hrun
  · exact h a t hrun

variable {post : α → Session σ → Prop}

protected theorem pure {a : α} (h : ∀ s, pre s → post a s) : Meets pre (pure a) post fault :=
  ⟨fun s hs => h s hs⟩

protected theorem get {post : Session σ → Session σ → Prop} (h : ∀ s, pre s → post s s) :
    Meets pre (get : Exec σ (Session σ)) post fault :=
  ⟨fun s hs => h s hs⟩

protected theorem modify {f : Session σ → Session σ} {post : PUnit → Session σ → Prop}
    (h : ∀ s, pre s → post ⟨⟩ (f s)) :
    Meets pre (modify f : Exec σ PUnit) post fault :=
  ⟨fun s hs => h s hs⟩

protected theorem throw {failure : Failure} (h : ∀ s, pre s → fault failure s) :
    Meets pre (throw failure : Exec σ α) post fault :=
  ⟨fun s hs => h s hs⟩

theorem fail {line : Nat} {cause : RunCause}
    (h : ∀ s, pre s → fault (.run ⟨line, cause⟩) s) :
    Meets pre (Exec.fail line cause : Exec σ α) post fault :=
  ⟨fun s hs => h s hs⟩

theorem note {events : List Event} {post : Unit → Session σ → Prop}
    (h : ∀ s, pre s → post () (s.note events)) :
    Meets pre (Exec.note events) post fault :=
  ⟨fun s hs => h s hs⟩

theorem lift {line : Nat} {result : Except RunCause α}
    (hok : ∀ a, result = .ok a → ∀ s, pre s → post a s)
    (herror : ∀ cause, result = .error cause → ∀ s, pre s →
      fault (.run ⟨line, cause⟩) s) :
    Meets pre (Exec.lift line result) post fault := by
  cases result with
  | ok a => exact ⟨fun s hs => hok a rfl s hs⟩
  | error cause => exact ⟨fun s hs => herror cause rfl s hs⟩

theorem call {line : Nat} {call : HostCall σ α}
    (hok : ∀ a s, pre s →
      post a { s.note (call s.host).events with host := (call s.host).state })
    (herror : ∀ reason s, pre s → fault (.run ⟨line, .host reason⟩)
      { s.note (call s.host).events with host := (call s.host).state }) :
    Meets pre (Exec.call line call) post fault := by
  refine ⟨fun s hs => ?_⟩
  rw [run_call]
  cases (call s.host).answer with
  | ok a => exact hok a s hs
  | error reason => exact herror reason s hs

end Meets

end InstallScript.Exec
