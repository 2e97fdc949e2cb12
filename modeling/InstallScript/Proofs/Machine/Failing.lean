import InstallScript.Machine.Condition
import InstallScript.Machine.Loop
import InstallScript.Proofs.Machine.Argument
import InstallScript.Proofs.Machine.Exec

/-!
How the steps of a run can fail. Testing a condition, prompting the user, starting a loop and
carrying a statement out only fail for reasons that are not internal, and a selection only fails if
the host picked options that it should not.
-/

namespace InstallScript

open Script

/-- Whether options are some that a prompt can be answered with. -/
def Prompt.Admits (prompt : Prompt) (picked : List Nat) : Prop :=
  (∀ i ∈ picked, i < prompt.items.length) ∧ (prompt.isMulti = false → picked.length = 1)

/-- Whether a host answers the prompts of scripts as it should. -/
def Host.PicksWell {σ : Type} (host : Host σ) : Prop :=
  ∀ title items previews descriptions isMulti dataPath state picked,
    (host.select (.ofOptions title items previews descriptions isMulti dataPath) state).answer =
      .ok picked →
      (Prompt.ofOptions title items previews descriptions isMulti dataPath).Admits picked

/-- Whether a failure is not internal, and not about a selection either if a host answers prompts as
    it should. -/
def Failure.IsOpen {σ : Type} (host : Host σ) (failure : Failure) : Prop :=
  failure.isInternal = false ∧ (host.PicksWell → failure.isSelection = false)

namespace Exec

variable {σ α β : Type} {host : Host σ}

/-- Whether a step only fails for reasons that are open, and its result has a property. -/
def Yields (host : Host σ) (x : Exec σ α) (q : α → Prop) : Prop :=
  Meets (fun _ => True) x (fun a _ => q a) fun failure _ => failure.IsOpen host

namespace Yields

variable {q : α → Prop}

protected theorem bind {x : Exec σ α} {f : α → Exec σ β} {r : β → Prop}
    (hx : Yields host x q) (hf : ∀ a, q a → Yields host (f a) r) : Yields host (x >>= f) r :=
  Meets.bind hx fun a => ⟨fun s ha => (hf a ha).of_run s trivial⟩

protected theorem pure {a : α} (h : q a) : Yields host (pure a : Exec σ α) q :=
  Meets.pure fun _ _ => h

protected theorem get : Yields host (get : Exec σ (Session σ)) fun _ => True :=
  Meets.get fun _ _ => trivial

protected theorem modify (f : Session σ → Session σ) :
    Yields host (modify f : Exec σ PUnit) fun _ => True :=
  Meets.modify fun _ _ => trivial

theorem note (events : List Event) : Yields host (Exec.note events : Exec σ Unit) fun _ => True :=
  Meets.note fun _ _ => trivial

protected theorem throw {failure : Failure} (h : failure.IsOpen host) :
    Yields host (throw failure : Exec σ α) q :=
  Meets.throw fun _ _ => h

theorem fail {line : Nat} {cause : RunCause}
    (h : cause.isInternal = false ∧ cause.isSelection = false) :
    Yields host (Exec.fail line cause : Exec σ α) q :=
  Meets.fail fun _ _ => ⟨h.1, fun _ => h.2⟩

theorem lift {line : Nat} {result : Except RunCause α} (h : FailsOpenly result)
    (hok : ∀ a, result = .ok a → q a) : Yields host (Exec.lift line result : Exec σ α) q :=
  Meets.lift (fun a ha _ _ => hok a ha) fun cause hcause _ _ =>
    ⟨(h cause hcause).1, fun _ => (h cause hcause).2.1⟩

theorem lift_ok {line : Nat} {result : Except RunCause α} {a : α} (hresult : result = .ok a)
    (h : q a) :
    Yields host (Exec.lift line result : Exec σ α) q := by
  subst hresult
  exact Yields.pure h

theorem call_ok {line : Nat} {call : HostCall σ α}
    (h : ∀ state a, (call state).answer = .ok a → q a) :
    Yields host (Exec.call line call) q := by
  refine ⟨fun s _ => ?_⟩
  rw [run_call]
  cases hanswer : (call s.host).answer with
  | ok a => exact h _ a hanswer
  | error reason => exact ⟨rfl, fun _ => rfl⟩

theorem call (line : Nat) (call : HostCall σ α) :
    Yields host (Exec.call line call) fun _ => True :=
  call_ok fun _ _ _ => trivial

end Yields

end Exec

section Effects

variable {σ : Type} (ctx : Context σ) (line : Nat)

theorem Script.Condition.yields_holds (condition : Condition) (args : List String) :
    (condition.holds ctx line args).Yields ctx.host fun _ => True := by
  cases condition with
  | dialogYesNo =>
    refine (Exec.Yields.call line _).bind fun answer _ => ?_
    cases answer with
    | yes | no => exact Exec.Yields.pure trivial
    | cancel => exact Exec.Yields.throw ⟨rfl, fun _ => rfl⟩
  | dataFileExists => exact Exec.Yields.call line _
  | versionGreaterThan | versionLessThan =>
    exact (Exec.Yields.lift (Argument.failsOpenly_version _) fun _ _ => trivial).bind fun _ _ =>
      Exec.Yields.pure trivial
  | scriptExtenderPresent | graphicsExtenderPresent =>
    exact (Exec.Yields.call line _).bind fun _ _ => Exec.Yields.pure trivial
  | scriptExtenderNewerThan | graphicsExtenderNewerThan | oblivionNewerThan =>
    exact (Exec.Yields.lift (Argument.failsOpenly_version _) fun _ _ => trivial).bind fun _ _ =>
      (Exec.Yields.call line _).bind fun _ _ => Exec.Yields.pure trivial
  | equal => exact Exec.Yields.pure trivial
  | greaterEqual | greaterThan =>
    exact (Exec.Yields.lift (Argument.failsOpenly_integer _ _) fun _ _ => trivial).bind fun _ _ =>
      (Exec.Yields.lift (Argument.failsOpenly_integer _ _) fun _ _ => trivial).bind fun _ _ =>
        Exec.Yields.pure trivial
  | fGreaterEqual | fGreaterThan =>
    exact (Exec.Yields.lift (Argument.failsOpenly_real _) fun _ _ => trivial).bind fun _ _ =>
      (Exec.Yields.lift (Argument.failsOpenly_real _) fun _ _ => trivial).bind fun _ _ =>
        Exec.Yields.pure trivial

theorem Script.Condition.yields_test (condition : Condition) (args : List String) :
    (condition.test ctx line args).Yields ctx.host fun _ => True := by
  refine Exec.Yields.get.bind fun s _ => ?_
  refine (Exec.Yields.lift (failsOpenly_substituteAll s.vars args) fun _ _ => trivial).bind
    fun values _ => ?_
  refine (condition.yields_holds ctx line values).bind fun _ _ => ?_
  exact (Exec.Yields.note _).bind fun _ _ => Exec.Yields.pure trivial

theorem failsOpenly_ofMenu (site : Site) (vars : Variables) (menu : Menu) :
    FailsOpenly (Prompt.ofMenu site vars menu) := by
  have hoption : ∀ texts : Option (List String), FailsOpenly (texts.mapM vars.substituteAll) := by
    intro texts
    cases texts <;> simp
  simp [Prompt.ofMenu, hoption]

theorem exists_ofOptions_of_ofMenu {site : Site} {vars : Variables} {menu : Menu} {prompt : Prompt}
    (h : Prompt.ofMenu site vars menu = .ok prompt) :
    ∃ title items previews descriptions dataPath,
      prompt = .ofOptions title items previews descriptions menu.shape.multi dataPath := by
  obtain ⟨title, -, h⟩ := Except.bind_eq_ok_iff.mp h
  obtain ⟨items, -, h⟩ := Except.bind_eq_ok_iff.mp h
  obtain ⟨previews, -, h⟩ := Except.bind_eq_ok_iff.mp h
  obtain ⟨descriptions, -, h⟩ := Except.bind_eq_ok_iff.mp h
  cases h
  exact ⟨_, _, _, _, _, rfl⟩

/-- A selection is taken exactly if the prompt can be answered with it. -/
theorem checkSelection_eq_ok_iff {prompt : Prompt} {picked : List Nat} :
    checkSelection prompt picked = .ok () ↔ prompt.Admits picked := by
  have hfind : picked.find? (prompt.items.length ≤ ·) = none ↔
      ∀ i ∈ picked, i < prompt.items.length := by
    simp [List.find?_eq_none]
  rw [Prompt.Admits, ← hfind]
  unfold checkSelection
  split
  · rename_i hnotSingle
    simp only [Bool.and_eq_true, Bool.not_eq_true', bne_iff_ne] at hnotSingle
    refine iff_of_false (by simp) fun h => hnotSingle.2 (h.2 hnotSingle.1)
  · rename_i hsingle
    simp only [Bool.and_eq_true, Bool.not_eq_true', bne_iff_ne, not_and,
      Decidable.not_not] at hsingle
    split
    · rename_i hsome
      simp [hsome]
    · rename_i hnone
      exact iff_of_true rfl ⟨hnone, hsingle⟩

/-- A selection is only refused if it should not have been made. -/
theorem yields_checkSelection {σ : Type} {host : Host σ} {prompt : Prompt} {picked : List Nat}
    (h : host.PicksWell → prompt.Admits picked) :
    (Exec.lift line (checkSelection prompt picked) : Exec σ Unit).Yields host fun _ => True := by
  refine Exec.Meets.lift (fun _ _ _ _ => trivial) fun cause hcause _ _ => ⟨?_, fun hpicks => ?_⟩
  · unfold checkSelection at hcause
    split at hcause
    · cases hcause
      rfl
    · split at hcause
      · cases hcause
        rfl
      · cases hcause
  · rw [checkSelection_eq_ok_iff.mpr (h hpicks)] at hcause
    cases hcause

theorem failsOpenly_ofHeader (site : Site) (vars : Variables) (header : LoopHeader) :
    FailsOpenly (LoopState.ofHeader site vars line header) := by
  have hcounting : ∀ start last step, FailsOpenly (LoopState.counting start last step) := by
    intro start last step
    unfold LoopState.counting
    split <;> simp [RunCause.isInternal]
  cases header with
  | count name start stop step => cases step <;> simp [LoopState.ofHeader, hcounting]
  | each kind name folder recurse pattern =>
    simp only [LoopState.ofHeader, failsOpenly_bind, failsOpenly_substitute, true_and]
    intro path _
    split <;> simp [RunCause.isInternal]

theorem Script.Menu.yields_pick (menu : Menu) :
    (menu.pick ctx line).Yields ctx.host fun _ => True := by
  refine Exec.Yields.get.bind fun s _ => ?_
  refine (Exec.Yields.lift (failsOpenly_ofMenu ctx.toSite s.vars menu)
    fun _ => exists_ofOptions_of_ofMenu).bind fun prompt hprompt => ?_
  obtain ⟨title, items, previews, descriptions, dataPath, rfl⟩ := hprompt
  refine (Exec.Yields.call_ok fun state picked hpicked (hpicks : ctx.host.PicksWell) =>
    hpicks _ _ _ _ _ _ state picked hpicked).bind fun picked hadmits => ?_
  refine (yields_checkSelection line hadmits).bind fun _ _ => ?_
  exact (Exec.Yields.note _).bind fun _ _ => Exec.Yields.pure trivial

theorem Effect.yields_perform (effect : Effect) :
    (effect.perform ctx line).Yields ctx.host fun _ => True := by
  cases effect with
  | change | assign => exact Exec.Yields.modify _
  | message | showImage | showText => exact Exec.Yields.call line _
  | input | readIni | readRenderer =>
    exact (Exec.Yields.call line _).bind fun _ _ => Exec.Yields.modify _
  | note => exact Exec.Yields.note _

/-- A statement that has as many arguments as it needs only fails openly. -/
theorem Instruction.yields_run {kind : Keyword} {args : List String} (hkind : kind.isAction = true)
    (hexec : kind ≠ .execLines) (hargs : kind.arity.admits args.length = true) :
    (Instruction.run ctx line kind args).Yields ctx.host fun _ => True := by
  rw [run_eq]
  refine Exec.Yields.get.bind fun s _ => ?_
  have hvalues := failsOpenly_substituteAll s.vars args
  refine (Exec.Yields.lift hvalues fun values h => length_of_substituteAll s.vars h).bind
    fun values hlength => ?_
  have hfails := failsOpenly_interpret ctx.toSite s.plan line hkind hexec (hlength ▸ hargs)
  exact (Exec.Yields.lift hfails fun _ _ => trivial).bind fun effect _ =>
    effect.yields_perform ctx line

end Effects

end InstallScript
