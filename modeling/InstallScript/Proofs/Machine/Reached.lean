import InstallScript.Proofs.Machine.Argument
import InstallScript.Proofs.Machine.Planning
import InstallScript.Proofs.Plan.WellKept

/-!
The states that runs for one package reach, and what holds of their plans. Whatever is run, on
whatever host and disk and for however many steps, the plan is well kept until it is finished.
-/

namespace InstallScript

open Script (Program)

namespace Instruction

theorem versionBound_ne_zero (major minor : Nat) : versionBound major minor ≠ some .zero := by
  unfold versionBound
  dsimp only
  split
  · rintro ⟨⟩
  · rename_i hne
    exact fun h => hne (Option.some.inj h)

theorem readBounds_ne_zero {args tail : List String} {low high : Option Version}
    (h : readBounds args = .ok (low, high, tail)) : low ≠ some .zero ∧ high ≠ some .zero := by
  unfold readBounds at h
  split at h
  · obtain ⟨minMajor, -, h⟩ := Except.bind_eq_ok_iff.mp h
    obtain ⟨minMinor, -, h⟩ := Except.bind_eq_ok_iff.mp h
    obtain ⟨maxMajor, -, h⟩ := Except.bind_eq_ok_iff.mp h
    obtain ⟨maxMinor, -, h⟩ := Except.bind_eq_ok_iff.mp h
    cases h
    exact ⟨versionBound_ne_zero minMajor minMinor, versionBound_ne_zero maxMajor maxMinor⟩
  · cases h
    constructor
    · rintro ⟨⟩
    · rintro ⟨⟩

theorem bounded_of_readConflict {kind : ConflictKind} {isRegex : Bool} {args : List String}
    {conflict : Conflict} (h : readConflict kind isRegex args = .ok conflict) :
    conflict.Bounded := by
  obtain ⟨file, -, h⟩ := Except.bind_eq_ok_iff.mp h
  dsimp only at h
  split at h
  · obtain ⟨_, hthrow, _⟩ := Except.bind_eq_ok_iff.mp h
    cases hthrow
  · obtain ⟨⟨low, high, tail⟩, hbounds, h⟩ := Except.bind_eq_ok_iff.mp h
    obtain ⟨level, -, h⟩ := Except.bind_eq_ok_iff.mp h
    cases h
    exact readBounds_ne_zero hbounds

end Instruction

/-- No change that a statement can be settled to spoils a plan. -/
theorem Plan.WellKept.apply {files : FileSet} {p : Plan} (h : p.WellKept files) {c : Change}
    (hc : c.Issued files) : (c.apply p).WellKept files := by
  cases hc with
  | data he => exact h.installData he _
  | copiedData he | copiedFolder he => exact h.installData he _
  | plugin he => exact h.installPlugin he _
  | copiedPlugin he => exact h.installPlugin he _
  | removeData => exact { h with data := h.data.erase }
  | removePlugin => exact { h with plugin := h.plugin.erase }
  | clearData => exact { h with data := OrderedMap.each_empty }
  | clearPlugins => exact { h with plugin := OrderedMap.each_empty }
  | flag plugin change => exact h.updateFlags plugin change
  | declare hconflict => exact h.declare (Instruction.bounded_of_readConflict hconflict)
  | ini => exact { h with ini := h.ini.insert rfl }
  | shader hbinary => exact { h with shader := h.shader.insert ⟨rfl, hbinary⟩ }
  | record hplugin => exact { h with record := h.record.insert ⟨rfl, hplugin⟩ }
  | value hplugin => exact { h with value := h.value.insert ⟨rfl, hplugin⟩ }
  | xml hfile => exact { h with xml := h.xml.insert ⟨rfl, hfile⟩ }
  | patch hsource => exact { h with patch := h.patch.insert ⟨rfl, hsource⟩ }
  | register name => exact h.register name
  | unregister name => exact h.unregister name

namespace Session

variable {σ : Type} {files : FileSet}

/-- The states that any number of runs reach one after the other, for one package. A run may have
    been left after any number of its steps, and settings, disk and host may differ from run to
    run. -/
inductive Reached (files : FileSet) : Session σ → Prop where
  | start (host : σ) : Reached files (.start host)
  | execute {session : Session σ} {ctx : Context σ} (steps : Nat) (program : Program) :
      Reached files session → ctx.files = files →
        Reached files (session.execute ctx steps program).session

theorem wellKept_execute {session : Session σ} {ctx : Context σ}
    (h : session.plan.WellKept ctx.files) (steps : Nat) (program : Program) :
    (session.execute ctx steps program).session.plan.WellKept ctx.files := by
  let Inv (p : Plan) : Prop := p.WellKept ctx.files
  refine Machine.plan_of_run ctx Inv (fun p q hp hbecomes => ?_) h steps
  exact hbecomes.of_issued Inv (fun p c hp hc => hp.apply hc) hp

/-- In every state that runs reach, before the plan is finished: files are filed under the keys of
    their outputs and edits under their targets, files and edits are of files of the package,
    plugins have no metadata of their own, no load-order list names a plugin twice, no archive is
    both registered and unregistered, and no conflict is bounded by the version zero. -/
theorem wellKept_of_reached {session : Session σ} (h : session.Reached files) :
    session.plan.WellKept files := by
  induction h with
  | start host => exact .empty files
  | execute steps program _ hfiles ih =>
    subst hfiles
    exact wellKept_execute ih steps program

/-- Metadata stages the plugin that it is for, and the plan is well kept then. -/
theorem wellKept_of_reached_with_metadata :
    ∃ (files : FileSet) (session : Session Prepared), session.Reached files ∧
      session.plan.pluginFiles.entries = [("a.esp", ⟨⟨"A.esp", 0, 0, 0⟩, "A.esp", {}⟩)] ∧
      session.plan.pendingFlags.entries = [("a.esp", { loadAfter := ["B.esp"] })] ∧
      session.plan.WellKept files := by
  let files : FileSet := ⟨[], [⟨"A.esp", 0, 0, 0⟩]⟩
  let ctx : Context Prepared := ⟨⟨.default, files, .empty⟩, Prepared.host⟩
  let program : Program :=
    ⟨#[⟨1, .instruction .loadAfter ["A.esp", "B.esp"]⟩], #[.none], #[none], []⟩
  let session : Session Prepared := .start {}
  have hargs := substituteAll_eq_ok session.vars (show ∀ text ∈ ["A.esp", "B.esp"],
    '%' ∉ text.toList by decide)
  have hstep : (Machine.start program session).step ctx = .next _ :=
    Machine.step_of_change ctx rfl (by decide) hargs rfl
  have hreached : (session.execute ctx 1 program).session.Reached files :=
    .execute 1 program (.start _) rfl
  refine ⟨files, _, hreached, ?_, ?_, wellKept_of_reached hreached⟩
  · rw [Session.execute, Machine.run, hstep]
    rfl
  · rw [Session.execute, Machine.run, hstep]
    rfl

end Session

end InstallScript
