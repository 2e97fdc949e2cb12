import InstallScript.Machine.Select
import InstallScript.Proofs.Machine.Effects
import InstallScript.Proofs.Result
import InstallScript.Proofs.Script.Shape

/-!
Arguments are never missing. A statement with as many arguments as its keyword admits only fails for
reasons that lie in the script, the package or the disk.
-/

namespace InstallScript

open Script (Keyword)

/-- Whether a failure could not happen if programs were loaded and run as they should be. -/
def RunCause.isInternal : RunCause → Bool
  | .badNesting _ | .missingArgument _ => true
  | _ => false

/-- Whether a failure could not happen if programs were loaded and run as they should be. -/
def Failure.isInternal : Failure → Bool
  | .run error => error.cause.isInternal
  | _ => false

/-- Whether a failure is about options that a host should not have picked. -/
@[simp] def RunCause.isSelection : RunCause → Bool
  | .invalidSelection _ => true
  | _ => false

/-- Whether a failure is about options that a host should not have picked. -/
def Failure.isSelection : Failure → Bool
  | .run error => error.cause.isSelection
  | _ => false

/-- Whether a failure is about starting a program inside another one. -/
@[simp] def RunCause.isNesting : RunCause → Bool
  | .nested _ | .nestedTooDeep _ => true
  | _ => false

/-- Whether a failure is about starting a program inside another one. -/
def Failure.isNesting : Failure → Bool
  | .run error => error.cause.isNesting
  | _ => false

/-- Whether a computation that fails does so for a reason that is not internal, and neither because
    of the options that a host picked nor because of a program inside another one. -/
def FailsOpenly {α : Type} (x : Except RunCause α) : Prop :=
  ∀ cause, x = .error cause → cause.isInternal = false ∧ cause.isSelection = false ∧
    cause.isNesting = false

section

variable {α β : Type}

@[simp] theorem failsOpenly_ok (a : α) : FailsOpenly (.ok a) := by
  intro cause h
  cases h

@[simp] theorem failsOpenly_pure (a : α) : FailsOpenly (pure a) :=
  failsOpenly_ok a

@[simp] theorem failsOpenly_error (cause : RunCause) :
    FailsOpenly (.error cause : Except RunCause α) ↔
      cause.isInternal = false ∧ cause.isSelection = false ∧ cause.isNesting = false := by
  simp [FailsOpenly]

@[simp] theorem failsOpenly_throw (cause : RunCause) :
    FailsOpenly (throw cause : Except RunCause α) ↔
      cause.isInternal = false ∧ cause.isSelection = false ∧ cause.isNesting = false :=
  failsOpenly_error cause

@[simp] theorem failsOpenly_bind (x : Except RunCause α) (f : α → Except RunCause β) :
    FailsOpenly (x >>= f) ↔ FailsOpenly x ∧ ∀ a, x = .ok a → FailsOpenly (f a) := by
  cases x with
  | ok a => simp [bind, Except.bind]
  | error cause => simp [bind, Except.bind]

@[simp] theorem failsOpenly_map (x : Except RunCause α) (f : α → β) :
    FailsOpenly (x.map f) ↔ FailsOpenly x := by
  cases x with
  | ok a => simp [Except.map]
  | error cause => simp [Except.map]

@[simp] theorem failsOpenly_fmap (x : Except RunCause α) (f : α → β) :
    FailsOpenly (f <$> x) ↔ FailsOpenly x :=
  failsOpenly_map x f

theorem failsOpenly_mapM {f : α → Except RunCause β} (h : ∀ a, FailsOpenly (f a))
    (xs : List α) :
    FailsOpenly (xs.mapM f) := by
  induction xs with
  | nil => simp
  | cons a rest ih => simp [List.mapM_cons, h a, ih]

end

section Substitute

variable (vars : Variables)

@[simp] theorem failsOpenly_substitute (text : String) : FailsOpenly (vars.substitute text) := by
  unfold Variables.substitute
  split <;> simp [RunCause.isInternal]

@[simp] theorem failsOpenly_substituteAll (texts : List String) :
    FailsOpenly (vars.substituteAll texts) :=
  failsOpenly_mapM (failsOpenly_substitute vars) texts

@[simp] theorem failsOpenly_substituteOption (text : Option String) :
    FailsOpenly (vars.substituteOption text) := by
  cases text with
  | none => simp [Variables.substituteOption]
  | some text => simp [Variables.substituteOption]

/-- Putting values in keeps the number of texts. -/
theorem length_of_substituteAll {texts results : List String}
    (h : vars.substituteAll texts = .ok results) :
    results.length = texts.length :=
  Except.length_of_mapM h

/-- A text without percent signs is left as it is. -/
theorem substitute_eq_ok {text : String} (h : '%' ∉ text.toList) :
    vars.substitute text = .ok text := by
  have hexpand : ∀ cs : List Char, '%' ∉ cs → vars.expand cs = .ok cs := by
    intro cs hcs
    induction cs with
    | nil => rw [Variables.expand]
    | cons c rest ih =>
      simp only [List.mem_cons, not_or] at hcs
      rw [Variables.expand, if_neg (Ne.symm hcs.1), ih hcs.2]
      rfl
  simp [Variables.substitute, hexpand _ h]

/-- Texts without percent signs are left as they are. -/
theorem substituteAll_eq_ok {texts : List String} (h : ∀ text ∈ texts, '%' ∉ text.toList) :
    vars.substituteAll texts = .ok texts := by
  unfold Variables.substituteAll
  induction texts with
  | nil => rfl
  | cons text rest ih =>
    obtain ⟨htext, hrest⟩ := List.forall_mem_cons.mp h
    rw [List.mapM_cons, substitute_eq_ok vars htext, ih hrest]
    rfl

end Substitute

namespace Argument

theorem failsOpenly_get {args : List String} {index : Nat} (h : index < args.length) :
    FailsOpenly (get args index) := by
  simp [get, h]

@[simp] theorem failsOpenly_integer (range : Number.Range) (value : String) :
    FailsOpenly (integer range value) := by
  unfold integer
  split <;> simp [RunCause.isInternal]

@[simp] theorem failsOpenly_word (bits : Nat) (value : String) : FailsOpenly (word bits value) := by
  simp [word]

@[simp] theorem failsOpenly_real (value : String) : FailsOpenly (real value) := by
  unfold real
  split <;> simp [RunCause.isInternal]

@[simp] theorem failsOpenly_singleBits (value : String) : FailsOpenly (singleBits value) := by
  unfold singleBits
  split <;> simp [RunCause.isInternal]

@[simp] theorem failsOpenly_version (value : String) : FailsOpenly (version value) := by
  unfold version
  split <;> simp [RunCause.isInternal]

@[simp] theorem failsOpenly_truth (value : String) : FailsOpenly (truth value) := by
  unfold truth
  split
  · simp
  · split <;> simp [RunCause.isInternal]

@[simp] theorem failsOpenly_flag (value : Option String) : FailsOpenly (flag value) := by
  cases value <;> simp [flag]

@[simp] theorem failsOpenly_entry (files : FileSet) (kind : FileKind) (name : String) :
    FailsOpenly (entry files kind name) := by
  unfold entry
  split <;> simp [RunCause.isInternal]

@[simp] theorem failsOpenly_folder (files : FileSet) (name : String) (recurse : Bool) :
    FailsOpenly (folder files name recurse) := by
  unfold folder
  split <;> simp [RunCause.isInternal]

@[simp] theorem failsOpenly_output (path : String) : FailsOpenly (output path) := by
  unfold output
  split <;> simp [RunCause.isInternal]

end Argument

namespace Instruction

@[simp] theorem failsOpenly_stage (files : FileSet) (plan : Plan) (name : String) :
    FailsOpenly (stage files plan name) := by
  unfold stage
  split <;> simp

@[simp] theorem failsOpenly_flagPlugin (files : FileSet) (plan : Plan) (name : String)
    (change : FlagChange) :
    FailsOpenly (flagPlugin files plan name change) := by
  simp [flagPlugin]

@[simp] theorem failsOpenly_readLevel (value : Option String) : FailsOpenly (readLevel value) := by
  unfold readLevel
  split
  · simp
  · split <;> simp [RunCause.isInternal]

variable {args : List String}

@[simp] theorem failsOpenly_readBounds (args : List String) : FailsOpenly (readBounds args) := by
  unfold readBounds
  split
  · rename_i h
    simp only [Bool.and_eq_true, decide_eq_true_eq] at h
    simp (disch := omega) [Argument.failsOpenly_get]
  · simp

theorem failsOpenly_readConflict (kind : ConflictKind) (isRegex : Bool) (h : 1 ≤ args.length) :
    FailsOpenly (readConflict kind isRegex args) := by
  simp only [readConflict, failsOpenly_bind]
  refine ⟨Argument.failsOpenly_get h, fun file _ => ?_⟩
  split <;> simp [RunCause.isInternal]

theorem failsOpenly_declare (kind : ConflictKind) (isRegex : Bool) (h : 1 ≤ args.length) :
    FailsOpenly (declare kind isRegex args) := by
  simp [declare, failsOpenly_readConflict kind isRegex h]

theorem failsOpenly_readValue (kind : Keyword) (value : String) :
    FailsOpenly (readValue kind value) := by
  unfold readValue
  split <;> simp

theorem failsOpenly_setValue (files : FileSet) (h : 3 ≤ args.length)
    {read : String → Except RunCause PluginValue} (hread : ∀ value, FailsOpenly (read value)) :
    FailsOpenly (setValue files args read) := by
  simp (disch := omega) [setValue, Argument.failsOpenly_get, hread]

theorem failsOpenly_setRecord (files : FileSet) (kind : RecordKind) (h : 3 ≤ args.length) :
    FailsOpenly (setRecord files kind args) := by
  simp (disch := omega) [setRecord, Argument.failsOpenly_get]

theorem failsOpenly_editShader (files : FileSet) (h : 3 ≤ args.length) :
    FailsOpenly (editShader files args) := by
  simp (disch := omega) [editShader, Argument.failsOpenly_get]

theorem failsOpenly_patch (files : FileSet) (kind : FileKind) (h : 2 ≤ args.length) :
    FailsOpenly (patch files kind args) := by
  simp (disch := omega) [patch, Argument.failsOpenly_get]

theorem failsOpenly_archive (h : 1 ≤ args.length) : FailsOpenly (archive args) := by
  simp only [archive, failsOpenly_bind]
  refine ⟨Argument.failsOpenly_get h, fun name _ => ?_⟩
  split <;> simp [RunCause.isInternal]

theorem failsOpenly_cut (h : 3 ≤ args.length) : FailsOpenly (cut args) := by
  simp only [cut, failsOpenly_bind]
  refine ⟨Argument.failsOpenly_get (by omega),
    fun text _ => ⟨Argument.failsOpenly_get (by omega),
    fun value _ => ⟨Argument.failsOpenly_word 64 value, fun start _ => ?_⟩⟩⟩
  split
  · simp only [failsOpenly_bind, Argument.failsOpenly_word, true_and]
    refine fun length _ => ⟨failsOpenly_pure _, fun stop _ => ?_⟩
    split <;> simp [RunCause.isInternal]
  · simp only [failsOpenly_bind]
    refine ⟨failsOpenly_pure _, fun stop _ => ?_⟩
    split <;> simp [RunCause.isInternal]

theorem failsOpenly_evaluate (eval : String → Except Expr.Fault String) (h : 1 ≤ args.length) :
    FailsOpenly (evaluate args eval) := by
  simp only [evaluate, failsOpenly_bind]
  refine ⟨Argument.failsOpenly_get h, fun name _ => ?_⟩
  split <;> simp [RunCause.isInternal]

theorem failsOpenly_assignPath (f : String → String) (h : 2 ≤ args.length) :
    FailsOpenly (assignPath args f) := by
  simp (disch := omega) [assignPath, Argument.failsOpenly_get]

theorem failsOpenly_showText (site : Site) (line : Nat) (h : 1 ≤ args.length) :
    FailsOpenly (showText site line args) := by
  simp only [showText, failsOpenly_bind, Argument.failsOpenly_entry, true_and]
  refine ⟨Argument.failsOpenly_get h, fun name _ e _ => ?_⟩
  split
  · simp
  · split <;> simp [RunCause.isInternal]

/-- What a statement does can be settled, or fails to be for a reason that is not internal, if it
    has as many arguments as its keyword admits. -/
theorem failsOpenly_interpret (site : Site) (plan : Plan) (line : Nat) {kind : Keyword}
    (hkind : kind.isAction = true) (hexec : kind ≠ .execLines)
    (hargs : kind.arity.admits args.length = true) :
    FailsOpenly (interpret site plan line kind args) := by
  have hmin : kind.arity.min ≤ args.length := by
    simp only [Script.Arity.admits, Bool.and_eq_true, decide_eq_true_eq] at hargs
    exact hargs.1
  cases kind with
  | ifTrue | ifNot | otherwise | endIf | select | selectMany | selectWithPreview
  | selectManyWithPreview
  | selectWithDescriptions | selectManyWithDescriptions | selectWithDescriptionsAndPreviews
  | selectManyWithDescriptionsAndPreviews | selectVar | selectString | caseOf
  | defaultCase | breakCase
  | endSelect | forLoop | endFor | continueLoop | exitLoop | returnEarly | fatalError | label | goto
  | setVar => cases hkind
  | execLines => exact absurd rfl hexec
  | conflictsWith | dependsOn | conflictsWithRegex | dependsOnRegex =>
    simp only [interpret]
    exact failsOpenly_declare _ _ hmin
  | setGmst | setGlobal =>
    simp only [interpret]
    exact failsOpenly_setRecord _ _ hmin
  | editSdp | editShader =>
    simp only [interpret]
    exact failsOpenly_editShader _ hmin
  | setPluginByte | setPluginShort | setPluginInt | setPluginLong | setPluginFloat =>
    simp only [interpret]
    exact failsOpenly_setValue _ hmin (failsOpenly_readValue _)
  | patchPlugin | patchDataFile =>
    simp only [interpret]
    exact failsOpenly_patch _ _ hmin
  | displayText =>
    simp only [interpret]
    exact failsOpenly_showText _ _ hmin
  | getFolderName | getDirectoryName | getFileName | getFileNameWithoutExtension =>
    simp only [interpret]
    exact failsOpenly_assignPath _ hmin
  | iSet | fSet =>
    simp only [interpret]
    exact failsOpenly_evaluate _ (Nat.le_of_succ_le hmin)
  | registerBsa | unregisterBsa => simp [interpret, failsOpenly_archive hmin]
  | substring | removeString =>
    simp only [interpret, failsOpenly_bind]
    refine ⟨failsOpenly_cut hmin, fun parts _ => ?_⟩
    have hfirst : 0 < args.length := Nat.lt_of_lt_of_le (by decide) hmin
    simp [Argument.failsOpenly_get hfirst]
  | setDeactivationWarning =>
    have hfirst : 0 < args.length := Nat.lt_of_lt_of_le (by decide) hmin
    simp only [interpret, failsOpenly_bind]
    refine ⟨Argument.failsOpenly_get hmin, fun value _ => ?_⟩
    split
    · simp [Argument.failsOpenly_get hfirst]
    · simp [RunCause.isInternal]
  | _ =>
    simp only [Keyword.arity] at hmin
    simp (disch := omega) [interpret, Argument.failsOpenly_get]

end Instruction

end InstallScript
