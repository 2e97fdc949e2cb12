import InstallScript.Machine.Instruction
import InstallScript.Proofs.Machine.Exec

/-!
What statements come to. A statement reads, checks and changes things in an order of its own: a
plugin is staged before it gets metadata, and a folder is staged file by file. Still nothing that
can fail comes after a change. So a statement does the same as settling first what it does, as an
effect, and then performing the effect, which can only fail in the host.
-/

namespace InstallScript

open Script (Keyword)

/-- What a statement does. -/
inductive Effect where
  | change (changes : List Change)
  | assign (variableName value : String)
  | message (text : String) (title : Option String)
  | showImage (path : String) (title : Option String)
  | showText (text : String) (title : Option String)
  | input (variableName : String) (title : Option String) (initial : String)
  | readIni (variableName sectionName key : String)
  | readRenderer (variableName key : String)
  | note (event : Event)
  deriving DecidableEq, Repr

namespace Instruction

/-- Stages every file of a kind under its own name. -/
def installAll (files : FileSet) : FileKind → List Change
  | .data => files.data.map fun e => .installData e e.name
  | .plugin => files.plugins.map fun e => .installPlugin e e.name

/-- Stages a plugin under its own name, unless something is staged for that output. -/
def stage (files : FileSet) (plan : Plan) (name : String) : Except RunCause (List Change) := do
  if plan.hasPlugin name then pure []
  else
    let e ← Argument.entry files .plugin name
    pure [.installPlugin e e.name]

/-- Changes the metadata of a plugin, which is staged if it is not yet. -/
def flagPlugin (files : FileSet) (plan : Plan) (name : String) (change : FlagChange) :
    Except RunCause Effect := do
  let staging ← stage files plan name
  pure (.change (staging ++ [.flag name change]))

/-- Declares a conflict or dependency. -/
def declare (kind : ConflictKind) (isRegex : Bool) (args : List String) :
    Except RunCause Effect := do
  pure (.change [.declare (← readConflict kind isRegex args)])

/-- Writes a value into a plugin. -/
def setValue (files : FileSet) (args : List String)
    (read : String → Except RunCause PluginValue) : Except RunCause Effect := do
  let plugin ← Argument.entry files .plugin (← Argument.get args 0)
  let offset ← Argument.word 64 (← Argument.get args 1)
  let value ← read (← Argument.get args 2)
  pure (.change [.value ⟨plugin, UInt64.ofNat offset, value⟩])

/-- Changes a game setting or a global. -/
def setRecord (files : FileSet) (kind : RecordKind) (args : List String) :
    Except RunCause Effect := do
  let plugin ← Argument.entry files .plugin (← Argument.get args 0)
  pure (.change [.record ⟨kind, plugin, ← Argument.get args 1, ← Argument.get args 2⟩])

/-- Replaces a shader. -/
def editShader (files : FileSet) (args : List String) : Except RunCause Effect := do
  let package ← Argument.word 8 (← Argument.get args 0)
  let binary ← Argument.entry files .data (← Argument.get args 2)
  pure (.change [.shader ⟨UInt8.ofNat package, ← Argument.get args 1, binary⟩])

/-- Overwrites a file of the game. -/
def patch (files : FileSet) (kind : FileKind) (args : List String) : Except RunCause Effect := do
  let source ← Argument.entry files kind (← Argument.get args 0)
  let output ← Argument.output (← Argument.get args 1)
  let create ← Argument.flag args[2]?
  pure (.change [.patch ⟨kind, source, output, create⟩])

/-- Assigns the value of an expression. -/
def evaluate (args : List String) (eval : String → Except Expr.Fault String) :
    Except RunCause Effect := do
  let name ← Argument.get args 0
  let expression := String.intercalate " " (args.drop 1)
  match eval expression with
  | .ok value => pure (.assign name value)
  | .error fault => throw (.malformedExpression expression fault)

/-- Assigns something made from the canonical form of a path. -/
def assignPath (args : List String) (f : String → String) : Except RunCause Effect := do
  pure (.assign (← Argument.get args 0) (f (Path.normalize (← Argument.get args 1))))

/-- Shows a text file of the package. Dry runs do not read it. -/
def showText (site : Site) (line : Nat) (args : List String) : Except RunCause Effect := do
  let e ← Argument.entry site.files .data (← Argument.get args 0)
  if site.settings.dryRun then
    pure (.note (.info ("Skipping 'DisplayText' of '" ++ e.name ++
      s!"' on line {line}, as this is a dry run.")))
  else
    match site.disk.read (extractedPath site.settings e) with
    | .ok bytes => pure (.showText (String.ofList (Text.decodeLossy bytes)) args[1]?)
    | .error fault => throw (.disk fault)

/-- Settles what a statement does. -/
def interpret (site : Site) (plan : Plan) (line : Nat) (kind : Keyword) (args : List String) :
    Except RunCause Effect := do
  let files := site.files
  let arg := Argument.get args
  match kind with
  | .installAllPlugins => pure (.change (installAll files .plugin))
  | .installAllDataFiles => pure (.change (installAll files .data))
  | .dontInstallAnyPlugins => pure (.change [.clearPlugins])
  | .dontInstallAnyDataFiles => pure (.change [.clearData])
  | .installPlugin =>
    let e ← Argument.entry files .plugin (← arg 0)
    pure (.change [.installPlugin e e.name])
  | .dontInstallPlugin =>
    let e ← Argument.entry files .plugin (← arg 0)
    pure (.change [.removePlugin e.name])
  | .installDataFile =>
    let e ← Argument.entry files .data (← arg 0)
    pure (.change [.installData e e.name])
  | .dontInstallDataFile =>
    let e ← Argument.entry files .data (← arg 0)
    pure (.change [.removeData e.name])
  | .installDataFolder =>
    let recurse ← Argument.flag args[1]?
    let entries ← Argument.folder files (← arg 0) recurse
    pure (.change (entries.map fun e => .installData e e.name))
  | .dontInstallDataFolder =>
    let recurse ← Argument.flag args[1]?
    let entries ← Argument.folder files (← arg 0) recurse
    pure (.change (entries.map fun e => .removeData e.name))
  | .copyPlugin =>
    let e ← Argument.entry files .plugin (← arg 0)
    pure (.change [.installPlugin e (← Argument.output (← arg 1))])
  | .copyDataFile =>
    let e ← Argument.entry files .data (← arg 0)
    pure (.change [.installData e (← Argument.output (← arg 1))])
  | .copyDataFolder =>
    let recurse ← Argument.flag args[2]?
    let target ← Argument.output (← arg 1)
    let folder ← arg 0
    let entries ← Argument.folder files folder recurse
    pure (.change (entries.map fun e => .installData e (copiedPath folder target e)))
  | .uncheckEsp => flagPlugin files plan (← arg 0) .uncheck
  | .loadEarly => flagPlugin files plan (← arg 0) .loadEarly
  | .setDeactivationWarning =>
    let value ← arg 1
    match Deactivation.ofName? value with
    | some status => flagPlugin files plan (← arg 0) (.deactivation status)
    | none => throw (.invalidArgument value .deactivation)
  | .loadBefore => flagPlugin files plan (← arg 0) (.loadBefore (← arg 1))
  | .loadAfter => flagPlugin files plan (← arg 0) (.loadAfter (← arg 1))
  | .conflictsWith => declare .conflict false args
  | .dependsOn => declare .dependency false args
  | .conflictsWithRegex => declare .conflict true args
  | .dependsOnRegex => declare .dependency true args
  | .editIni => pure (.change [.ini ⟨← arg 0, ← arg 1, ← arg 2⟩])
  | .editSdp | .editShader => editShader files args
  | .setGmst => setRecord files .gmst args
  | .setGlobal => setRecord files .global args
  | .setPluginByte | .setPluginShort | .setPluginInt | .setPluginLong | .setPluginFloat =>
    setValue files args (readValue kind)
  | .editXmlLine =>
    let file ← Argument.entry files .data (← arg 0)
    let index ← Argument.word 64 (← arg 1)
    pure (.change [.xml ⟨file, .line (UInt64.ofNat index) (← arg 2)⟩])
  | .editXmlReplace =>
    let file ← Argument.entry files .data (← arg 0)
    pure (.change [.xml ⟨file, .replace (← arg 1) (← arg 2)⟩])
  | .patchPlugin => patch files .plugin args
  | .patchDataFile => patch files .data args
  | .registerBsa => pure (.change [.register (← archive args)])
  | .unregisterBsa => pure (.change [.unregister (← archive args)])
  | .message => pure (.message (← arg 0) args[1]?)
  | .displayImage =>
    let e ← Argument.entry files .data (← arg 0)
    pure (.showImage (extractedPath site.settings e) args[1]?)
  | .displayText => showText site line args
  | .inputString => pure (.input (← arg 0) args[1]? (args.getD 2 ""))
  | .getFolderName => assignPath args fun path => Path.fileName (Path.folder path)
  | .getDirectoryName => assignPath args Path.folder
  | .getFileName => assignPath args Path.fileName
  | .getFileNameWithoutExtension => assignPath args fun path => Path.stem (Path.fileName path)
  | .combinePaths =>
    pure (.assign (← arg 0) (Path.normalize ((← arg 1) ++ "\\" ++ (← arg 2))))
  | .substring =>
    let (_, middle, _) ← cut args
    pure (.assign (← arg 0) (String.ofList middle))
  | .removeString =>
    let (before, _, after) ← cut args
    pure (.assign (← arg 0) (String.ofList (before ++ after)))
  | .stringLength => pure (.assign (← arg 0) (Number.textOfNat (← arg 1).length))
  | .iSet => evaluate args fun e => (Expr.evalInt e).map Number.textOfInt
  | .fSet => evaluate args fun e => (Expr.evalReal e).map Number.textOfDouble
  | .readIni => pure (.readIni (← arg 0) (← arg 1) (← arg 2))
  | .readRendererInfo => pure (.readRenderer (← arg 0) (← arg 1))
  | .allowRunOnLines =>
    pure (.note (.debug "'AllowRunOnLines' has no effect; continuations are always joined."))
  | other => throw (.badNesting other.name)

end Instruction

/-- Carries an effect out. -/
def Effect.perform (effect : Effect) (ctx : Context σ) (line : Nat) : Exec σ Unit := do
  let host := ctx.host
  match effect with
  | .change changes => modify fun s => s.change changes
  | .assign name value => modify fun s => s.assign name value
  | .message text title => Exec.call line (host.message text title)
  | .showImage path title => Exec.call line (host.displayImage path title)
  | .showText text title => Exec.call line (host.displayText text title)
  | .input name title initial =>
    let value ← Exec.call line (host.inputString title initial)
    modify fun s => s.assign name value
  | .readIni name sectionName key =>
    let value ← Exec.call line (host.readIni sectionName key)
    modify fun s => s.assign name value
  | .readRenderer name key =>
    let value ← Exec.call line (host.readRendererInfo key)
    modify fun s => s.assign name value
  | .note event => Exec.note [event]

namespace Session

variable {σ : Type}

/-- Changes that are made one after the other are made at once. -/
theorem change_change (s : Session σ) (first rest : List Change) :
    (s.change first).change rest = s.change (first ++ rest) := by
  have hevents : ∀ p, Change.eventsAll (first ++ rest) p =
      Change.eventsAll first p ++ Change.eventsAll rest (Change.applyAll first p) := by
    induction first with
    | nil => exact fun p => rfl
    | cons c first ih =>
      intro p
      rw [List.cons_append, Change.eventsAll, ih, Change.eventsAll, List.append_assoc]
      rfl
  simp only [change, note, hevents, Change.applyAll, List.foldl_append, List.reverse_append,
    List.append_assoc]

end Session

/-- Whether a step that makes nothing but changes, reads and calls comes to settling an effect on
    the plan it finds, and performing that. -/
def Exec.Performs {σ : Type} (ctx : Context σ) (line : Nat) (x : Exec σ Unit)
    (settle : Plan → Except RunCause Effect) : Prop :=
  ∀ s, x.run.run s =
    (Exec.lift line (settle s.plan) >>= fun effect => effect.perform ctx line).run.run s

namespace Exec.Performs

variable {σ α : Type} {ctx : Context σ} {line : Nat}

theorem perform (effect : Effect) :
    Performs ctx line (effect.perform ctx line) fun _ => .ok effect :=
  fun _ => rfl

theorem fail (cause : RunCause) : Performs ctx line (Exec.fail line cause) fun _ => .error cause :=
  fun _ => rfl

/-- What a step reads first is read when its effect is settled. -/
theorem lift_bind {result : Except RunCause α} {f : α → Exec σ Unit}
    {settle : α → Plan → Except RunCause Effect}
    (h : ∀ a, Performs ctx line (f a) (settle a)) :
    Performs ctx line (Exec.lift line result >>= f) fun p => result >>= fun a => settle a p := by
  cases result with
  | error cause => exact fun _ => rfl
  | ok a => exact h a

theorem change (c : Change) : Performs ctx line (Exec.change c) fun _ => .ok (.change [c]) :=
  perform (.change [c])

theorem assign (name value : String) :
    Performs ctx line (Exec.assign name value) fun _ => .ok (.assign name value) :=
  perform (.assign name value)

/-- Changes that are made one by one are the changes of one effect. -/
theorem forM {β : Type} (xs : List β) (change : β → Change) :
    Performs ctx line (xs.forM fun x => Exec.change (change x)) fun _ =>
      .ok (.change (xs.map change)) := by
  have hrun : ∀ s : Session σ,
      (xs.forM fun x => Exec.change (change x) : Exec σ PUnit).run.run s =
      (.ok ⟨⟩, s.change (xs.map change)) := by
    induction xs with
    | nil => exact fun _ => rfl
    | cons x xs ih =>
      intro s
      have hfirst : (Exec.change (change x) : Exec σ Unit).run.run s =
          (.ok (), s.change [change x]) :=
        rfl
      simp only [List.forM_eq_forM] at ih ⊢
      rw [List.forM_cons, run_bind, hfirst]
      dsimp only
      rw [ih, Session.change_change]
      rfl
  exact hrun

end Exec.Performs

namespace Instruction

section Performs

open Exec (Performs)

variable {σ : Type} {ctx : Context σ} {line : Nat} {args : List String}

theorem performs_lookUp_bind {kind : FileKind} {index : Nat} {f : Entry → Exec σ Unit}
    {settle : Entry → Plan → Except RunCause Effect}
    (h : ∀ e, Performs ctx line (f e) (settle e)) :
    Performs ctx line (lookUp ctx line kind args index >>= f) fun p =>
      Argument.get args index >>= fun name => Argument.entry ctx.files kind name >>= fun e =>
        settle e p := by
  rw [lookUp, bind_assoc]
  exact Performs.lift_bind fun name => Performs.lift_bind h

theorem performs_outputPath_bind {index : Nat} {f : String → Exec σ Unit}
    {settle : String → Plan → Except RunCause Effect}
    (h : ∀ output, Performs ctx line (f output) (settle output)) :
    Performs ctx line (outputPath line args index >>= f) fun p =>
      Argument.get args index >>= fun path => Argument.output path >>= fun output =>
        settle output p := by
  rw [outputPath, bind_assoc]
  exact Performs.lift_bind fun path => Performs.lift_bind h

theorem performs_stageAll (kind : FileKind) :
    Performs ctx line (stageAll ctx kind) fun _ => pure (.change (installAll ctx.files kind)) := by
  cases kind with
  | data => exact Performs.forM ctx.files.data _
  | plugin => exact Performs.forM ctx.files.plugins _

theorem performs_forFolder (folder : String) (recurse : Bool) (change : Entry → Change) :
    Performs ctx line (forFolder ctx line folder recurse change) fun _ =>
      Argument.folder ctx.files folder recurse >>= fun entries =>
        pure (.change (entries.map change)) :=
  Performs.lift_bind fun entries => Performs.forM entries change

/-- Metadata is attached after a plugin has been staged, and only staging it can fail. -/
theorem performs_attach (name : String) (change : FlagChange) :
    Performs ctx line (attach ctx line name change) fun p =>
      flagPlugin ctx.files p name change := by
  intro s
  rw [attach, Exec.run_bind, stagePlugin, Exec.run_bind, Exec.run_get]
  dsimp only
  unfold flagPlugin stage
  cases s.plan.hasPlugin name with
  | true => rfl
  | false =>
    cases Argument.entry ctx.files .plugin name with
    | error cause => rfl
    | ok e => exact congrArg (Prod.mk _) (Session.change_change s _ _)

theorem performs_writeValue (read : String → Except RunCause PluginValue) :
    Performs ctx line (writeValue ctx line args read) fun _ => setValue ctx.files args read :=
  performs_lookUp_bind fun _ => Performs.lift_bind fun _ => Performs.lift_bind fun _ =>
    Performs.lift_bind fun _ => Performs.lift_bind fun _ => Performs.change _

theorem performs_compute (eval : String → Except Expr.Fault String) :
    Performs ctx line (compute line args eval) fun _ => evaluate args eval := by
  refine Performs.lift_bind fun name => ?_
  dsimp only
  cases eval (String.intercalate " " (args.drop 1)) with
  | ok value => exact Performs.assign name value
  | error fault => exact Performs.fail _

theorem performs_displayText :
    Performs ctx line (displayText ctx line args) fun _ => showText ctx.toSite line args := by
  refine performs_lookUp_bind fun e => ?_
  cases ctx.settings.dryRun with
  | true => exact Performs.perform (.note _)
  | false =>
    cases ctx.disk.read (extractedPath ctx.settings e) with
    | ok bytes => exact Performs.perform (.showText _ _)
    | error fault => exact Performs.fail _

/-- Whatever can be wrong with a statement is found before anything is changed. -/
theorem performs_carryOut (kind : Keyword) :
    Performs ctx line (carryOut ctx line kind args) fun p =>
      interpret ctx.toSite p line kind args := by
  cases kind with
  | installAllPlugins => exact performs_stageAll .plugin
  | installAllDataFiles => exact performs_stageAll .data
  | dontInstallAnyPlugins | dontInstallAnyDataFiles => exact Performs.change _
  | installPlugin | dontInstallPlugin | installDataFile | dontInstallDataFile =>
    exact performs_lookUp_bind fun e => Performs.change _
  | installDataFolder | dontInstallDataFolder =>
    exact Performs.lift_bind fun recurse => Performs.lift_bind fun folder =>
      performs_forFolder folder recurse _
  | copyPlugin | copyDataFile =>
    exact performs_lookUp_bind fun e => performs_outputPath_bind fun output => Performs.change _
  | copyDataFolder =>
    exact Performs.lift_bind fun recurse => performs_outputPath_bind fun target =>
      Performs.lift_bind fun folder => performs_forFolder folder recurse _
  | uncheckEsp | loadEarly => exact Performs.lift_bind fun name => performs_attach name _
  | setDeactivationWarning =>
    refine Performs.lift_bind fun value => ?_
    cases Deactivation.ofName? value with
    | some status => exact Performs.lift_bind fun name => performs_attach name _
    | none => exact Performs.fail _
  | loadBefore | loadAfter =>
    exact Performs.lift_bind fun name => Performs.lift_bind fun other => performs_attach name _
  | conflictsWith | dependsOn | conflictsWithRegex | dependsOnRegex =>
    exact Performs.lift_bind fun conflict => Performs.change _
  | editIni =>
    exact Performs.lift_bind fun sectionName => Performs.lift_bind fun key =>
      Performs.lift_bind fun value => Performs.change _
  | editSdp | editShader =>
    exact Performs.lift_bind fun text => Performs.lift_bind fun package =>
      performs_lookUp_bind fun binary => Performs.lift_bind fun shader => Performs.change _
  | setGmst | setGlobal =>
    exact performs_lookUp_bind fun plugin => Performs.lift_bind fun editorId =>
      Performs.lift_bind fun value => Performs.change _
  | setPluginByte | setPluginShort | setPluginInt | setPluginLong | setPluginFloat =>
    exact performs_writeValue _
  | editXmlLine =>
    exact performs_lookUp_bind fun file => Performs.lift_bind fun text =>
      Performs.lift_bind fun index => Performs.lift_bind fun value => Performs.change _
  | editXmlReplace =>
    exact performs_lookUp_bind fun file => Performs.lift_bind fun find =>
      Performs.lift_bind fun replace => Performs.change _
  | patchPlugin | patchDataFile =>
    exact performs_lookUp_bind fun source => performs_outputPath_bind fun output =>
      Performs.lift_bind fun create => Performs.change _
  | registerBsa | unregisterBsa => exact Performs.lift_bind fun name => Performs.change _
  | message => exact Performs.lift_bind fun text => Performs.perform (.message text _)
  | displayImage => exact performs_lookUp_bind fun e => Performs.perform (.showImage _ _)
  | displayText => exact performs_displayText
  | inputString => exact Performs.lift_bind fun name => Performs.perform (.input name _ _)
  | getFolderName | getDirectoryName | getFileName | getFileNameWithoutExtension =>
    exact Performs.lift_bind fun name => Performs.lift_bind fun path => Performs.assign name _
  | combinePaths =>
    exact Performs.lift_bind fun name => Performs.lift_bind fun first =>
      Performs.lift_bind fun rest => Performs.assign name _
  | substring | removeString =>
    exact Performs.lift_bind fun parts => Performs.lift_bind fun name => Performs.assign name _
  | stringLength =>
    exact Performs.lift_bind fun name => Performs.lift_bind fun text => Performs.assign name _
  | iSet => exact performs_compute fun e => (Expr.evalInt e).map Number.textOfInt
  | fSet => exact performs_compute fun e => (Expr.evalReal e).map Number.textOfDouble
  | readIni =>
    exact Performs.lift_bind fun name => Performs.lift_bind fun sectionName =>
      Performs.lift_bind fun key => Performs.perform (.readIni name sectionName key)
  | readRendererInfo =>
    exact Performs.lift_bind fun name => Performs.lift_bind fun key =>
      Performs.perform (.readRenderer name key)
  | allowRunOnLines => exact Performs.perform (.note _)
  | _ => exact Performs.fail _

end Performs

variable {σ : Type} (ctx : Context σ) (line : Nat) {kind : Keyword} {values : List String}
  {s : Session σ}

/-- Carrying a statement out is performing what it is settled to. -/
theorem carryOut_eq (kind : Keyword) (values : List String) : carryOut ctx line kind values = (do
    let s ← get
    let effect ← Exec.lift line (interpret ctx.toSite s.plan line kind values)
    effect.perform ctx line : Exec σ Unit) :=
  Exec.ext fun s => performs_carryOut kind s

/-- So is running one, once values have been put in for its placeholders. -/
theorem run_eq (kind : Keyword) (args : List String) : Instruction.run ctx line kind args = (do
    let s ← get
    let values ← Exec.lift line (s.vars.substituteAll args)
    let effect ← Exec.lift line (interpret ctx.toSite s.plan line kind values)
    effect.perform ctx line : Exec σ Unit) := by
  refine Exec.ext fun s => ?_
  simp only [Instruction.run, carryOut_eq, Exec.run_bind, Exec.run_get]
  cases s.vars.substituteAll args with
  | error cause => rfl
  | ok values => rfl

theorem run_carryOut_ok {effect : Effect}
    (h : interpret ctx.toSite s.plan line kind values = .ok effect) :
    (carryOut ctx line kind values).run.run s = (effect.perform ctx line).run.run s := by
  rw [carryOut_eq, Exec.run_bind, Exec.run_get]
  dsimp only
  rw [h, Exec.run_bind, Exec.run_lift_ok]

theorem run_carryOut_change {changes : List Change}
    (h : interpret ctx.toSite s.plan line kind values = .ok (.change changes)) :
    (carryOut ctx line kind values).run.run s = (.ok (), s.change changes) :=
  run_carryOut_ok ctx line h

theorem run_carryOut_error {cause : RunCause}
    (h : interpret ctx.toSite s.plan line kind values = .error cause) :
    (carryOut ctx line kind values).run.run s = (.error (.run ⟨line, cause⟩), s) := by
  rw [carryOut_eq, Exec.run_bind, Exec.run_get]
  dsimp only
  rw [h, Exec.run_bind, Exec.run_lift_error]

end Instruction

end InstallScript
