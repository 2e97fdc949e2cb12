import InstallScript.Host.Basic

/-!
A host that answers from lists prepared beforehand and keeps a record of the calls made.
-/

namespace InstallScript

/-- A call as it is recorded. -/
inductive CallRecord where
  | message (text : String) (title : Option String)
  | dialogYesNo (text : String) (title : Option String)
  | select (prompt : Prompt)
  | inputString (title : Option String) (initial : String)
  | displayImage (path : String) (title : Option String)
  | displayText (text : String) (title : Option String)
  | dataFileExists (path : String)
  | scriptExtenderVersion
  | graphicsExtenderVersion
  | gameVersion
  | readIni (sectionName key : String)
  | readRendererInfo (key : String)
  deriving DecidableEq, Repr

/-- The name of a call. -/
def CallRecord.name : CallRecord → String
  | .message .. => "message"
  | .dialogYesNo .. => "dialog_yes_no"
  | .select _ => "select"
  | .inputString .. => "input_string"
  | .displayImage .. => "display_image"
  | .displayText .. => "display_text"
  | .dataFileExists _ => "data_file_exists"
  | .scriptExtenderVersion => "script_extender_version"
  | .graphicsExtenderVersion => "graphics_extender_version"
  | .gameVersion => "oblivion_version"
  | .readIni .. => "read_ini"
  | .readRendererInfo _ => "read_renderer_info"

/-- Prepared answers, and the calls made so far, latest first. Calls named in `refused` fail. -/
structure Prepared where
  dialogs : List DialogAnswer := []
  selections : List (List Nat) := []
  inputs : List String := []
  existingFiles : List String := []
  scriptExtender : Option Version := none
  graphicsExtender : Option Version := none
  game : Version := .zero
  ini : List (String × String × String) := []
  renderer : List (String × String) := []
  refused : List String := []
  calls : List CallRecord := []

namespace Prepared

/-- Records a call, and answers it unless it is refused. -/
def answering (call : CallRecord) (answer : Prepared → Except String α × Prepared) :
    HostCall Prepared α := fun p =>
  let p := { p with calls := call :: p.calls }
  if p.refused.contains call.name then
    ⟨.error ("the host refused '" ++ call.name ++ "'"), p, []⟩
  else
    let (answer, p) := answer p
    ⟨answer, p, []⟩

/-- A value that was found, or an error. -/
def found (value : Option α) (fault : String) : Except String α :=
  match value with
  | some a => .ok a
  | none => .error fault

/-- The host that uses the prepared answers. -/
def host : Host Prepared where
  message text title := answering (.message text title) fun p => (.ok (), p)
  dialogYesNo text title := answering (.dialogYesNo text title) fun p =>
    match p.dialogs with
    | answer :: rest => (.ok answer, { p with dialogs := rest })
    | [] => (.error "no dialog answer queued", p)
  select prompt := answering (.select prompt) fun p =>
    match p.selections with
    | answer :: rest => (.ok answer, { p with selections := rest })
    | [] => (.error "no selection queued", p)
  inputString title initial := answering (.inputString title initial) fun p =>
    match p.inputs with
    | answer :: rest => (.ok answer, { p with inputs := rest })
    | [] => (.ok initial, p)
  displayImage path title := answering (.displayImage path title) fun p => (.ok (), p)
  displayText text title := answering (.displayText text title) fun p => (.ok (), p)
  dataFileExists path := answering (.dataFileExists path) fun p =>
    (.ok (p.existingFiles.contains path), p)
  scriptExtenderVersion := answering .scriptExtenderVersion fun p => (.ok p.scriptExtender, p)
  graphicsExtenderVersion := answering .graphicsExtenderVersion fun p => (.ok p.graphicsExtender, p)
  gameVersion := answering .gameVersion fun p => (.ok p.game, p)
  readIni sectionName key := answering (.readIni sectionName key) fun p =>
    let entry := p.ini.find? fun (s, k, _) => s == sectionName && k == key
    (found (entry.map (·.2.2)) "unknown INI value", p)
  readRendererInfo key := answering (.readRendererInfo key) fun p =>
    (found (p.renderer.lookup key) "unknown renderer value", p)

end Prepared

end InstallScript
