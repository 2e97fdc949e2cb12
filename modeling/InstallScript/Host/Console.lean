import InstallScript.Disk.Basic
import InstallScript.Host.Basic
import InstallScript.Notice
import InstallScript.Text.Lower

/-!
A host that asks its questions on a terminal. What it knows of the user's game it has been told
beforehand. An answer is one line of the input, so questions that are asked again come to an end
with the input.
-/

namespace InstallScript

open Text

/-- What is known about the game that a script installs into: the folder of its data files, the
    versions of its extenders and its own, and the texts of its INI and renderer info files. -/
structure GameFacts where
  dataFolder : Option String := none
  scriptExtender : Option Version := none
  graphicsExtender : Option Version := none
  game : Version := .game
  ini : Option String := none
  rendererInfo : Option String := none
  deriving DecidableEq, Repr

/-- The value of a key from a line of an INI file, which may end in a comment. -/
def iniEntry? (key : String) (line : List Char) : Option String :=
  match splitOnce '=' line with
  | some (name, value) =>
    if sameName (String.ofList (trim name)) key then
      some (String.ofList (trim (value.takeWhile (· != ';'))))
    else none
  | none => none

/-- The name in a line that starts a section of an INI file. -/
def iniSection? (line : List Char) : Option String :=
  match line with
  | '[' :: rest =>
    match rest.reverse with
    | ']' :: name => some (String.ofList (trim name.reverse))
    | _ => none
  | _ => none

/-- Finds a key in the lines of an INI file, where `inside` tells whether they start in the section
    that is wanted. -/
def iniSearch (sectionName key : String) (inside : Bool) : List (List Char) → Option String
  | [] => none
  | line :: rest =>
    match iniSection? line with
    | some name => iniSearch sectionName key (sameName name sectionName) rest
    | none =>
      match if inside then iniEntry? key line else none with
      | some value => some value
      | none => iniSearch sectionName key inside rest

/-- The value of a key in a section of an INI file. -/
def iniValue (ini sectionName key : String) : Option String :=
  iniSearch sectionName key false ((lines ini.toList).map trim)

/-- The value of a key in a renderer info file, whose lines have a colon between key and value. -/
def rendererValue (info key : String) : Option String :=
  (lines info.toList).findSome? fun line =>
    match splitOnce ':' line with
    | some (name, value) =>
      if sameName (String.ofList (trim name)) key then some (String.ofList (trim value)) else none
    | none => none

/-- The input of a terminal: what has not been read yet, and whether more was wanted than there
    was. -/
structure Console where
  input : List UInt8
  starved : Bool := false
  deriving DecidableEq, Repr

namespace Console

/-- The first line of some bytes with its line feed, and what follows it. -/
def splitLine : List UInt8 → List UInt8 × List UInt8
  | [] => ([], [])
  | b :: rest =>
    if b = 10 then ([b], rest)
    else
      let (line, after) := splitLine rest
      (b :: line, after)

theorem length_splitLine (bytes : List UInt8) :
    (splitLine bytes).1.length + (splitLine bytes).2.length = bytes.length := by
  induction bytes with
  | nil => rfl
  | cons b rest ih =>
    rw [splitLine]
    split
    · simp only [List.length_cons, List.length_nil]
      omega
    · simp only [List.length_cons]
      omega

theorem splitLine_cons_lt (b : UInt8) (rest : List UInt8) :
    (splitLine (b :: rest)).2.length < (b :: rest).length := by
  have h := length_splitLine rest
  rw [splitLine]
  split
  · simp
  · simp only [List.length_cons]
    omega

/-- A line without the line feeds and carriage returns at its end. -/
def withoutLineEnd (line : String) : String :=
  String.ofList (line.toList.reverse.dropWhile fun c => c == '\n' || c == '\r').reverse

/-- Decodes a line, which has to be valid UTF-8. -/
def decodeLine (line : List UInt8) : Except String String :=
  match decodeUtf8 line with
  | .ok text => .ok (withoutLineEnd text)
  | .error _ => .error DiskFault.notText.message

/-- Reads a line. At the end of the input there is none. -/
def readLine : HostCall Console (Option String) := fun c =>
  match c.input with
  | [] => ⟨.ok none, { c with starved := true }, []⟩
  | b :: rest =>
    let (line, after) := splitLine (b :: rest)
    ⟨(decodeLine line).map some, { c with input := after }, []⟩

/-- Writes a message and reads a line. -/
def promptLine (message : String) : HostCall Console (Option String) := fun c =>
  let reply := readLine c
  { reply with events := .output message :: reply.events }

/-- What is said when there is no input left to answer a question. -/
def closedMessage : String :=
  "Standard input was closed while the script was waiting for an answer."

/-- Asks for a line, without white space around it. -/
def ask (message : String) : HostCall Console String := fun c =>
  let reply := promptLine message c
  let answer := match reply.answer with
    | .ok (some line) => .ok (trimmed line)
    | .ok none => .error closedMessage
    | .error reason => .error reason
  ⟨answer, reply.state, reply.events⟩

theorem length_input_ask {message text : String} {c : Console}
    (h : (ask message c).answer = .ok text) :
    (ask message c).state.input.length < c.input.length := by
  obtain ⟨input, starved⟩ := c
  cases input with
  | nil => simp [ask, promptLine, readLine] at h
  | cons b rest => exact splitLine_cons_lt b rest

/-- Asks until an answer is understood. What is not understood may be commented on. -/
def askUntil (message : String) (understand : String → Except String α) (c : Console) :
    Reply Console α :=
  match _h : (ask message c).answer with
  | .error reason => ⟨.error reason, (ask message c).state, (ask message c).events⟩
  | .ok text =>
    match understand text with
    | .ok a => ⟨.ok a, (ask message c).state, (ask message c).events⟩
    | .error comment =>
      let reply := askUntil message understand (ask message c).state
      { reply with events := (ask message c).events ++ .output comment :: reply.events }
termination_by c.input.length
decreasing_by exact length_input_ask _h

/-- Understands the answer to a yes-or-no question. -/
def readDialog (text : String) : Except String DialogAnswer :=
  match lower text with
  | "y" | "yes" => .ok .yes
  | "n" | "no" => .ok .no
  | "c" | "cancel" => .ok .cancel
  | _ => .error ""

/-- Understands one option of a selection: a number from one to `count`. -/
def readChoice (count : Nat) (word : List Char) : Except String Nat :=
  let refused :=
    let shown := String.ofList word
    Except.error s!"'{shown}' is not a number between 1 and {count}."
  match (Number.Range.unsigned 64).read word with
  | some n => if 1 ≤ n.toNat ∧ n.toNat ≤ count then .ok (n.toNat - 1) else refused
  | none => refused

/-- Understands the options of a selection, with commas or blanks between them. An option that is
    named twice is picked once. -/
def readChoices (count : Nat) (text : String) : Except String (List Nat) := do
  let words := (splitAt (fun c => c == ',' || c == ' ') text.toList).filter (!·.isEmpty)
  let picked ← words.mapM (readChoice count)
  pure picked.eraseDups

/-- Understands the answer to a prompt. The empty answer keeps the options picked by default. -/
def readSelection (prompt : Prompt) (text : String) : Except String (List Nat) :=
  let picked := if text.isEmpty then .ok prompt.preselected else
    readChoices prompt.items.length text
  match picked with
  | .ok picked =>
    if prompt.isMulti || picked.length == 1 then .ok picked
    else .error "Please pick exactly one option.\n"
  | .error reason => .error (reason ++ "\n")

/-- The lines that show an option of a prompt. -/
def showOption (prompt : Prompt) (index : Nat) (item : String) : String :=
  let marker := if prompt.preselected.contains index then "*" else " "
  let number := padLeft 3 (Number.textOfNat (index + 1))
  let description := match prompt.descriptions.bind (·[index]?) with
    | some text => if text.isEmpty then "" else "        " ++ text ++ "\n"
    | none => ""
  let preview := match prompt.previews.bind (·[index]?) with
    | some (some path) => "        preview: " ++ path ++ "\n"
    | _ => ""
  " " ++ marker ++ number ++ ". " ++ item ++ "\n" ++ description ++ preview

/-- The lines that show the options of a prompt, where the first one has index `index`. -/
def showOptions (prompt : Prompt) (index : Nat) : List String → String
  | [] => ""
  | item :: rest => showOption prompt index item ++ showOptions prompt (index + 1) rest

/-- What a prompt shows before it asks. -/
def showPrompt (prompt : Prompt) : String :=
  let mode := if prompt.isMulti then "Select any number of options" else "Select one option"
  ((Notice.ofKind .script prompt.title).addField "Prompt" mode).text ++
    showOptions prompt 0 prompt.items

/-- A call that writes something and then goes on. -/
def showing (text : String) (call : HostCall Console α) : HostCall Console α := fun c =>
  let reply := call c
  { reply with events := .output text :: reply.events }

/-- A call that is answered without reading. -/
def knowing (answer : Except String α) : HostCall Console α := fun c => ⟨answer, c, []⟩

/-- A script's notice with a title, which has a default. -/
def titled (title : Option String) (default : String) : Notice :=
  Notice.ofKind .script (title.getD default)

/-- The prompt for a line of text. -/
def inputMessage (title : Option String) (initial : String) : String :=
  let title := title.getD "Input"
  if initial.isEmpty then s!"{title}: " else s!"{title} [{initial}]: "

/-- Asks for a line of text. The empty answer keeps the initial text. -/
def inputString (title : Option String) (initial : String) : HostCall Console String := fun c =>
  let reply := ask (inputMessage title initial) c
  { reply with answer := reply.answer.map fun text => if text.isEmpty then initial else text }

/-- Looks for a file in the game's data folder, and takes it to be missing if the folder is not
    known. -/
def dataFileExists (disk : Disk) (facts : GameFacts) (path : String) : HostCall Console Bool :=
  fun c =>
    match facts.dataFolder with
    | some folder => ⟨.ok (disk.holds (Path.onDisk folder (Path.forDisk path))), c, []⟩
    | none => ⟨.ok false, c,
        [.warn s!"No game data folder was given, so '{path}' is assumed to be missing."]⟩

/-- Looks a value up in the game's INI file. -/
def readIni (facts : GameFacts) (sectionName key : String) : Except String String :=
  match facts.ini with
  | none => .error "No Oblivion.ini was given, so 'ReadINI' can't be answered."
  | some ini =>
    match iniValue ini sectionName key with
    | some value => .ok value
    | none => .error s!"Oblivion.ini has no '{key}' in '[{sectionName}]'."

/-- Looks a value up in the game's renderer info file. -/
def readRendererInfo (facts : GameFacts) (key : String) : Except String String :=
  match facts.rendererInfo with
  | none => .error "No RendererInfo.txt was given, so 'ReadRendererInfo' can't be answered."
  | some info =>
    match rendererValue info key with
    | some value => .ok value
    | none => .error s!"RendererInfo.txt has no '{key}'."

/-- The host on a terminal. -/
def host (disk : Disk) (facts : GameFacts) : Host Console where
  message text title :=
    showing ((titled title "Message").addField "Message" text).text (knowing (.ok ()))
  dialogYesNo text title :=
    showing ((titled title "Question").addField "Question" text).text
      (askUntil "[y]es, [n]o, or [c]ancel: " readDialog)
  select prompt := showing (showPrompt prompt) (askUntil "Choose: " (readSelection prompt))
  inputString := inputString
  displayImage path title :=
    showing ((titled title "Image").addField "Image" path).text (knowing (.ok ()))
  displayText text title := showing ((titled title "Text").text ++ text ++ "\n") (knowing (.ok ()))
  dataFileExists := dataFileExists disk facts
  scriptExtenderVersion := knowing (.ok facts.scriptExtender)
  graphicsExtenderVersion := knowing (.ok facts.graphicsExtender)
  gameVersion := knowing (.ok facts.game)
  readIni sectionName key := knowing (readIni facts sectionName key)
  readRendererInfo key := knowing (readRendererInfo facts key)

/-- The version of a program file of the game, which a terminal never knows. -/
def pluginVersion (_name : String) : HostCall Console (Option Version) :=
  knowing (.ok none)

/-- The content of a file in the game's archives, which a terminal cannot read. -/
def extractArchived (archive : Option String) (path : String) : HostCall Console (List UInt8) :=
  knowing (.error (match archive with
    | some archive => s!"Can't read '{path}' from '{archive}': this host has no BSA support."
    | none => s!"Can't read '{path}' from the game's BSAs: this host has no BSA support."))

end Console

end InstallScript
