import InstallScript.Version

/-!
Reading the command line. Options can stand before and after other words, a double hyphen ends
them, and short options can be written together. A value is the next word or is attached to its
option, and a next word that looks like an option is no value.
-/

namespace InstallScript.Tool

/-- What an option takes: nothing, nothing but it may be repeated, or a value. Paths are never
    empty. -/
inductive Takes where
  | nothing
  | count
  | path
  | text
  | help
  | version
  deriving DecidableEq, Repr

/-- An option, with the letter it may be shortened to. -/
structure OptionSpec where
  name : String
  letter : Option Char
  takes : Takes
  deriving DecidableEq, Repr

/-- Why reading the command line stops early. -/
inductive Stop where
  | misuse
  | help
  | version
  deriving DecidableEq, Repr

/-- What has been read: values of options, flags that are set, how often more logs were asked for,
    and the other words. -/
structure Given where
  values : List (String × String) := []
  flags : List String := []
  verbosity : Nat := 0
  words : List String := []
  deriving DecidableEq, Repr

namespace Given

/-- Sets the value of an option, which cannot have one already. -/
def addValue (g : Given) (spec : OptionSpec) (value : String) : Except Stop Given :=
  if (g.values.lookup spec.name).isSome || (spec.takes == .path && value.isEmpty) then
    .error .misuse
  else .ok { g with values := (spec.name, value) :: g.values }

/-- Sets an option that takes no value. -/
def addFlag (g : Given) (spec : OptionSpec) : Except Stop Given :=
  match spec.takes with
  | .help => .error .help
  | .version => .error .version
  | .count => .ok { g with verbosity := g.verbosity + 1 }
  | _ =>
    if g.flags.contains spec.name then .error .misuse
    else .ok { g with flags := spec.name :: g.flags }

end Given

/-- The options of a command, the number of words it takes at most, and the commands below it. -/
structure Grammar where
  options : List OptionSpec
  words : Nat
  commands : List String
  deriving DecidableEq, Repr

/-- Whether an option takes a value. -/
def OptionSpec.takesValue (spec : OptionSpec) : Bool :=
  spec.takes == .path || spec.takes == .text

/-- Whether a word looks like an option, or like the end of the options. -/
def looksLikeOption (word : String) : Bool :=
  match word.toList with
  | '-' :: _ :: _ => true
  | _ => false

/-- An option that has been read, and still needs its value if one is named. -/
abbrev Pending := Given × Option OptionSpec

/-- Reads the letters of short options that are written together. -/
def readLetters (options : List OptionSpec) (g : Given) : List Char → Except Stop Pending
  | [] => .ok (g, none)
  | c :: rest =>
    match options.find? (·.letter == some c) with
    | none => .error .misuse
    | some spec =>
      if spec.takesValue then
        match rest with
        | [] => .ok (g, some spec)
        | '=' :: value => (g.addValue spec (String.ofList value)).map (·, none)
        | value => (g.addValue spec (String.ofList value)).map (·, none)
      else
        match g.addFlag spec with
        | .ok g => readLetters options g rest
        | .error stop => .error stop

/-- Reads a long option, without its hyphens. -/
def readLong (options : List OptionSpec) (g : Given) (text : List Char) : Except Stop Pending :=
  let name := String.ofList (text.takeWhile (· != '='))
  let attached := match text.dropWhile (· != '=') with
    | _ :: value => some (String.ofList value)
    | [] => none
  match options.find? (·.name == name) with
  | none => .error .misuse
  | some spec =>
    match spec.takesValue, attached with
    | true, some value => (g.addValue spec value).map (·, none)
    | true, none => .ok (g, some spec)
    | false, some _ => .error .misuse
    | false, none => (g.addFlag spec).map (·, none)

/-- Reads a word that looks like an option. -/
def readOption (options : List OptionSpec) (g : Given) (word : String) : Except Stop Pending :=
  match word.toList with
  | '-' :: '-' :: text => readLong options g text
  | '-' :: letters => readLetters options g letters
  | _ => .error .misuse

/-- What is left of a command line: nothing, or a command with its own words. -/
abbrev Rest := Given × Option (String × List String)

/-- Takes a word that is no option. -/
def Given.addWord (g : Given) (grammar : Grammar) (word : String) : Except Stop Given :=
  if g.words.length < grammar.words && !word.isEmpty then
    .ok { g with words := g.words ++ [word] }
  else .error .misuse

/-- Reads words of which none is an option. -/
def readPlain (grammar : Grammar) (g : Given) (words : List String) : Except Stop Given :=
  words.foldlM (fun g word => g.addWord grammar word) g

/-- Reads words up to the name of a command. -/
def readWords (grammar : Grammar) (g : Given) : List String → Except Stop Rest
  | [] => .ok (g, none)
  | "--" :: rest => (readPlain grammar g rest).map (·, none)
  | word :: rest =>
    if looksLikeOption word then
      match readOption grammar.options g word with
      | .error stop => .error stop
      | .ok (g, none) => readWords grammar g rest
      | .ok (g, some spec) =>
        match rest with
        | [] => .error .misuse
        | value :: rest =>
          if looksLikeOption value then .error .misuse
          else match g.addValue spec value with
            | .ok g => readWords grammar g rest
            | .error stop => .error stop
    else if grammar.commands.contains word then .ok (g, some (word, rest))
    else match g.addWord grammar word with
      | .ok g => readWords grammar g rest
      | .error stop => .error stop

/-- The option that asks for more logs, and the one that asks for help. -/
def commonOptions : List OptionSpec :=
  [⟨"verbose", some 'v', .count⟩, ⟨"help", some 'h', .help⟩]

/-- What can stand before a command. -/
def mainGrammar : Grammar where
  options := ⟨"version", some 'V', .version⟩ :: commonOptions
  words := 0
  commands := ["check", "run", "help"]

/-- What can follow `check`. -/
def checkGrammar : Grammar where
  options := ⟨"dump", none, .nothing⟩ :: commonOptions
  words := 1
  commands := []

/-- What can follow `run`. -/
def runGrammar : Grammar where
  options := [
    ⟨"dry-run", none, .nothing⟩, ⟨"obmm-version", none, .text⟩,
      ⟨"output", some 'o', .path⟩,
    ⟨"game-data", none, .path⟩, ⟨"obse", none, .text⟩, ⟨"obge", none, .text⟩,
    ⟨"oblivion", none, .text⟩, ⟨"ini", none, .path⟩, ⟨"renderer-info", none, .path⟩] ++
    commonOptions
  words := 2
  commands := []

/-- How a script is run: the script and the folder of the extracted package, and everything that
    options say about the run and about the game. -/
structure RunOptions where
  script : String
  package : String
  dryRun : Bool
  managerVersion : String
  output : Option String
  gameData : Option String
  scriptExtender : Option String
  graphicsExtender : Option String
  game : Option String
  ini : Option String
  rendererInfo : Option String
  deriving DecidableEq, Repr

/-- What the tool is asked to do. -/
inductive Task where
  | check (script : String) (dump : Bool)
  | run (options : RunOptions)
  deriving DecidableEq, Repr

/-- A task, and how many logs are wanted. -/
structure Invocation where
  verbosity : Nat
  task : Task
  deriving DecidableEq, Repr

/-- Reads what follows `check`. -/
def readCheck (words : List String) : Except Stop (Given × Task) := do
  let (g, _) ← readWords checkGrammar {} words
  match g.words with
  | [script] => .ok (g, .check script (g.flags.contains "dump"))
  | _ => .error .misuse

/-- Reads what follows `run`. -/
def readRun (words : List String) : Except Stop (Given × Task) := do
  let (g, _) ← readWords runGrammar {} words
  match g.words with
  | [script, package] => .ok (g, .run {
      script, package
      dryRun := g.flags.contains "dry-run"
      managerVersion := (g.values.lookup "obmm-version").getD Version.manager.text
      output := g.values.lookup "output"
      gameData := g.values.lookup "game-data"
      scriptExtender := g.values.lookup "obse"
      graphicsExtender := g.values.lookup "obge"
      game := g.values.lookup "oblivion"
      ini := g.values.lookup "ini"
      rendererInfo := g.values.lookup "renderer-info" })
  | _ => .error .misuse

/-- Reads a command line. How many logs are wanted is what the command's own options say, or else
    those before it. -/
def readArguments (args : List String) : Except Stop Invocation := do
  let (outer, command) ← readWords mainGrammar {} args
  let (inner, task) ← match command with
    | some ("check", words) => readCheck words
    | some ("run", words) => readRun words
    | some ("help", []) => .error .help
    | some ("help", [topic]) =>
      if mainGrammar.commands.contains topic then .error .help else .error .misuse
    | _ => .error .misuse
  pure ⟨if inner.verbosity = 0 then outer.verbosity else inner.verbosity, task⟩

end InstallScript.Tool
