import InstallScript.Host.Prompt
import InstallScript.Log
import InstallScript.Version

/-!
The host of a script: whoever shows its dialogs and knows the user's game. A script reaches the
screen and the game only through its host.
-/

namespace InstallScript

/-- The answer to a yes-or-no question. Closing the dialog cancels the install. -/
inductive DialogAnswer where
  | yes
  | no
  | cancel
  deriving DecidableEq, Repr

/-- What a host call gives back: an answer or the reason why there is none, the host's new state,
    and what happened meanwhile. -/
structure Reply (σ α : Type) where
  answer : Except String α
  state : σ
  events : List Event

/-- A call of a host whose state is a `σ`. -/
abbrev HostCall (σ α : Type) := σ → Reply σ α

/-- The calls a script can make. -/
structure Host (σ : Type) where
  message : String → Option String → HostCall σ Unit
  dialogYesNo : String → Option String → HostCall σ DialogAnswer
  select : Prompt → HostCall σ (List Nat)
  inputString : Option String → String → HostCall σ String
  displayImage : String → Option String → HostCall σ Unit
  displayText : String → Option String → HostCall σ Unit
  dataFileExists : String → HostCall σ Bool
  scriptExtenderVersion : HostCall σ (Option Version)
  graphicsExtenderVersion : HostCall σ (Option Version)
  gameVersion : HostCall σ Version
  readIni : String → String → HostCall σ String
  readRendererInfo : String → HostCall σ String

end InstallScript
