import InstallScript.Path
import InstallScript.Script.Statement

/-!
What a host has to show for a prompting select.
-/

namespace InstallScript

open Text

/-- A list of options to pick from. A preview is the path of an image on the disk, and
    `preselected` holds the indices of the options that are picked by default. -/
structure Prompt where
  title : String
  items : List String
  previews : Option (List (Option String))
  descriptions : Option (List String)
  preselected : List Nat
  isMulti : Bool
  deriving DecidableEq, Repr

namespace Prompt

/-- The mark before an option that is picked by default. -/
def isMarked (item : String) : Bool :=
  match item.toList with
  | '|' :: _ => true
  | _ => false

/-- An option without its mark. -/
def unmarked (item : String) : String :=
  match item.toList with
  | '|' :: rest => String.ofList rest
  | _ => item

/-- The indices of the marked options, where the first has index `index`. -/
def markedFrom (index : Nat) : List String → List Nat
  | [] => []
  | item :: rest =>
    if isMarked item then index :: markedFrom (index + 1) rest else markedFrom (index + 1) rest

/-- The path of a preview. An empty name and `None` stand for no preview. -/
def previewPath (dataPath name : String) : Option String :=
  if name.isEmpty || sameName name "None" then none
  else some (Path.onDisk dataPath (Path.forDisk name))

/-- Builds a prompt from options that may be marked. -/
def ofOptions (title : String) (items : List String) (previews descriptions : Option (List String))
    (isMulti : Bool) (dataPath : String) : Prompt where
  title := title
  items := items.map unmarked
  previews := previews.map fun names => names.map (previewPath dataPath)
  descriptions := descriptions
  preselected := markedFrom 0 items
  isMulti := isMulti

end Prompt

end InstallScript
