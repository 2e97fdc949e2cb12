import InstallScript.Codec.Format
import InstallScript.Machine.Failure
import InstallScript.Number.Integer

/-!
Notices: a colored headline with labelled fields below it. Everything the tool tells its user is a
notice, errors included.
-/

namespace InstallScript

/-- The colors of headlines and labels. -/
inductive Color where
  | red
  | yellow
  | green
  | cyan
  | magenta
  deriving DecidableEq, Repr

namespace Color

/-- The terminal code that starts a color. -/
def code : Color → String
  | .red => "\x1b[31m"
  | .yellow => "\x1b[33m"
  | .green => "\x1b[32m"
  | .cyan => "\x1b[36m"
  | .magenta => "\x1b[35m"

/-- Writes a text bold and in a color. -/
def paint (c : Color) (text : String) : String :=
  "\x1b[1m" ++ c.code ++ text ++ "\x1b[0m"

end Color

/-- A headline, made of a tag and a header, and labelled fields. -/
structure Notice where
  color : Color
  tag : String
  header : String
  fields : List (String × String) := []
  deriving DecidableEq, Repr

/-- The common kinds of notices. -/
inductive NoticeKind where
  | error
  | warning
  | success
  | statistics
  | script
  deriving DecidableEq, Repr

namespace Notice

/-- A notice of a common kind. -/
def ofKind (kind : NoticeKind) (header : String) : Notice :=
  match kind with
  | .error => { color := .red, tag := "ERROR", header }
  | .warning => { color := .yellow, tag := "WARN", header }
  | .success => { color := .green, tag := "DONE", header }
  | .statistics => { color := .cyan, tag := "STATS", header }
  | .script => { color := .magenta, tag := "SCRIPT", header }

/-- Adds a field after the others. -/
def addField (n : Notice) (label content : String) : Notice :=
  { n with fields := n.fields ++ [(label, content)] }

/-- The content of the first field with a label. -/
def field? (n : Notice) (label : String) : Option String :=
  n.fields.lookup label

/-- The notice as it is shown, one line for the headline and one for each field. -/
def text (n : Notice) : String :=
  n.color.paint ("[" ++ n.tag ++ " - " ++ n.header ++ "]") ++ "\n" ++
    String.join (n.fields.map fun (label, content) =>
      n.color.paint ("  " ++ label ++ ": ") ++ content ++ "\n")

end Notice

/-- Tells the user why a script cannot be loaded. -/
def Script.LoadError.notice (e : Script.LoadError) : Notice :=
  let notice := (Notice.ofKind .error "Script Syntax").addField "Description" e.message
  match e.cause with
  | .unknownKeyword _ | .unknownCondition _ => notice.addField "Suggestion"
      "Check the spelling; keywords are not case-sensitive, but they must be exact."
  | .unterminatedQuote _ => notice.addField "Suggestion"
      "Close the quote, or end the line with '\\' to continue it on the next line."
  | .malformedSelect _ perOption _ =>
    notice.addField "Suggestion" s!"Every option needs exactly {perOption} arguments."
  | _ => notice

/-- Tells the user why a statement could not be carried out. -/
def RunError.notice (e : RunError) : Notice :=
  let notice := Notice.ofKind .error "Script Execution"
    |>.addField "Description" e.message
    |>.addField "Line" (Number.textOfNat e.line)
  match e.cause with
  | .undefinedVariable name =>
    notice.addField "Suggestion" s!"Set '{name}' with 'SetVar' before it is used."
  | .missingFile .plugin _ => notice.addField "Suggestion"
      "Make sure the OMOD was extracted completely, including its plugins."
  | .missingFile .data _ | .missingFolder _ => notice.addField "Suggestion"
      "Make sure the OMOD was extracted completely, including its data files."
  | _ => notice

/-- Tells the user why a run did not come to a normal end. -/
def Failure.notice : Failure → Notice
  | .load error => error.notice
  | .run error => error.notice
  | .fatal line =>
    Notice.ofKind .warning "Install Aborted"
      |>.addField "Description" "The script stopped the install with 'FatalError'."
      |>.addField "Line" (Number.textOfNat line)
      |>.addField "Note" "This was requested by the mod's author; nothing will be installed."
  | .cancelled line =>
    Notice.ofKind .warning "Install Cancelled"
      |>.addField "Description" "A dialog was cancelled, so the install was stopped."
      |>.addField "Line" (Number.textOfNat line)

/-- What kept the tool from using a file, as far as the user can do something about it. -/
inductive AccessKind where
  | notFound
  | permissionDenied
  | other
  deriving DecidableEq, Repr

/-- A file that could not be used. -/
structure AccessError where
  kind : AccessKind
  message : String
  deriving DecidableEq, Repr

/-- Tells the user that a file could not be used. -/
def AccessError.notice (e : AccessError) : Notice :=
  let notice := Notice.ofKind .error "IO"
  match e.kind with
  | .notFound =>
    notice
      |>.addField "Description" "Omodcrab tried to access a file that doesn't exist."
      |>.addField "Suggestion"
        "Check the paths you passed, and make sure the OMOD was fully extracted."
  | .permissionDenied =>
    notice
      |>.addField "Description"
        "Omodcrab tried to access a file, but it didn't have the right permissions."
      |>.addField "Suggestion" "Ensure you can read the script and the extracted OMOD folders."
  | .other =>
    notice
      |>.addField "Description" "An unknown error has occurred!"
      |>.addField "Details" e.message

/-- A disk fault as an access error. -/
def DiskFault.toAccessError (fault : DiskFault) : AccessError :=
  ⟨if fault = .notFound then .notFound else .other, fault.message⟩

/-- Why the tool could not do its job. -/
inductive ToolError where
  | access (error : AccessError)
  | codec (fault : Codec.Fault)
  | script (failure : Failure)
  | custom (notice : Notice)
  | unknown (reason : String)
  deriving DecidableEq, Repr

namespace ToolError

/-- The error in words. -/
def message : ToolError → String
  | .access error => error.message
  | .codec fault => fault.message
  | .script failure => failure.message
  | .custom notice => notice.text
  | .unknown reason => reason

/-- Tells the user about the error. -/
def notice : ToolError → Notice
  | .access error => error.notice
  | .codec fault =>
    Notice.ofKind .error "(De)serialization"
      |>.addField "Description" "Failed to save or load an install plan."
      |>.addField "Details" fault.message
  | .script failure => failure.notice
  | .custom notice => notice
  | .unknown reason =>
    Notice.ofKind .error "Unknown"
      |>.addField "Message" "An unknown error has occurred!"
      |>.addField "Details" reason

end ToolError

end InstallScript
