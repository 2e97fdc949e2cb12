import InstallScript.Text.Blank
import InstallScript.Text.Pieces

/-!
Logical lines. A physical line that ends in a backslash goes on in the next one; blank lines are
left out, and every line keeps the number of the physical line it starts on.
-/

namespace InstallScript.Script

open Text

/-- A logical line of a script. -/
structure Line where
  number : Nat
  text : String
  deriving DecidableEq, Repr

namespace Line

/-- The text of a comment line, which starts with a semicolon. -/
def comment (line : Line) : Option String :=
  match line.text.toList with
  | ';' :: rest => some (String.ofList (trim rest))
  | _ => none

/-- The contents of a physical line, and whether it goes on in the next one. -/
def contents (raw : List Char) : List Char × Bool :=
  match (trim raw).reverse with
  | '\\' :: rest => (trimEnd rest.reverse, true)
  | _ => (trim raw, false)

/-- Two contents with a single blank between them, unless one is empty. -/
def glue (a b : List Char) : List Char :=
  if a.isEmpty || b.isEmpty then a ++ b else a ++ ' ' :: b

/-- A line of its own, unless it is empty. -/
def emit (number : Nat) (text : List Char) : List Line :=
  if text.isEmpty then [] else [⟨number, String.ofList text⟩]

/-- Joins physical lines. The first of them has number `index`; `pending` holds the start of a line
    that goes on here. A line still pending at the end of the text ends there. -/
def joinFrom (index : Nat) (pending : Option (Nat × List Char)) : List (List Char) → List Line
  | [] =>
    match pending with
    | some (number, text) => emit number text
    | none => []
  | raw :: rest =>
    let (text, continues) := contents raw
    let (number, joined) := match pending with
      | some (number, start) => (number, glue start text)
      | none => (index, text)
    if continues then joinFrom (index + 1) (some (number, joined)) rest
    else emit number joined ++ joinFrom (index + 1) none rest

end Line

/-- Drops the byte-order mark that a text may start with. -/
def dropMark : List Char → List Char
  | '\uFEFF' :: rest => rest
  | cs => cs

/-- The logical lines of a script. -/
def logicalLines (script : String) : List Line :=
  Line.joinFrom 1 none (lines (dropMark script.toList))

end InstallScript.Script
