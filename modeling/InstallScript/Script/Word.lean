import InstallScript.Text.Blank

/-!
Words of a line. White space separates them unless it stands between double quotes; quotes are
dropped, and a pair of quotes alone is an empty word.
-/

namespace InstallScript.Script

open Text

/-- Splits the rest of a line. `word` is the word being read, last character first, if there is
    one; `quoted` tells whether an odd number of quotes stand before. Fails if the quotes do not
    pair up. -/
def splitFrom (word : Option (List Char)) (quoted : Bool) : List Char → Option (List String)
  | [] =>
    if quoted then none
    else some (match word with
      | some cs => [String.ofList cs.reverse]
      | none => [])
  | c :: rest =>
    if c = '"' then splitFrom (some (word.getD [])) (!quoted) rest
    else if isBlank c && !quoted then
      match word with
      | some cs => (splitFrom none false rest).map (String.ofList cs.reverse :: ·)
      | none => splitFrom none false rest
    else splitFrom (some (c :: word.getD [])) quoted rest

/-- The words of a line, or `none` if a quote is never closed. -/
def splitWords (text : String) : Option (List String) :=
  splitFrom none false text.toList

/-- Writes a word so that it reads back: in quotes if it is empty or holds white space. -/
def quoteWord (word : String) : String :=
  if word.isEmpty || hasBlank word then "\"" ++ word ++ "\"" else word

end InstallScript.Script
