/-!
Cutting texts into pieces at separators, and putting pieces back together.
-/

namespace InstallScript.Text

/-- The pieces between the characters that satisfy `sep`. There is always at least one piece, and a
    separator at an end of the text has an empty piece beside it. -/
def splitAt (sep : Char → Bool) : List Char → List (List Char)
  | [] => [[]]
  | c :: rest =>
    match sep c, splitAt sep rest with
    | true, pieces => [] :: pieces
    | false, piece :: pieces => (c :: piece) :: pieces
    | false, [] => [[c]]

/-- `splitAt` on strings. -/
def pieces (sep : Char → Bool) (s : String) : List String :=
  (splitAt sep s.toList).map String.ofList

/-- The parts before and after the first occurrence of a character. -/
def splitOnce (sep : Char) : List Char → Option (List Char × List Char)
  | [] => none
  | c :: rest =>
    if c = sep then some ([], rest)
    else (splitOnce sep rest).map fun (before, after) => (c :: before, after)

/-- The parts before and after the last occurrence of a character. -/
def splitLast (sep : Char) (cs : List Char) : Option (List Char × List Char) :=
  (splitOnce sep cs.reverse).map fun (after, before) => (before.reverse, after.reverse)

/-- Removes one carriage return at the end of a line. -/
def dropReturn (cs : List Char) : List Char :=
  match cs.reverse with
  | '\r' :: rest => rest.reverse
  | _ => cs

/-- The lines of a text. A line ends in a line feed, with or without a carriage return before it;
    a text that ends in a line feed has no empty line after it. -/
def lines (cs : List Char) : List (List Char) :=
  match (splitAt (· == '\n') cs).reverse with
  | [] => []
  | last :: ended =>
    let closed := ended.reverse.map dropReturn
    if last.isEmpty then closed else closed ++ [last]

/-- The pieces with a separator between each two. -/
def joinWith (sep : List Char) : List (List Char) → List Char
  | [] => []
  | [piece] => piece
  | piece :: rest => piece ++ sep ++ joinWith sep rest

/-- A decimal number, padded with blanks on the left to at least `width` characters. -/
def padLeft (width : Nat) (text : String) : String :=
  String.ofList (List.replicate (width - text.length) ' ') ++ text

end InstallScript.Text
