import InstallScript.Text.Fold

/-!
Wildcards. In a pattern `*` stands for any number of characters and `?` for a single one, line feeds
excepted; every other character stands for itself, up to case.

A pattern is read from its end. For each piece of it there is a list of truth values, one for each
end part of the text, the whole text first and the empty one last: whether that part is accepted by
the pattern from this piece on. The work grows with the product of both lengths, however many `*`
there are.
-/

namespace InstallScript.Wildcard

/-- What a character of a pattern stands for: any number of characters, a single one, or a given
    one. -/
inductive Piece where
  | run
  | any
  | like (c : Char)
  deriving DecidableEq, Repr

namespace Piece

/-- Reads a character of a pattern. -/
def ofChar (c : Char) : Piece :=
  if c = '*' then .run else if c = '?' then .any else .like c

/-- Whether a piece takes a character of the text. -/
def takes : Piece → Char → Bool
  | .run, c | .any, c => c != '\n'
  | .like p, c => Text.fold p == Text.fold c

/-- Puts a single character in front of what accepts the end parts of a text. The empty part has no
    such character. -/
def single (takes : Char → Bool) : List Char → List Bool → List Bool
  | c :: cs, _ :: after => (takes c && after.headD false) :: single takes cs after
  | _, _ => [false]

/-- Puts any number of characters in front of what accepts the end parts of a text. -/
def many (takes : Char → Bool) : List Char → List Bool → List Bool
  | c :: cs, here :: after =>
    let rest := many takes cs after
    (here || (takes c && rest.headD false)) :: rest
  | _, after => after

/-- Puts a piece in front of what accepts the end parts of a text. -/
def before (p : Piece) (cs : List Char) (after : List Bool) : List Bool :=
  match p with
  | .run => many p.takes cs after
  | .any | .like _ => single p.takes cs after

end Piece

/-- The end parts of a text that the empty pattern accepts: only the empty one. -/
def atEnd (cs : List Char) : List Bool :=
  cs.map (fun _ => false) ++ [true]

/-- Whether a pattern matches the whole of a text. -/
def accepts (pattern cs : List Char) : Bool :=
  ((pattern.map Piece.ofChar).foldr (fun p after => p.before cs after) (atEnd cs)).headD false

end InstallScript.Wildcard
