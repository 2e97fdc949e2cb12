import InstallScript.Text.Blank
import InstallScript.Text.Letter
import InstallScript.Text.Numeral

/-!
Reading a pattern from left to right, and the small parts of a pattern: numbers, names of groups and
flags.
-/

namespace InstallScript.Pattern

open Text

/-- What has not been read of a pattern, and what the flags and groups before it have set up:
    whether white space and comments are skipped, whether characters are those of Unicode rather
    than bytes, and the names that groups have taken. -/
structure Scan where
  rest : List Char
  spaced : Bool := false
  unicode : Bool := true
  names : List (List Char) := []

/-- Reads from the front of a pattern, or fails because the pattern is malformed. -/
abbrev Read (α : Type) := StateT Scan Option α

/-- Skips white space and comments, which go from a hash sign to the end of their line. -/
def skipSpace (inComment : Bool) : List Char → List Char
  | [] => []
  | c :: rest =>
    if inComment then skipSpace (c != '\n') rest
    else if isBlank c then skipSpace false rest
    else if c = '#' then skipSpace true rest
    else c :: rest

namespace Read

/-- The next character, which is not read yet. -/
def peek : Read (Option Char) := do
  pure (← get).rest.head?

/-- Reads a character. -/
def bump : Read Unit :=
  modify fun s => { s with rest := s.rest.tail }

/-- Skips white space and comments, if the flags say so. -/
def settle : Read Unit :=
  modify fun s => if s.spaced then { s with rest := skipSpace false s.rest } else s

/-- Reads a character and what may be skipped after it. -/
def next : Read Unit := do
  bump
  settle

/-- The next character, which has to be there. -/
def current : Read Char := do
  match ← peek with
  | some c => pure c
  | none => failure

/-- The character after the next one and what may be skipped between them. -/
def peekSettled : Read (Option Char) := do
  let s ← get
  let rest := s.rest.tail
  pure (if s.spaced then (skipSpace false rest).head? else rest.head?)

/-- Reads a text if it comes next. -/
def bumpIf (text : List Char) : Read Bool := do
  let s ← get
  if text.isPrefixOf s.rest then
    set { s with rest := s.rest.drop text.length }
    pure true
  else pure false

/-- Reads characters as long as they satisfy a condition. After each one, what may be skipped is
    skipped. -/
def takeWhile (keep : Char → Bool) : Read (List Char) := do
  go (← get).rest.length
where
  /-- Reads at most `fuel` characters. -/
  go : Nat → Read (List Char)
    | 0 => pure []
    | fuel + 1 => do
      match ← peek with
      | some c =>
        if keep c then
          next
          pure (c :: (← go fuel))
        else pure []
      | none => pure []

/-- Skips white space whatever the flags say. -/
def skipBlanks : Read Unit :=
  modify fun s => { s with rest := s.rest.dropWhile isBlank }

/-- Reads a decimal number of at most 32 bits, with white space around it. Without digits there is
    none. -/
def number : Read (Option Nat) := do
  skipBlanks
  let digits ← takeWhile Char.isDigit
  skipBlanks
  if digits.isEmpty then pure none
  else
    let n := digits.foldl (fun n c => 10 * n + (c.toNat - '0'.toNat)) 0
    if n < Nat.pow 2 32 then pure (some n) else failure

/-- Whether a character may stand in the name of a group. -/
def isNameChar (first : Bool) (c : Char) : Bool :=
  c == '_' || isLetter c ||
    (!first && (c == '.' || c == '[' || c == ']' || isNumeral c))

/-- Whether a text may name a group. -/
def isName : List Char → Bool
  | [] => false
  | c :: rest => isNameChar true c && rest.all (isNameChar false)

/-- Reads the name of a group and the angle bracket after it. No two groups have one name. -/
def groupName : Read Unit := do
  let s ← get
  let name := s.rest.takeWhile (· != '>')
  if isName name && !s.names.contains name && name.length < s.rest.length then
    set { s with rest := s.rest.drop (name.length + 1), names := name :: s.names }
  else failure

/-- The flags a pattern can set. -/
def flagChars : List Char := ['i', 'm', 's', 'U', 'u', 'R', 'x']

/-- Reads flags up to a colon or a closing parenthesis, which is left. Those after a hyphen are
    turned off. Neither a flag nor the hyphen is repeated, and a flag follows the hyphen. -/
def flags : Read (List (Char × Bool)) := do
  let s ← get
  let text := s.rest.takeWhile fun c => c != ':' && c != ')'
  let listed := text.filter (· != '-')
  if text.length < s.rest.length && text.all (fun c => c == '-' || flagChars.contains c) &&
      decide text.Nodup && text.getLast? != some '-' then
    set { s with rest := s.rest.drop text.length }
    let on := text.takeWhile (· != '-')
    pure (listed.map fun c => (c, on.contains c))
  else failure

/-- Sets flags for what follows. -/
def setFlags (flags : List (Char × Bool)) : Read Unit :=
  modify fun s => { s with
    spaced := (flags.lookup 'x').getD s.spaced
    unicode := (flags.lookup 'u').getD s.unicode }

/-- Reads something, and then goes back to the flags of before. -/
def withFlags (flags : List (Char × Bool)) (inner : Read α) : Read α := do
  let before ← get
  setFlags flags
  let result ← inner
  modify fun s => { s with spaced := before.spaced, unicode := before.unicode }
  pure result

end Read

end InstallScript.Pattern
