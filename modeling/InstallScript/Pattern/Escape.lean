import InstallScript.Pattern.Property
import InstallScript.Pattern.Reader

/-!
Escapes of a pattern: what a backslash starts.
-/

namespace InstallScript.Pattern

/-- A part of a pattern that is no composition: a character, a set of characters, or a place
    between characters. A character can be given as a byte, and a set has the size it takes when
    compiled. -/
inductive Atom where
  | literal (c : Char) (isByte : Bool)
  | set (size : Nat)
  | place
  deriving DecidableEq, Repr

namespace Read

/-- Whether a character has a meaning of its own in patterns. -/
def isMeta (c : Char) : Bool :=
  "\\.+*?()|[]\x7b\x7d^$#&-~".toList.contains c

/-- Whether a backslash before a character makes it stand for itself. -/
def isEscapable (c : Char) : Bool :=
  isMeta c || (c.toNat < 0x80 && !c.isAlphanum && c != '<' && c != '>')

/-- The value of a hexadecimal digit. -/
def hexValue? (c : Char) : Option Nat :=
  if c.isDigit then some (c.toNat - '0'.toNat)
  else if 'a' ≤ c ∧ c ≤ 'f' then some (c.toNat - 'a'.toNat + 10)
  else if 'A' ≤ c ∧ c ≤ 'F' then some (c.toNat - 'A'.toNat + 10)
  else none

/-- The character with a code in hexadecimal. -/
def ofHex (digits : List Char) : Read Char := do
  match digits.mapM hexValue? with
  | some (d :: values) =>
    let n := values.foldl (fun n v => 16 * n + v) d
    if n.isValidChar then pure (Char.ofNat n) else failure
  | _ => failure

/-- Reads a number of hexadecimal digits. -/
def hexDigits : Nat → Read (List Char)
  | 0 => pure []
  | count + 1 => do
    let c ← current
    if (hexValue? c).isSome then
      next
      pure (c :: (← hexDigits count))
    else failure

/-- Reads what stands between two braces, of which the first comes next. -/
def braced : Read (List Char) := do
  next
  let inner ← takeWhile (· != '\x7d')
  let _ ← current
  pure inner

/-- Reads the code of a character, after the letter that says how many digits it has. -/
def hexCode (letter : Char) : Read Atom := do
  next
  if (← current) = '\x7b' then
    let c ← ofHex (← braced)
    next
    pure (.literal c false)
  else
    let count := if letter = 'x' then 2 else if letter = 'u' then 4 else 8
    let c ← ofHex (← hexDigits count)
    pure (.literal c (letter == 'x'))

/-- The parts of a text before and after the first place where another one stands. -/
def cutAt (mark : List Char) : List Char → Option (List Char × List Char)
  | [] => none
  | c :: rest =>
    if mark.isPrefixOf (c :: rest) then some ([], (c :: rest).drop mark.length)
    else (cutAt mark rest).map fun (before, after) => (c :: before, after)

/-- Whether the text of a property selects characters: a name, or a name with a value. -/
def isProperty (text : List Char) : Bool :=
  match cutAt ['!', '='] text with
  | some (name, value) => Property.hasValue name value
  | none =>
    match cutAt [':'] text with
    | some (name, value) => Property.hasValue name value
    | none =>
      match cutAt ['='] text with
      | some (name, value) => Property.hasValue name value
      | none => Property.isKnown text

/-- About how large the set of characters with a property is when compiled. -/
def propertySize : Nat := 20000

/-- Reads the name of a property, after the letter that starts it. -/
def property : Read Atom := do
  next
  let c ← current
  let name ← if c = '\x7b' then do
      let name ← braced
      bump
      pure name
    else if c = '\\' then failure
    else do
      next
      pure [c]
  if isProperty name && (← get).unicode then pure (.set propertySize) else failure

/-- About how large a short-hand set is when compiled. -/
def shorthandSize (unicode : Bool) (c : Char) : Nat :=
  if !unicode then 64
  else if c.toLower = 'w' then 50000
  else if c.toLower = 'd' then 4500
  else 600

/-- Reads a short-hand set. Without Unicode, one in upper case would hold bytes that are no
    characters. -/
def shorthand (c : Char) : Read Atom := do
  bump
  let unicode := (← get).unicode
  if c.isUpper && !unicode then failure else pure (.set (shorthandSize unicode c))

/-- The kinds of word boundaries that are written in braces. -/
def boundaryNames : List String := ["start", "end", "start-half", "end-half"]

/-- Whether a character may stand in the name of a word boundary. -/
def isBoundaryChar (c : Char) : Bool :=
  c.isAlpha || c == '-'

/-- Reads the kind of a word boundary, if one follows. Braces that hold anything else are left for
    a repetition. -/
def boundaryKind : Read Unit := do
  if (← peek) = some '\x7b' then
    let before ← get
    next
    if isBoundaryChar (← current) then
      let name ← takeWhile isBoundaryChar
      if (← peek) = some '\x7d' && boundaryNames.contains (String.ofList name) then bump
      else failure
    else set before

/-- Reads what follows a backslash, which comes next. -/
def escape : Read Atom := do
  bump
  let c ← current
  if c.isDigit then failure
  else if c = 'x' ∨ c = 'u' ∨ c = 'U' then hexCode c
  else if c = 'p' ∨ c = 'P' then property
  else if "dswDSW".toList.contains c then shorthand c
  else
    bump
    if isEscapable c then pure (.literal c false)
    else
      match c with
      | 'a' => pure (.literal '\x07' false)
      | 'f' => pure (.literal '\x0c' false)
      | 't' => pure (.literal '\t' false)
      | 'n' => pure (.literal '\n' false)
      | 'r' => pure (.literal '\r' false)
      | 'v' => pure (.literal '\x0b' false)
      | 'b' => do
        boundaryKind
        pure .place
      | 'A' | 'z' | 'B' | '<' | '>' => pure .place
      | _ => failure

end Read

end InstallScript.Pattern
