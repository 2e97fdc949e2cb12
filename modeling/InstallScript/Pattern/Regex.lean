import InstallScript.Pattern.Escape

/-!
Regular expressions, which are only checked: whether they are well formed, do not nest too deeply,
and stay within bounds when compiled. Of each part of a pattern only what these checks need is kept.
-/

namespace InstallScript.Pattern

/-- What is kept of a part of a pattern: how deeply it nests, about how many bytes it takes when
    compiled, whether it can be repeated, and whether it only matches the empty text. -/
structure Part where
  depth : Nat
  size : Nat
  isRepeatable : Bool := true
  isVoid : Bool := false
  deriving DecidableEq, Repr

/-- How deeply the parts of a pattern may nest. -/
def maxDepth : Nat := 250

/-- How many bytes a compiled pattern may take. -/
def maxSize : Nat := 10 * Nat.pow 2 20

namespace Part

/-- The bytes of one state of a compiled pattern. -/
def stateSize : Nat := 32

/-- About how large the set of all characters but a few is when compiled. -/
def wideSize : Nat := 450

/-- A place between characters. -/
def place : Part := { depth := 0, size := stateSize, isVoid := true }

/-- Flags for what follows. -/
def flags : Part := { depth := 0, size := 0, isRepeatable := false, isVoid := true }

/-- A single character. -/
def literal (c : Char) : Part := { depth := 0, size := stateSize * c.utf8Size }

/-- A set of characters. -/
def set (size : Nat) : Part := { depth := 0, size }

/-- The depth of parts that are next to each other. -/
def maxDepthOf (parts : List Part) : Nat :=
  parts.foldl (fun d p => max d p.depth) 0

/-- The size of parts that are next to each other. -/
def sizeOf (parts : List Part) : Nat :=
  parts.foldl (fun n p => n + p.size) 0

/-- Parts one after the other. A single one is that part. -/
def concat : List Part → Part
  | [] => { depth := 0, size := stateSize, isVoid := true }
  | [p] => p
  | parts => {
      depth := maxDepthOf parts + 1
      size := sizeOf parts
      isVoid := parts.all (·.isVoid) }

/-- Parts of which one is matched. A single one is that part. -/
def alternation : List Part → Part
  | [p] => p
  | parts => {
      depth := maxDepthOf parts + 1
      size := stateSize + sizeOf parts + 4 * parts.length
      isVoid := parts.all (·.isVoid) }

/-- A group. -/
def group (captures : Bool) (p : Part) : Part where
  depth := p.depth + 1
  size := p.size + if captures then 2 * stateSize else 0
  isVoid := p.isVoid

/-- A part that is repeated at least `least` times and at most `most` times, without a bound if
    there is none. The empty text is repeated once. -/
def repetition (p : Part) (least : Nat) (most : Option Nat) : Part :=
  let optional := p.size + stateSize + 8
  let size :=
    if p.isVoid then p.size
    else match most with
      | some most => least * p.size + (most - least) * optional
      | none => max 1 least * p.size + stateSize + 8
  { depth := p.depth + 1, size, isVoid := p.isVoid || most == some 0 }

end Part

/-- A part of a bracketed set, as far as it matters: how deeply it nests and its size. -/
structure SetPart where
  depth : Nat
  size : Nat
  deriving DecidableEq, Repr

namespace SetPart

/-- Parts next to each other. A single one is that part. -/
def union : List SetPart → SetPart
  | [] => ⟨0, 0⟩
  | [p] => p
  | parts =>
    ⟨parts.foldl (fun d p => max d p.depth) 0 + 1, parts.foldl (fun n p => n + p.size) 0⟩

/-- An operation on two parts. -/
def combine (left : Option SetPart) (right : SetPart) : SetPart :=
  match left with
  | some left => ⟨max left.depth right.depth + 1, left.size + right.size⟩
  | none => right

/-- A range of characters. -/
def range (hi : Char) : SetPart :=
  ⟨0, if hi.toNat < 0x80 then 8 else 100⟩

end SetPart

namespace Read

/-- The names of sets of ASCII characters. -/
def asciiNames : List String := [
  "alnum", "alpha", "ascii", "blank", "cntrl", "digit", "graph", "lower", "print", "punct", "space",
  "upper", "word", "xdigit"]

/-- Reads a named set of ASCII characters, if one comes next, and gives whether it is negated. -/
def asciiSet? : Read (Option Bool) := do
  let s ← get
  match s.rest with
  | '[' :: ':' :: inner =>
    let (negated, inner) := match inner with
      | '^' :: rest => (true, rest)
      | rest => (false, rest)
    let name := inner.takeWhile (· != ':')
    match inner.drop name.length with
    | ':' :: ']' :: rest =>
      if asciiNames.contains (String.ofList name) then
        set { s with rest }
        pure (some negated)
      else pure none
    | _ => pure none
  | _ => pure none

/-- Reads a character or an escape inside brackets. -/
def setAtom : Read Atom := do
  let c ← current
  if c = '\\' then escape
  else
    bump
    pure (.literal c false)

/-- A character inside brackets. Without Unicode it has to be an ASCII character. -/
def setLiteral : Atom → Read Char
  | .literal c _ => do if (← get).unicode || c.toNat < 0x80 then pure c else failure
  | _ => failure

/-- Reads a character, a range of characters or a set inside brackets. A hyphen before the closing
    bracket or before another hyphen does not make a range. -/
def setItem : Read SetPart := do
  let first ← setAtom
  settle
  let c ← current
  let after ← peekSettled
  if c != '-' || after == some ']' || after == some '-' then
    match first with
    | .set size => pure ⟨0, size⟩
    | atom => do pure (.range (← setLiteral atom))
  else
    next
    let second ← setAtom
    let lo ← setLiteral first
    let hi ← setLiteral second
    if lo ≤ hi then pure (.range hi) else failure

/-- Reads the hyphens that come first inside brackets, which stand for themselves. -/
def leadingHyphens : Read (List SetPart) := do
  let hyphens ← takeWhile (· == '-')
  pure (hyphens.map SetPart.range)

/-- Reads an operator between sets. -/
def setOperator : Read Bool := do
  (bumpIf ['&', '&'] <||> bumpIf ['-', '-'] <||> bumpIf ['~', '~'])

mutual

/-- Reads a bracketed set, whose opening bracket comes next. A closing bracket that comes first
    stands for itself. Without Unicode a negated set would hold bytes that are no characters. -/
def bracketed : Nat → Read SetPart
  | 0 => failure
  | fuel + 1 => do
    next
    let negated := (← peek) == some '^'
    if negated then next
    let hyphens ← leadingHyphens
    let closing ← if hyphens.isEmpty && (← peek) == some ']' then do
        next
        pure [SetPart.range ']']
      else pure []
    let inner ← setItems fuel none (hyphens ++ closing)
    if negated && !(← get).unicode then failure
    pure ⟨inner.depth + 1, inner.size + if negated then Part.wideSize else 0⟩

/-- Reads the rest of a bracketed set, after the left side of an operator, if there is one, and
    some items. -/
def setItems : Nat → Option SetPart → List SetPart → Read SetPart
  | 0, _, _ => failure
  | fuel + 1, left, items => do
    settle
    let c ← current
    if c = '[' then
      match ← asciiSet? with
      | some negated =>
        if negated && !(← get).unicode then failure
        setItems fuel left (items ++ [⟨0, 64⟩])
      | none =>
        let inner ← bracketed fuel
        setItems fuel left (items ++ [inner])
    else if c = ']' then
      bump
      pure (.combine left (.union items))
    else if ← setOperator then setItems fuel (some (.combine left (.union items))) []
    else
      let item ← setItem
      setItems fuel left (items ++ [item])

end

/-- How a group starts. -/
inductive Opening where
  | flags (flags : List (Char × Bool))
  | group (captures : Bool) (flags : List (Char × Bool))

/-- Reads the start of a group, whose parenthesis comes next. There is no looking ahead or behind,
    and flags that are set for what follows are not empty. -/
def opening : Read Opening := do
  next
  let lookaround := [['?', '='], ['?', '!'], ['?', '<', '='], ['?', '<', '!']]
  if lookaround.any (·.isPrefixOf (← get).rest) then failure
  if ← (bumpIf ['?', 'P', '<'] <||> bumpIf ['?', '<']) then
    groupName
    pure (.group true [])
  else if ← bumpIf ['?'] then
    let flags ← flags
    let stop ← current
    bump
    if stop = ':' then pure (.group false flags)
    else if flags.isEmpty then failure
    else pure (.flags flags)
  else pure (.group true [])

/-- The part that a repetition applies to, which is the last one, and those before it. -/
def repeated : List Part → Read (Part × List Part)
  | part :: before => if part.isRepeatable then pure (part, before) else failure
  | [] => failure

/-- Reads the question mark that makes a repetition match as little as possible, if there is one. -/
def lazyMark : Read Unit := do
  if (← peek) = some '?' then bump

/-- Reads the bounds of a repetition, whose brace comes next. -/
def bounds : Read (Nat × Option Nat) := do
  next
  let _ ← current
  let least ← number
  let c ← current
  let range ← match least, c with
    | some least, ',' => do
      next
      if (← current) = '\x7d' then pure (least, none)
      else
        match ← number with
        | some most => if least ≤ most then pure (least, some most) else failure
        | none => failure
    | some least, _ => pure (least, some least)
    | none, _ => failure
  if (← current) = '\x7d' then
    next
    lazyMark
    pure range
  else failure

/-- Reads a part that is no composition. Without Unicode neither a byte beyond ASCII nor the set of
    all characters is allowed. -/
def atom : Read Part := do
  let c ← current
  match c with
  | '\\' =>
    match ← escape with
    | .literal c isByte =>
      if isByte && 0x80 ≤ c.toNat && !(← get).unicode then failure else pure (.literal c)
    | .set size => pure (.set size)
    | .place => pure .place
  | '.' => do
    bump
    if (← get).unicode then pure (.set Part.wideSize) else failure
  | '^' | '$' => do
    bump
    pure .place
  | c => do
    bump
    pure (.literal c)

/-- Reads alternatives up to the end of their group or of the pattern. `branches` holds the
    alternatives before this one and `parts` what this one has so far, both last first. Every round
    reads a character, so the length of the pattern is fuel enough. -/
def alternatives : Nat → List Part → List Part → Read Part
  | 0, _, _ => failure
  | fuel + 1, branches, parts => do
    settle
    let finished := Part.concat parts.reverse
    match ← peek with
    | none | some ')' => pure (.alternation (finished :: branches).reverse)
    | some '|' =>
      bump
      alternatives fuel (finished :: branches) []
    | some '(' =>
      match ← opening with
      | .flags flags =>
        setFlags flags
        alternatives fuel branches (.flags :: parts)
      | .group captures flags =>
        let inner ← withFlags flags (alternatives fuel [] [])
        let _ ← current
        bump
        alternatives fuel branches (.group captures inner :: parts)
    | some '[' =>
      let inner ← bracketed fuel
      alternatives fuel branches
        (⟨inner.depth, inner.size + Part.stateSize, true, false⟩ :: parts)
    | some '?' =>
      let (part, before) ← repeated parts
      bump
      lazyMark
      alternatives fuel branches (part.repetition 0 (some 1) :: before)
    | some '*' =>
      let (part, before) ← repeated parts
      bump
      lazyMark
      alternatives fuel branches (part.repetition 0 none :: before)
    | some '+' =>
      let (part, before) ← repeated parts
      bump
      lazyMark
      alternatives fuel branches (part.repetition 1 none :: before)
    | some '\x7b' =>
      let (part, before) ← repeated parts
      let (least, most) ← bounds
      alternatives fuel branches (part.repetition least most :: before)
    | some _ =>
      let part ← atom
      alternatives fuel branches (part :: parts)

end Read

end InstallScript.Pattern

namespace InstallScript.Regex

open Pattern

/-- Reads a pattern, all of which has to be read. -/
def read (pattern : String) : Option Part :=
  let rest := pattern.toList
  match (Read.alternatives (rest.length + 2) [] []).run { rest } with
  | some (part, s) => if s.rest.isEmpty then some part else none
  | none => none

/-- Whether a pattern can be used. -/
def isValid (pattern : String) : Bool :=
  match read pattern with
  | some part => part.depth ≤ maxDepth && part.size ≤ maxSize
  | none => false

end InstallScript.Regex
