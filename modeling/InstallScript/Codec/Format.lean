import InstallScript.OrderedMap
import InstallScript.Text.Utf8

/-!
A binary format without field names: fixed-width little-endian integers, lengths and tags before
what they count or select, and the fields of a record one after the other. A format pairs a writer
with a reader that takes its value from the front of the bytes.
-/

namespace InstallScript.Codec

/-- Why bytes cannot be read. -/
inductive Fault where
  | truncated
  | textTooLong
  | invalidText (fault : Text.Utf8Fault)
  | invalidBool (found : Nat)
  | invalidOption (found : Nat)
  | invalidTag (found count : Nat)
  deriving DecidableEq, Repr

/-- The fault in words. -/
def Fault.message : Fault → String
  | .truncated => "io error: unexpected end of file"
  | .textTooLong => "io error: "
  | .invalidText fault => "string is not valid utf8: " ++ fault.message
  | .invalidBool found => s!"invalid u8 while decoding bool, expected 0 or 1, found {found}"
  | .invalidOption found => s!"tag for enum is not valid, found {found}"
  | .invalidTag found count =>
    s!"invalid value: integer `{found}`, expected variant index 0 <= i < {count}"

/-- The bytes of a value, and the reading of a value from the front of some bytes. -/
structure Format (α : Type) where
  write : α → List UInt8
  read : List UInt8 → Except Fault (α × List UInt8)

namespace Format

/-- The `width` low bytes of a number, least significant first. -/
def littleEndian : Nat → Nat → List UInt8
  | 0, _ => []
  | width + 1, n => UInt8.ofNat (n % 256) :: littleEndian width (n / 256)

/-- The number that bytes denote, least significant first. -/
def ofLittleEndian : List UInt8 → Nat
  | [] => 0
  | b :: rest => b.toNat + 256 * ofLittleEndian rest

/-- A natural number of `width` bytes. -/
def word (width : Nat) : Format Nat where
  write n := littleEndian width n
  read bytes :=
    if bytes.length < width then .error .truncated
    else .ok (ofLittleEndian (bytes.take width), bytes.drop width)

/-- Reads a value through another one. -/
def imap (f : Format α) (forth : α → β) (back : β → α) : Format β where
  write b := f.write (back b)
  read bytes := do
    let (a, rest) ← f.read bytes
    return (forth a, rest)

/-- A byte. -/
def u8 : Format UInt8 := (word 1).imap UInt8.ofNat UInt8.toNat

/-- An unsigned word of four bytes. -/
def u32 : Format UInt32 := (word 4).imap UInt32.ofNat UInt32.toNat

/-- An unsigned word of eight bytes. -/
def u64 : Format UInt64 := (word 8).imap UInt64.ofNat UInt64.toNat

/-- A signed word of two bytes. -/
def i16 : Format Int16 := (word 2).imap (fun n => Int16.ofInt n) (fun v => v.toUInt16.toNat)

/-- A signed word of four bytes. -/
def i32 : Format Int32 := (word 4).imap (fun n => Int32.ofInt n) (fun v => v.toUInt32.toNat)

/-- A signed word of eight bytes. -/
def i64 : Format Int64 := (word 8).imap (fun n => Int64.ofInt n) (fun v => v.toUInt64.toNat)

/-- A truth value, in one byte. -/
def bool : Format Bool where
  write b := [if b then 1 else 0]
  read bytes := do
    let (n, rest) ← (word 1).read bytes
    if n = 0 then .ok (false, rest)
    else if n = 1 then .ok (true, rest)
    else .error (.invalidBool n)

/-- A text, after the number of its bytes. -/
def text : Format String where
  write s :=
    let bytes := Text.encodeUtf8 s
    (word 8).write bytes.length ++ bytes
  read bytes := do
    let (length, rest) ← (word 8).read bytes
    if rest.length < length then .error .textTooLong
    else
      match Text.decodeUtf8 (rest.take length) with
      | .ok s => .ok (s, rest.drop length)
      | .error fault => .error (.invalidText fault)

/-- Nothing, or a value; a byte tells which. -/
def option (f : Format α) : Format (Option α) where
  write
    | none => [0]
    | some a => 1 :: f.write a
  read bytes := do
    let (n, rest) ← (word 1).read bytes
    if n = 0 then .ok (none, rest)
    else if n = 1 then do
      let (a, rest) ← f.read rest
      return (some a, rest)
    else .error (.invalidOption n)

/-- Reads a number of values. -/
def readMany (f : Format α) : Nat → List UInt8 → Except Fault (List α × List UInt8)
  | 0, bytes => .ok ([], bytes)
  | count + 1, bytes => do
    let (a, bytes) ← f.read bytes
    let (as, bytes) ← readMany f count bytes
    return (a :: as, bytes)

/-- Values one after the other, after their number. -/
def list (f : Format α) : Format (List α) where
  write as := (word 8).write as.length ++ as.flatMap f.write
  read bytes := do
    let (count, bytes) ← (word 8).read bytes
    readMany f count bytes

/-- Two values, one after the other. -/
def pair (f : Format α) (g : Format β) : Format (α × β) where
  write ab := f.write ab.1 ++ g.write ab.2
  read bytes := do
    let (a, bytes) ← f.read bytes
    let (b, bytes) ← g.read bytes
    return ((a, b), bytes)

/-- A choice between `count` alternatives, given by its number. -/
def tag (count : Nat) : Format Nat where
  write n := (word 4).write n
  read bytes := do
    let (n, rest) ← (word 4).read bytes
    if n < count then .ok (n, rest) else .error (.invalidTag n count)

/-- One of a few values, written as its position among them. -/
def enum [DecidableEq α] [Inhabited α] (values : List α) : Format α :=
  (tag values.length).imap (fun n => values.getD n default) (fun a => values.idxOf a)

/-- The entries of a map, in their order. -/
def map (f : Format α) : Format (OrderedMap α) :=
  (list (pair text f)).imap OrderedMap.ofList OrderedMap.entries

/-- The names of a set, in their order. -/
def set : Format OrderedSet :=
  (list text).imap OrderedSet.ofList OrderedSet.names

/-- Reads a value from the front of some bytes, and ignores what follows. -/
def decode (f : Format α) (bytes : List UInt8) : Except Fault α :=
  (f.read bytes).map Prod.fst

end Format

end InstallScript.Codec
