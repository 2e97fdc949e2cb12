/-!
Reading UTF-8. A byte sequence that is no UTF-8 is described by where it first goes wrong, and can
be read all the same with a replacement character for every faulty part.
-/

namespace InstallScript.Text

/-- Where a byte sequence stops being UTF-8. The faulty part has `length` bytes, or is cut short by
    the end of the input. -/
structure Utf8Fault where
  index : Nat
  length : Option Nat
  deriving DecidableEq, Repr

/-- What is wrong with the bytes, in words. -/
def Utf8Fault.message (f : Utf8Fault) : String :=
  match f.length with
  | some n => s!"invalid utf-8 sequence of {n} bytes from index {f.index}"
  | none => s!"incomplete utf-8 byte sequence from index {f.index}"

/-- What stands at the start of a byte sequence. -/
inductive Utf8Head where
  | char (c : Char) (size : Nat)
  | faulty (size : Nat)
  | incomplete
  deriving DecidableEq, Repr

/-- Whether a byte continues a character. -/
def isContinuation (b : UInt8) : Bool :=
  0x80 ≤ b && b ≤ 0xBF

/-- Whether `second` may follow the first byte of a character of three or four bytes. Overlong
    forms, surrogates and values above the last code point are ruled out here. -/
def secondFits (first second : UInt8) : Bool :=
  if first == 0xE0 then 0xA0 ≤ second && second ≤ 0xBF
  else if first == 0xED then 0x80 ≤ second && second ≤ 0x9F
  else if first == 0xF0 then 0x90 ≤ second && second ≤ 0xBF
  else if first == 0xF4 then 0x80 ≤ second && second ≤ 0x8F
  else isContinuation second

/-- The value of the bits that a continuation byte carries. -/
def payload (b : UInt8) : Nat :=
  b.toNat % 0x40

/-- Reads the first character of a byte sequence, or the largest faulty part at its start. -/
def utf8Head : List UInt8 → Option Utf8Head
  | [] => none
  | a :: rest => some <|
    if a < 0x80 then .char (Char.ofNat a.toNat) 1
    else if 0xC2 ≤ a && a ≤ 0xDF then
      match rest with
      | [] => .incomplete
      | b :: _ =>
        if isContinuation b then .char (Char.ofNat (a.toNat % 0x20 * 0x40 + payload b)) 2
        else .faulty 1
    else if 0xE0 ≤ a && a ≤ 0xEF then
      match rest with
      | [] => .incomplete
      | b :: rest =>
        if !secondFits a b then .faulty 1
        else match rest with
          | [] => .incomplete
          | c :: _ =>
            if isContinuation c then
              .char (Char.ofNat ((a.toNat % 0x10 * 0x40 + payload b) * 0x40 + payload c)) 3
            else .faulty 2
    else if 0xF0 ≤ a && a ≤ 0xF4 then
      match rest with
      | [] => .incomplete
      | b :: rest =>
        if !secondFits a b then .faulty 1
        else match rest with
          | [] => .incomplete
          | c :: rest =>
            if !isContinuation c then .faulty 2
            else match rest with
              | [] => .incomplete
              | d :: _ =>
                if isContinuation d then
                  .char (Char.ofNat
                    (((a.toNat % 0x8 * 0x40 + payload b) * 0x40 + payload c) * 0x40 + payload d)) 4
                else .faulty 3
    else .faulty 1

/-- Finds the first faulty part, where `index` bytes have already been read. -/
def utf8FaultFrom (index : Nat) (bytes : List UInt8) : Option Utf8Fault :=
  match bytes with
  | [] => none
  | b :: rest =>
    match utf8Head (b :: rest) with
    | none => none
    | some (.char _ size) => utf8FaultFrom (index + size) (rest.drop (size - 1))
    | some (.faulty size) => some ⟨index, some size⟩
    | some .incomplete => some ⟨index, none⟩
termination_by bytes.length
decreasing_by simp only [List.length_drop, List.length_cons]; omega

/-- Reads a byte sequence as UTF-8. -/
def decodeUtf8 (bytes : List UInt8) : Except Utf8Fault String :=
  match String.fromUTF8? ⟨bytes.toArray⟩ with
  | some s => .ok s
  | none => .error ((utf8FaultFrom 0 bytes).getD ⟨0, none⟩)

/-- Reads a byte sequence as UTF-8, with U+FFFD in place of every faulty part. -/
def decodeLossy (bytes : List UInt8) : List Char :=
  match bytes with
  | [] => []
  | b :: rest =>
    match utf8Head (b :: rest) with
    | none => []
    | some (.char c size) => c :: decodeLossy (rest.drop (size - 1))
    | some (.faulty size) => '\uFFFD' :: decodeLossy (rest.drop (size - 1))
    | some .incomplete => ['\uFFFD']
termination_by bytes.length
decreasing_by all_goals simp only [List.length_drop, List.length_cons]; omega

/-- The UTF-8 form of a text. -/
def encodeUtf8 (s : String) : List UInt8 :=
  s.toUTF8.data.toList

end InstallScript.Text
