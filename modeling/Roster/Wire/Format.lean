import Roster.Message
import Roster.Text

/-!
# Formats of values as bytes

A format writes values of a type as bytes and reads them back from the front
of a sequence, leaving the rest.  Numbers have a fixed width and start with
their lowest byte; text, byte sequences, lists and maps start with their
length as a number of eight bytes; a choice starts with the number of its
variant in four bytes.

Where no width would do, a number takes as many bytes as it needs: it is
written seven bits at a time, lowest first, and every byte but the last has
its high bit set.  A signed number is folded onto the unsigned ones, zero
first and then alternating in sign.
-/

namespace Roster.Wire

namespace Varint

def write (value : Nat) : Bytes :=
  if value < 128 then
    [UInt8.ofNat value]
  else
    UInt8.ofNat (value % 128 + 128) :: write (value / 128)
termination_by value

/-- The number at the front of bytes, if it takes at most `count` of them. -/
def readGroups : Nat → Bytes → Option (Nat × Bytes)
  | 0, _ => none
  | _ + 1, [] => none
  | count + 1, byte :: rest =>
      if byte < 128 then
        some (byte.toNat, rest)
      else do
        let (high, rest) ← readGroups count rest
        return (byte.toNat - 128 + 128 * high, rest)

/-- The number of at most `width` bits at the front of bytes. -/
def read (width : Nat) (bytes : Bytes) : Option (Nat × Bytes) :=
  (readGroups ((width + 6) / 7) bytes).filter fun (value, _) => value < 1 <<< width

def fold : Int → Nat
  | .ofNat value => 2 * value
  | .negSucc value => 2 * value + 1

def unfold (value : Nat) : Int :=
  if value % 2 = 0 then Int.ofNat (value / 2) else Int.negSucc (value / 2)

end Varint

inductive Fault where
  | cutText
  | cut
  | invalidText (fault : Text.Utf8Fault)
  | unknownVariant (number count : Nat)
  | invalidFlag (value : Nat)
  deriving DecidableEq, Repr

def Fault.message : Fault → String
  | .cutText => "io error: "
  | .cut => "io error: unexpected end of file"
  | .invalidText fault => "string is not valid utf8: " ++ fault.message
  | .unknownVariant number count =>
      "invalid value: integer `" ++ toString number ++
        "`, expected variant index 0 <= i < " ++ toString count
  | .invalidFlag value =>
      "invalid u8 while decoding bool, expected 0 or 1, found " ++ toString value

/-- How values of a type are written and read. -/
structure Format (α : Type) where
  write : α → Bytes
  read : Bytes → Except Fault (α × Bytes)

variable {α β : Type}

/-- The first bytes at an exact count, and the rest. -/
def splitAt? (count : Nat) (bytes : Bytes) : Option (Bytes × Bytes) :=
  let front := bytes.take count
  if front.length = count then some (front, bytes.drop count) else none

/-- The bytes of a number at a fixed width, lowest first. -/
def littleEndian : Nat → Nat → Bytes
  | 0, _ => []
  | width + 1, value => UInt8.ofNat value :: littleEndian width (value / 256)

/-- The number whose bytes are given, lowest first. -/
def ofLittleEndian : Bytes → Nat
  | [] => 0
  | byte :: rest => byte.toNat + 256 * ofLittleEndian rest

namespace Format

/-- A number of a fixed count of bytes. -/
def number (width : Nat) : Format Nat where
  write := littleEndian width
  read bytes :=
    match splitAt? width bytes with
    | some (front, rest) => .ok (ofLittleEndian front, rest)
    | none => .error .cut

def natural : Format Nat where
  write := Varint.write
  read bytes :=
    match Varint.readGroups bytes.length bytes with
    | some result => .ok result
    | none => .error .cut

/-- The same bytes, taken for values of another type. -/
def convert (format : Format α) (build : α → β) (parts : β → α) : Format β where
  write value := format.write (parts value)
  read bytes := do
    let (value, rest) ← format.read bytes
    return (build value, rest)

def pair (first : Format α) (second : Format β) : Format (α × β) where
  write value := first.write value.1 ++ second.write value.2
  read bytes := do
    let (left, bytes) ← first.read bytes
    let (right, rest) ← second.read bytes
    return ((left, right), rest)

def port : Format UInt16 :=
  (number 2).convert UInt16.ofNat UInt16.toNat

def word : Format UInt64 :=
  (number 8).convert UInt64.ofNat UInt64.toNat

/-- A truth value in one byte. -/
def flag : Format Bool where
  write value := [if value then 1 else 0]
  read
    | [] => .error .cut
    | byte :: rest =>
        if byte = 0 then .ok (false, rest)
        else if byte = 1 then .ok (true, rest)
        else .error (.invalidFlag byte.toNat)

def bytes : Format Bytes where
  write value := (number 8).write value.length ++ value
  read input := do
    let (count, input) ← (number 8).read input
    match splitAt? count input with
    | some content => return content
    | none => throw .cut

def utf8 (text : String) : Bytes :=
  text.toUTF8.data.toList

/-- Text after the count of its bytes, which is a number of a given format. -/
def textAfter (size : Format Nat) : Format String where
  write value := size.write (utf8 value).length ++ utf8 value
  read input := do
    let (count, input) ← size.read input
    match splitAt? count input with
    | none => throw .cutText
    | some (content, rest) =>
        match String.fromUTF8? ⟨content.toArray⟩ with
        | some value => return (value, rest)
        | none => throw (.invalidText (Text.utf8Fault 0 content))

/-- Text after the count of its bytes. -/
def text : Format String :=
  textAfter (number 8)

/-- Read an exact count of values. -/
def readMany (format : Format α) : Nat → Bytes → Except Fault (List α × Bytes)
  | 0, input => .ok ([], input)
  | count + 1, input => do
      let (value, input) ← format.read input
      let (values, rest) ← readMany format count input
      return (value :: values, rest)

/-- Values after their count, which is a number of a given format. -/
def listAfter (size : Format Nat) (format : Format α) : Format (List α) where
  write values := size.write values.length ++ values.flatMap format.write
  read input := do
    let (count, input) ← size.read input
    readMany format count input

/-- Values after their count. -/
def list (format : Format α) : Format (List α) :=
  listAfter (number 8) format

/-- Entries after their count.  They may be read in any order; of two with
one key the later counts. -/
def map (format : Format α) : Format (SortedMap String α) :=
  (list (pair text format)).convert SortedMap.ofList SortedMap.entries

end Format

end Roster.Wire
