/-!
# Texts

A text is cut at the first or at the last occurrence of a mark, or at all of
them; the mark itself belongs to no part.  White space is removed at both
ends.

Numbers are written in decimal without leading zeros.  They are read more
generously: one leading plus sign and any number of leading zeros are allowed,
and nothing else.

Text is carried as UTF-8.  The first fault of a sequence of bytes is either a
group that no continuation could mend, or a last group that lacks bytes.
-/

namespace Roster.Text

/-- The text before and after the first occurrence of a mark. -/
def splitFirst (mark : Char) : List Char → Option (List Char × List Char)
  | [] => none
  | c :: rest =>
      if c = mark then
        some ([], rest)
      else
        (splitFirst mark rest).map fun (front, back) => (c :: front, back)

def splitLast (mark : Char) : List Char → Option (List Char × List Char)
  | [] => none
  | c :: rest =>
      match splitLast mark rest with
      | some (front, back) => some (c :: front, back)
      | none => if c = mark then some ([], rest) else none

/-- The text before and after the first two marks that stand together. -/
def splitPair (mark : Char) : List Char → Option (List Char × List Char)
  | first :: second :: rest =>
      if first = mark ∧ second = mark then
        some ([], rest)
      else
        (splitPair mark (second :: rest)).map fun (front, back) => (first :: front, back)
  | _ => none

def splitAll (mark : Char) : List Char → List (List Char)
  | [] => [[]]
  | c :: rest =>
      match splitAll mark rest with
      | [] => [[c]]
      | part :: parts =>
          if c = mark then
            [] :: part :: parts
          else
            (c :: part) :: parts

/-- Remove characters of a class at the end of a text. -/
def dropEnd (removed : Char → Bool) (text : List Char) : List Char :=
  (text.reverse.dropWhile removed).reverse

/-- The character has the Unicode property `White_Space`. -/
def isBlank (c : Char) : Bool :=
  let code := c.toNat
  (0x09 ≤ code && code ≤ 0x0d) || code == 0x20 || code == 0x85 || code == 0xa0 ||
    code == 0x1680 || (0x2000 ≤ code && code ≤ 0x200a) || code == 0x2028 ||
    code == 0x2029 || code == 0x202f || code == 0x205f || code == 0x3000

def trim (text : List Char) : List Char :=
  dropEnd isBlank (text.dropWhile isBlank)

/-- The decimal digits of a number, most significant first. -/
def decimal (value : Nat) : List Char :=
  Nat.toDigits 10 value

/-- The value of a list of digits in the given base, read from the left. -/
def digitsValue (base : Nat) (digit : Char → Option Nat) :
    List Char → Option Nat :=
  fun text =>
    text.foldl
      (fun value c => do
        let front ← value
        let last ← digit c
        if last < base then some (base * front + last) else none)
      (some 0)

/-- The value of one hexadecimal digit of either case. -/
def hexDigit (c : Char) : Option Nat :=
  if c.isDigit then
    some (c.toNat - '0'.toNat)
  else if 'a' ≤ c ∧ c ≤ 'f' then
    some (c.toNat - 'a'.toNat + 10)
  else if 'A' ≤ c ∧ c ≤ 'F' then
    some (c.toNat - 'A'.toNat + 10)
  else
    none

/-- Read a nonempty run of digits of a base of at most sixteen, below `bound`. -/
def readDigits (base bound : Nat) (text : List Char) : Option Nat :=
  if text.isEmpty then
    none
  else
    (digitsValue base hexDigit text).filter (· < bound)

/-- Read a nonempty run of decimal digits whose value is below `bound`. -/
def readDecimal (bound : Nat) (text : List Char) : Option Nat :=
  if !text.isEmpty && text.all Char.isDigit then
    (some (Nat.ofDigitChars 10 text 0)).filter (· < bound)
  else
    none

/-- Read a decimal number below `bound` that may start with one plus sign. -/
def readUnsigned (bound : Nat) : List Char → Option Nat
  | '+' :: text => readDecimal bound text
  | text => readDecimal bound text

/-- The last sixteen hexadecimal digits of a number, in lower case. -/
def hex (width value : Nat) : List Char :=
  let digits := Nat.toDigits 16 value
  List.replicate (width - digits.length) '0' ++ digits

/-- The first place where a sequence of bytes stops being UTF-8. -/
inductive Utf8Fault where
  | invalid (length index : Nat)
  | incomplete (index : Nat)
  deriving DecidableEq, Repr

def Utf8Fault.message : Utf8Fault → String
  | .invalid length index =>
      "invalid utf-8 sequence of " ++ toString length ++ " bytes from index " ++
        toString index
  | .incomplete index =>
      "incomplete utf-8 byte sequence from index " ++ toString index

/-- The ranges that the bytes after a leading byte must lie in; nothing if the
byte leads no group. -/
def continuations (lead : UInt8) : Option (List (UInt8 × UInt8)) :=
  if lead < 0x80 then some []
  else if 0xc2 ≤ lead && lead ≤ 0xdf then some [(0x80, 0xbf)]
  else if lead == 0xe0 then some [(0xa0, 0xbf), (0x80, 0xbf)]
  else if lead == 0xed then some [(0x80, 0x9f), (0x80, 0xbf)]
  else if 0xe1 ≤ lead && lead ≤ 0xef then some [(0x80, 0xbf), (0x80, 0xbf)]
  else if lead == 0xf0 then some [(0x90, 0xbf), (0x80, 0xbf), (0x80, 0xbf)]
  else if 0xf1 ≤ lead && lead ≤ 0xf3 then
    some [(0x80, 0xbf), (0x80, 0xbf), (0x80, 0xbf)]
  else if lead == 0xf4 then some [(0x80, 0x8f), (0x80, 0xbf), (0x80, 0xbf)]
  else none

/-- Match bytes against ranges: the bytes that remain, or how many matched
before one was out of range (`some`) or missing (`none`). -/
def matchRanges : List (UInt8 × UInt8) → Nat → List UInt8 →
    Except (Option Nat) (List UInt8)
  | [], _, rest => .ok rest
  | _ :: _, _, [] => .error none
  | (low, high) :: ranges, count, byte :: rest =>
      if low ≤ byte && byte ≤ high then
        matchRanges ranges (count + 1) rest
      else
        .error (some count)

private theorem length_le_of_matchRanges :
    ∀ {ranges : List (UInt8 × UInt8)} {count : Nat} {bytes rest : List UInt8},
      matchRanges ranges count bytes = .ok rest → rest.length ≤ bytes.length
  | [], _, _, _, equal => by
      cases equal
      exact Nat.le_refl _
  | _ :: _, _, [], _, equal => by
      cases equal
  | (low, high) :: ranges, count, byte :: bytes, rest, equal => by
      unfold matchRanges at equal
      split at equal
      · exact Nat.le_succ_of_le (length_le_of_matchRanges equal)
      · cases equal

/-- The first fault of bytes that start at an index; bytes without a fault
count as lacking their next group. -/
def utf8Fault (index : Nat) : List UInt8 → Utf8Fault
  | [] => .incomplete index
  | lead :: tail =>
      match continuations lead with
      | none => .invalid 1 index
      | some ranges =>
          match matched : matchRanges ranges 1 tail with
          | .error (some count) => .invalid count index
          | .error none => .incomplete index
          | .ok rest => utf8Fault (index + 1 + ranges.length) rest
termination_by bytes => bytes.length
decreasing_by
  exact Nat.lt_succ_of_le (length_le_of_matchRanges matched)

end Roster.Text
