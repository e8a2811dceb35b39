import Roster.SortedMap
import Roster.Text

/-!
# Tags of members

A member carries a set of tags.  It is stored as an array of quoted texts in
ascending order.  Whatever is not such an array stands for no tags.
-/

namespace Roster

abbrev Tags :=
  SortedSet String

namespace Tags

def escape (c : Char) : List Char :=
  match c with
  | '"' => ['\\', '"']
  | '\\' => ['\\', '\\']
  | '\n' => ['\\', 'n']
  | '\r' => ['\\', 'r']
  | '\t' => ['\\', 't']
  | c =>
      if c.toNat = 8 then ['\\', 'b']
      else if c.toNat = 12 then ['\\', 'f']
      else if c.toNat < 32 then '\\' :: 'u' :: Text.hex 4 c.toNat
      else [c]

def quote (text : String) : List Char :=
  '"' :: (text.toList.flatMap escape ++ ['"'])

def toText (tags : Tags) : String :=
  String.ofList
    ('[' :: (((tags.keys.map quote).intersperse [',']).flatten ++ [']']))

/-- The character that an escaped letter stands for. -/
def unescape? : Char → Option Char
  | '"' => some '"'
  | '\\' => some '\\'
  | '/' => some '/'
  | 'b' => some (Char.ofNat 8)
  | 'f' => some (Char.ofNat 12)
  | 'n' => some '\n'
  | 'r' => some '\r'
  | 't' => some '\t'
  | _ => none

/-- The unit that four hexadecimal digits stand for. -/
def unit? (digits : List Char) : Option Nat :=
  Text.readDigits 16 65536 digits

/-- The character of a unit that stands alone. -/
def single? (unit : Nat) : Option Char :=
  if 0xd800 ≤ unit ∧ unit < 0xe000 then none else some (Char.ofNat unit)

/-- The character of two units, a high and a low one. -/
def paired? (high low : Nat) : Option Char :=
  if 0xd800 ≤ high ∧ high < 0xdc00 ∧ 0xdc00 ≤ low ∧ low < 0xe000 then
    some (Char.ofNat (0x10000 + (high - 0xd800) * 0x400 + (low - 0xdc00)))
  else
    none

/-- The text up to the closing quote, and what follows it. -/
def readQuoted : List Char → Option (List Char × List Char)
  | [] => none
  | '"' :: rest => some ([], rest)
  | '\\' :: 'u' :: a :: b :: c :: d :: rest =>
      match unit? [a, b, c, d] >>= single? with
      | some char => (readQuoted rest).map fun (text, rest) => (char :: text, rest)
      | none =>
          match rest with
          | '\\' :: 'u' :: e :: f :: g :: h :: rest => do
              let high ← unit? [a, b, c, d]
              let low ← unit? [e, f, g, h]
              let char ← paired? high low
              let (text, rest) ← readQuoted rest
              return (char :: text, rest)
          | _ => none
  | '\\' :: letter :: rest => do
      let char ← unescape? letter
      let (text, rest) ← readQuoted rest
      return (char :: text, rest)
  | char :: rest =>
      if char.toNat < 32 ∨ char = '\\' then
        none
      else
        (readQuoted rest).map fun (text, rest) => (char :: text, rest)

/-- Leave out blanks, tabs and line ends. -/
def skipBlanks (text : List Char) : List Char :=
  text.dropWhile fun c => c == ' ' || c == '\t' || c == '\n' || c == '\r'

/-- Quoted texts between commas, up to the closing bracket. -/
def readItems : Nat → List Char → Option (List String × List Char)
  | 0, _ => none
  | fuel + 1, text =>
      match skipBlanks text with
      | '"' :: text => do
          let (item, rest) ← readQuoted text
          match skipBlanks rest with
          | ',' :: rest =>
              let (items, rest) ← readItems fuel rest
              return (String.ofList item :: items, rest)
          | ']' :: rest => return ([String.ofList item], rest)
          | _ => none
      | _ => none

/-- The items of an array of quoted texts. -/
def ofChars? (text : List Char) : Option (List String) :=
  match skipBlanks text with
  | '[' :: rest =>
      let items :=
        match skipBlanks rest with
        | ']' :: rest => some ([], rest)
        | _ => readItems rest.length rest
      match items with
      | some (items, rest) => if (skipBlanks rest).isEmpty then some items else none
      | none => none
  | _ => none

def ofText (text : String) : Tags :=
  SortedSet.ofList ((ofChars? text.toList).getD [])

end Tags

end Roster
