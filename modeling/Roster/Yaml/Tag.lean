import Roster.Yaml.Cursor
import Roster.Text

/-!
# Tokens, tags, anchors and directives

The tokens make the structure of a document explicit: where collections start
and end, which texts are keys, and what the scalars hold.

A tag is a handle with a suffix, or a whole name in angle brackets.  An anchor
names a tree, and a reference stands for the tree of that name.  A directive
before a document gives the version of its language or a handle for tags.
-/

namespace Roster.Yaml

inductive Style where
  | plain
  | quoted
  | literal
  | folded
  deriving DecidableEq, Repr

/-- The name of a tag: bytes that need not be a text. -/
abbrev TagName :=
  List UInt8

def TagName.ofString (text : String) : TagName :=
  text.toUTF8.data.toList

inductive Token where
  | version (major minor : Nat)
  | tagHandle (handle : String) (stem : TagName)
  | documentStart
  | documentEnd
  | blockSequence
  | blockMapping
  | blockEnd
  | flowSequence
  | flowSequenceEnd
  | flowMapping
  | flowMappingEnd
  | entry
  | flowEntry
  | key
  | value
  | reference (name : String)
  | anchor (name : String)
  | tag (handle : String) (suffix : TagName)
  | scalar (style : Style) (text : String)
  deriving DecidableEq, Repr

/-- A character of the suffix of a tag. -/
def isTagCharacter (c : Char) : Bool :=
  isWord c || c ∈ ";/?:@&=+$.%!~*'()".toList

/-- A character of a name in angle brackets or of the stem of a handle. -/
def isUriCharacter (c : Char) : Bool :=
  isTagCharacter c || c ∈ [',', '[', ']']

/-- How many bytes follow the first byte of a character. -/
def following? (lead : Nat) : Option Nat :=
  if lead < 0x80 then some 0
  else if lead < 0xc0 then none
  else if lead < 0xe0 then some 1
  else if lead < 0xf0 then some 2
  else if lead < 0xf8 then some 3
  else none

/-- Decode bytes that are written as a percent sign and two hexadecimal digits;
`due` bytes of the last character are still to come.  The bytes of a character
stand together. -/
def decodePercent (due : Nat) : List Char → Option TagName
  | [] => if due = 0 then some [] else none
  | '%' :: high :: low :: rest => do
      let byte ← Text.readDigits 16 256 [high, low]
      let due ←
        if due = 0 then following? byte
        else if byte / 64 = 2 then some (due - 1)
        else none
      return UInt8.ofNat byte :: (← decodePercent due rest)
  | c :: rest =>
      if due = 0 && c != '%' then
        (decodePercent 0 rest).map (UInt8.ofNat c.toNat :: ·)
      else
        none

/-- The name that a run of characters stands for.  A zero byte ends it. -/
def name? (run : List Char) : Option TagName :=
  (decodePercent 0 run).map (·.takeWhile (· != 0))

/-- The name that a nonempty run of characters stands for. -/
def uri? (run : List Char) : Option TagName :=
  if run.isEmpty then none else name? run

/-- Read a name in angle brackets, behind its first bracket. -/
def scanVerbatim (cursor : Cursor) : Option (Token × Cursor) := do
  let suffix ← uri? (cursor.run isUriCharacter)
  let cursor := cursor.passRun isUriCharacter
  if cursor.isAt '>' then some (.tag "" suffix, cursor.pass 1) else none

/-- Read a handle: an exclamation mark and, if another one follows a word, the
word and that mark. -/
def scanHandle (cursor : Cursor) : List Char × Cursor :=
  let behind := cursor.pass 1
  let word := behind.run isWord
  let cursor := behind.pass word.length
  if cursor.isAt '!' then
    ('!' :: (word ++ ['!']), cursor.pass 1)
  else
    ('!' :: word, cursor)

/-- Read a tag with a handle.  A word behind the first mark is part of the
suffix unless a second mark ends it. -/
def scanShorthand (cursor : Cursor) : Option (Token × Cursor) := do
  let (handle, behind) := scanHandle cursor
  let run := behind.run isTagCharacter
  let next := behind.pass run.length
  if 1 < handle.length && handle.getLast? == some '!' then
    return (.tag (String.ofList handle) (← uri? run), next)
  let suffix ← name? (handle.drop 1 ++ run)
  if suffix.isEmpty then
    return (.tag "" (.ofString "!"), next)
  return (.tag "!" suffix, next)

/-- Read a tag.  A gap follows it, or inside a flow collection a comma. -/
def scanTag (inFlow : Bool) (cursor : Cursor) : Option (Token × Cursor) := do
  let (token, cursor) ←
    if (cursor.pass 1).isAt '<' then scanVerbatim (cursor.pass 2) else scanShorthand cursor
  if startsGap cursor.rest || (inFlow && cursor.isAt ',') then
    return (token, cursor)
  else
    none

def scanName (cursor : Cursor) : Option (String × Cursor) :=
  let name := (cursor.pass 1).run isWord
  let cursor := cursor.pass (name.length + 1)
  if name.isEmpty then
    none
  else if startsGap cursor.rest || cursor.rest.head?.any (· ∈ "?:,]\x7d%@`".toList) then
    some (String.ofList name, cursor)
  else
    none

/-- Read a number of at most nine digits. -/
def scanNumber (cursor : Cursor) : Option (Nat × Cursor) := do
  let digits := cursor.run Char.isDigit
  if 9 < digits.length then
    none
  return (← Text.readDecimal 1000000000 digits, cursor.pass digits.length)

def scanVersion (cursor : Cursor) : Option (Token × Cursor) := do
  let (major, cursor) ← scanNumber (cursor.passRun isBlank)
  if !cursor.isAt '.' then
    none
  let (minor, cursor) ← scanNumber (cursor.pass 1)
  return (.version major minor, cursor)

def scanHandleDirective (cursor : Cursor) : Option (Token × Cursor) := do
  let cursor := cursor.passRun isBlank
  if !cursor.isAt '!' then
    none
  let (handle, cursor) := scanHandle cursor
  if (handle != ['!'] && handle.getLast? != some '!') || !cursor.rest.head?.any isBlank then
    none
  let cursor := cursor.passRun isBlank
  let stem ← uri? (cursor.run isUriCharacter)
  let cursor := cursor.passRun isUriCharacter
  if startsGap cursor.rest then
    return (.tagHandle (String.ofList handle) stem, cursor)
  else
    none

def scanDirective (cursor : Cursor) : Option (Token × Cursor) := do
  let cursor := cursor.pass 1
  let name := cursor.run isWord
  let cursor := cursor.pass name.length
  if !startsGap cursor.rest then
    none
  let (token, cursor) ←
    if name = "YAML".toList then scanVersion cursor
    else if name = "TAG".toList then scanHandleDirective cursor
    else none
  let cursor := (cursor.passRun isBlank).passComment
  if cursor.rest.head?.all isBreak then
    return (token, cursor.passBreak.2)
  else
    none

end Roster.Yaml
