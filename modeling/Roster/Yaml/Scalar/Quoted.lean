import Roster.Yaml.Cursor
import Roster.Text

/-!
# Quoted scalars

Between single quotes a quote is written twice and nothing else is special.
Between double quotes a backslash starts an escape.  Either kind may go over
several lines, whose breaks are folded.
-/

namespace Roster.Yaml.Quoted

/-- The character that one escaped letter stands for. -/
def escaped? : Char → Option Char
  | '0' => some (Char.ofNat 0)
  | 'a' => some (Char.ofNat 7)
  | 'b' => some (Char.ofNat 8)
  | 't' => some '\t'
  | '\t' => some '\t'
  | 'n' => some '\n'
  | 'v' => some (Char.ofNat 11)
  | 'f' => some (Char.ofNat 12)
  | 'r' => some '\r'
  | 'e' => some (Char.ofNat 27)
  | ' ' => some ' '
  | '"' => some '"'
  | '/' => some '/'
  | '\\' => some '\\'
  | 'N' => some (Char.ofNat 0x85)
  | '_' => some (Char.ofNat 0xa0)
  | 'L' => some (Char.ofNat 0x2028)
  | 'P' => some (Char.ofNat 0x2029)
  | _ => none

/-- How many hexadecimal digits follow a letter that announces some. -/
def digits? : Char → Option Nat
  | 'x' => some 2
  | 'u' => some 4
  | 'U' => some 8
  | _ => none

/-- The character of a code written in hexadecimal digits. -/
def coded? (digits : List Char) : Option Char := do
  let code ← Text.readDigits 16 0x110000 digits
  if 0xd800 ≤ code ∧ code < 0xe000 then none else some (Char.ofNat code)

/-- Read one escape behind its backslash: the character, and how many
characters were read. -/
def escape? : List Char → Option (Char × Nat)
  | [] => none
  | letter :: rest =>
      match digits? letter with
      | none => (escaped? letter).map fun c => (c, 1)
      | some count =>
          let digits := rest.take count
          if digits.length = count then
            (coded? digits).map fun c => (c, count + 1)
          else
            none

/-- A word between single quotes, and how many characters it takes. -/
def singleWord : List Char → List Char × Nat
  | '\'' :: '\'' :: rest =>
      let (word, count) := singleWord rest
      ('\'' :: word, count + 2)
  | c :: rest =>
      if isGap c || c == '\'' then
        ([], 0)
      else
        let (word, count) := singleWord rest
        (c :: word, count + 1)
  | [] => ([], 0)

/-- A word between double quotes, and how many characters it takes.  It ends
before an escaped line break. -/
def doubleWord (skipped : Nat) : List Char → Option (List Char × Nat)
  | [] => some ([], 0)
  | c :: rest =>
      match skipped with
      | skipped + 1 => do
          let (word, count) ← doubleWord skipped rest
          return (word, count + 1)
      | 0 =>
          if isGap c || c == '"' || (c == '\\' && rest.head?.any isBreak) then
            some ([], 0)
          else if c == '\\' then do
            let (meant, length) ← escape? rest
            let (word, count) ← doubleWord length rest
            return (meant :: word, count + 1)
          else do
            let (word, count) ← doubleWord 0 rest
            return (c :: word, count + 1)

def word (quote : Char) (text : List Char) : Option (List Char × Nat) :=
  if quote == '\'' then some (singleWord text) else doubleWord 0 text

def gapBehind (cursor : Cursor) : Gap × Cursor :=
  if cursor.isAt '\\' then
    let start := (cursor.pass 1).passBreak.2
    ({ Gap.following start with escaped := true }, start.passRun isGap)
  else
    (Gap.following cursor, cursor.passRun isGap)

def scanOn (quote : Char) : Nat → Cursor → List Char → Option (List Char × Cursor)
  | 0, _, _ => none
  | fuel + 1, cursor, text =>
      if cursor.isAtDocumentMark || cursor.rest.isEmpty then
        none
      else do
        let (word, count) ← word quote cursor.rest
        let cursor := cursor.pass count
        let text := text ++ word
        if cursor.isAt quote then
          return (text, cursor.pass 1)
        let (gap, cursor) := gapBehind cursor
        scanOn quote fuel cursor (text ++ gap.fold)

/-- Read a quoted scalar: its text and the place behind. -/
def scan (quote : Char) (cursor : Cursor) : Option (List Char × Cursor) :=
  scanOn quote (cursor.rest.length + 1) (cursor.pass 1) []

end Roster.Yaml.Quoted
