import Roster.Yaml.Cursor

/-!
# Block scalars

A block scalar is the indented text under its header.  A literal one keeps its
line breaks.  A folded one joins lines by spaces, unless one of the two starts
with a blank.  The header says what becomes of the last line breaks and may
give the indentation, which otherwise is that of the first line with text.
-/

namespace Roster.Yaml.Block

/-- What becomes of the line breaks at the end: none, one or all are kept. -/
inductive Chomping where
  | strip
  | clip
  | keep
  deriving DecidableEq

/-- The header of a block scalar; the indentation is zero if it is not
given. -/
structure Header where
  chomping : Chomping := .clip
  indent : Nat := 0

def chomping? : Char → Option Chomping
  | '+' => some .keep
  | '-' => some .strip
  | _ => none

def indent? (c : Char) : Option Nat :=
  if c.isDigit && c != '0' then some (c.toNat - '0'.toNat) else none

/-- Read the signs of a header, at most one of each kind in either order: the
header and how many characters were read. -/
def header? : List Char → Option (Header × Nat)
  | first :: rest =>
      match chomping? first, indent? first with
      | some chomping, _ =>
          match rest with
          | second :: _ =>
              match indent? second with
              | some indent => some ({ chomping, indent }, 2)
              | none => if second == '0' then none else some ({ chomping }, 1)
          | [] => some ({ chomping }, 1)
      | none, some indent =>
          match rest.head?.bind chomping? with
          | some chomping => some ({ chomping, indent }, 2)
          | none => some ({ indent }, 1)
      | none, none => if first == '0' then none else some ({}, 0)
  | [] => some ({}, 0)

/-- Line breaks in front of the next text, the indentation that was found or
the greatest column met, and the place. -/
structure Breaks where
  breaks : List Char
  widest : Nat
  cursor : Cursor

/-- Pass over lines without text.  A tab cannot serve as indentation. -/
def passBreaks (indent : Nat) : Nat → Cursor → Breaks → Option Breaks
  | 0, _, _ => none
  | fuel + 1, cursor, found =>
      let spaces := (cursor.run (· == ' ')).length
      let cursor :=
        cursor.pass (if indent = 0 then spaces else min spaces (indent - cursor.column))
      let widest := max found.widest cursor.column
      if (indent = 0 || cursor.column < indent) && cursor.isAt '\t' then
        none
      else
        match cursor.passBreak with
        | ([], _) => some { found with widest, cursor }
        | (passed, next) =>
            passBreaks indent fuel next { breaks := found.breaks ++ passed, widest, cursor := next }

def breaksAt (indent : Nat) (cursor : Cursor) : Option Breaks :=
  passBreaks indent (cursor.rest.length + 1) cursor { breaks := [], widest := 0, cursor }

/-- The text so far, the break behind its last line, and whether that line
started with a blank. -/
structure Lines where
  text : List Char := []
  ending : List Char := []
  blank : Bool := false

/-- What joins the last line with the next. -/
def joint (folded : Bool) (lines : Lines) (breaks : List Char) (blank : Bool) : List Char :=
  if folded && lines.ending == ['\n'] && !lines.blank && !blank then
    if breaks.isEmpty then [' '] else breaks
  else
    lines.ending ++ breaks

def readLines (folded : Bool) (indent : Nat) :
    Nat → Lines → Breaks → Option (Lines × Breaks)
  | 0, _, _ => none
  | fuel + 1, lines, found =>
      let cursor := found.cursor
      match cursor.rest with
      | [] => some (lines, found)
      | first :: _ =>
          if cursor.column ≠ indent then
            some (lines, found)
          else do
            let line := cursor.run (!isBreak ·)
            let (ending, next) := cursor.passLine.passBreak
            let text := lines.text ++ joint folded lines found.breaks (isBlank first) ++ line
            let found ← breaksAt indent next
            readLines folded indent fuel { text, ending, blank := isBlank first } found

def Header.chomp (header : Header) (lines : Lines) (breaks : List Char) : List Char :=
  match header.chomping with
  | .strip => lines.text
  | .clip => lines.text ++ lines.ending
  | .keep => lines.text ++ lines.ending ++ breaks

/-- Read a block scalar under an enclosing indentation: its text and the place
behind. -/
def scan (folded : Bool) (enclosing : Int) (cursor : Cursor) : Option (List Char × Cursor) := do
  let cursor := cursor.pass 1
  let (header, count) ← header? cursor.rest
  let cursor := ((cursor.pass count).passRun isBlank).passComment
  if !cursor.rest.head?.all isBreak then
    none
  let start := cursor.passBreak.2
  let given := if header.indent = 0 then 0 else (max enclosing 0).toNat + header.indent
  let found ← breaksAt given start
  let indent :=
    if given = 0 then max (max found.widest (enclosing + 1).toNat) 1 else given
  let (lines, found) ← readLines folded indent (start.rest.length + 1) {} found
  return (header.chomp lines found.breaks, found.cursor)

end Roster.Yaml.Block
