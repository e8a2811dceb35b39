/-!
# Places in a document

A cursor is a place in the text of a document: what follows it, and its line
and column.  Columns decide how a document is structured, so a cursor moves
only over text that it counts.
-/

namespace Roster.Yaml

/-- A space or a tab. -/
def isBlank (c : Char) : Bool :=
  c == ' ' || c == '\t'

/-- A line separator or a paragraph separator, which are kept as they are. -/
def isSeparator (c : Char) : Bool :=
  c.toNat == 0x2028 || c.toNat == 0x2029

def isBreak (c : Char) : Bool :=
  c == '\n' || c == '\r' || c.toNat == 0x85 || isSeparator c

def isGap (c : Char) : Bool :=
  isBlank c || isBreak c

/-- A character of names: a letter, a digit, a dash or a low line. -/
def isWord (c : Char) : Bool :=
  c.isAlphanum || c == '-' || c == '_'

/-- A character that a document may hold. -/
def isAllowed (c : Char) : Bool :=
  let code := c.toNat
  code == 0x09 || code == 0x0a || code == 0x0d || (0x20 ≤ code && code ≤ 0x7e) ||
    code == 0x85 || (0xa0 ≤ code && code ≤ 0xfffd) || 0x10000 ≤ code

/-- Nothing follows, or a gap. -/
def startsGap (text : List Char) : Bool :=
  text.head?.all isGap

/-- The line breaks of a text, each as one character. -/
def lineBreaks : List Char → List Char
  | [] => []
  | '\r' :: '\n' :: rest => '\n' :: lineBreaks rest
  | c :: rest =>
      if isSeparator c then c :: lineBreaks rest
      else if isBreak c then '\n' :: lineBreaks rest
      else lineBreaks rest

/-- A place in a text: what follows, how many bytes came before, and the line
and the column in characters. -/
structure Cursor where
  rest : List Char
  index : Nat := 0
  line : Nat := 0
  column : Nat := 0

namespace Cursor

def pass (cursor : Cursor) (count : Nat) : Cursor :=
  let passed := cursor.rest.take count
  let breaks := lineBreaks passed
  { rest := cursor.rest.drop count
    index := cursor.index + (String.ofList passed).utf8ByteSize
    line := cursor.line + breaks.length
    column :=
      if breaks.isEmpty then
        cursor.column + passed.length
      else
        (passed.reverse.takeWhile (!isBreak ·)).length }

def run (cursor : Cursor) (holds : Char → Bool) : List Char :=
  cursor.rest.takeWhile holds

def passRun (cursor : Cursor) (holds : Char → Bool) : Cursor :=
  cursor.pass (cursor.run holds).length

def isAt (cursor : Cursor) (c : Char) : Bool :=
  cursor.rest.head? == some c

/-- Move over a byte order mark.  Every line may start with one, and it takes up
a column. -/
def passOrderMark (cursor : Cursor) : Cursor :=
  if cursor.column == 0 && cursor.isAt '\uFEFF' then cursor.pass 1 else cursor

def passLine (cursor : Cursor) : Cursor :=
  cursor.passRun (!isBreak ·)

def passComment (cursor : Cursor) : Cursor :=
  if cursor.isAt '#' then cursor.passLine else cursor

/-- Move over one line break: the break, and the place behind it. -/
def passBreak (cursor : Cursor) : List Char × Cursor :=
  match cursor.rest with
  | '\r' :: '\n' :: _ => (['\n'], cursor.pass 2)
  | c :: _ => if isBreak c then (lineBreaks [c], cursor.pass 1) else ([], cursor)
  | [] => ([], cursor)

/-- The cursor is at a mark that stands alone at the start of a line. -/
def isAtMark (cursor : Cursor) (mark : String) : Bool :=
  cursor.column == 0 && mark.toList.isPrefixOf cursor.rest &&
    startsGap (cursor.rest.drop mark.length)

/-- The cursor is where a document starts or ends. -/
def isAtDocumentMark (cursor : Cursor) : Bool :=
  cursor.isAtMark "---" || cursor.isAtMark "..."

end Cursor

/-- What stands between two words of a scalar: blanks within one line, or line
breaks.  An escaped line break counts for nothing itself. -/
structure Gap where
  blanks : List Char := []
  breaks : List Char := []
  escaped : Bool := false

namespace Gap

def following (cursor : Cursor) : Gap :=
  let text := cursor.run isGap
  { blanks := text.takeWhile isBlank, breaks := lineBreaks text }

/-- The scalar goes on in a later line. -/
def isBroken (gap : Gap) : Bool :=
  gap.escaped || !gap.breaks.isEmpty

/-- What a gap stands for: one line break is a space, and of several all but
the first are kept. -/
def fold (gap : Gap) : List Char :=
  if gap.escaped then
    gap.breaks
  else
    match gap.breaks with
    | [] => gap.blanks
    | ['\n'] => [' ']
    | '\n' :: others => others
    | breaks => breaks

end Gap

end Roster.Yaml
