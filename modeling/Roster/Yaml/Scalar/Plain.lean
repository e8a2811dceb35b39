import Roster.Yaml.Cursor

/-!
# Plain scalars

A plain scalar has no quotes.  It ends before a colon that a gap follows, at a
comment, at a document mark, at a line that is not indented enough, and inside
a flow collection also before the characters that structure it.
-/

namespace Roster.Yaml.Plain

def isFlowIndicator (c : Char) : Bool :=
  c ∈ [',', '[', ']', '{', '}']

/-- A word of a plain scalar.  A colon in front of a flow indicator is a
fault. -/
def word (inFlow : Bool) : List Char → Option (List Char)
  | [] => some []
  | c :: rest =>
      if isGap c then
        some []
      else if inFlow && c == ':' && rest.head?.any (fun next => isFlowIndicator next || next == '?')
      then
        none
      else if (c == ':' && startsGap rest) || (inFlow && isFlowIndicator c) then
        some []
      else
        (word inFlow rest).map (c :: ·)

/-- After its first line break a gap has a tab where indentation is due. -/
def hasTabInIndentation (indent : Nat) (text : List Char) : Bool :=
  ((text.splitOnP isBreak).drop 1).any fun line => '\t' ∈ line.take indent

/-- A scalar, whether its last gap led to another line, and the place behind. -/
structure Scanned where
  text : List Char
  broken : Bool
  cursor : Cursor

/-- Read on behind a gap. -/
def scanOn (inFlow : Bool) (indent : Nat) :
    Nat → Cursor → Gap → List Char → Option Scanned
  | 0, _, _, _ => none
  | fuel + 1, cursor, gap, text =>
      if cursor.isAtDocumentMark || cursor.isAt '#' then
        some { text, broken := gap.isBroken, cursor }
      else do
        let word ← word inFlow cursor.rest
        let (text, gap) :=
          if word.isEmpty then (text, gap) else (text ++ gap.fold ++ word, {})
        let cursor := cursor.pass word.length
        let space := cursor.run isGap
        if space.isEmpty then
          return { text, broken := gap.isBroken, cursor }
        if hasTabInIndentation indent space then
          none
        let gap := Gap.following cursor
        let cursor := cursor.pass space.length
        if !inFlow && cursor.column < indent then
          return { text, broken := gap.isBroken, cursor }
        scanOn inFlow indent fuel cursor gap text

def scan (inFlow : Bool) (indent : Nat) (cursor : Cursor) : Option Scanned :=
  scanOn inFlow indent (cursor.rest.length + 1) cursor {} []

end Roster.Yaml.Plain
