import Roster.Yaml.Scalar.Block
import Roster.Yaml.Scalar.Plain
import Roster.Yaml.Scalar.Quoted
import Roster.Yaml.Tag

/-!
# The layout of a document

Block collections are opened and closed by indentation, and a text turns out
to be a key only once a colon follows it.  So the tokens read so far stay open
at the places where a key may begin: in each collection at most one, on the
present line and at most 1024 bytes back.
-/

namespace Roster.Yaml

/-- A place where a key may begin: its token and its cursor.  It has to be a
key if a block mapping goes on there. -/
structure KeyPlace where
  token : Nat
  start : Cursor
  required : Bool

/-- What has been read: the tokens, the indentation of the open block
collections with the innermost first, and the place of a possible key in each
open flow collection and outside of them. -/
structure Layout where
  cursor : Cursor
  tokens : List Token := []
  indents : List Nat := []
  keyAllowed : Bool := true
  key : Option KeyPlace := none
  outerKeys : List (Option KeyPlace) := []

namespace Layout

def inFlow (layout : Layout) : Bool :=
  !layout.outerKeys.isEmpty

/-- The indentation of the innermost block collection, below zero if there is
none. -/
def indent (layout : Layout) : Int :=
  match layout.indents with
  | [] => -1
  | indent :: _ => indent

def column (layout : Layout) : Nat :=
  layout.cursor.column

/-! ## Block collections -/

def emit (layout : Layout) (token : Token) : Layout :=
  { layout with tokens := layout.tokens ++ [token] }

def emitPass (layout : Layout) (token : Token) (count : Nat) : Layout :=
  { layout.emit token with cursor := layout.cursor.pass count }

/-- Open a block collection at a column unless one is open there. -/
def openAt (layout : Layout) (column place : Nat) (token : Token) : Layout :=
  if !layout.inFlow && layout.indent < column then
    { layout with
      indents := column :: layout.indents
      tokens := layout.tokens.insertIdx place token }
  else
    layout

def openHere (layout : Layout) (token : Token) : Layout :=
  layout.openAt layout.column layout.tokens.length token

/-- Close the block collections that are indented more than a column. -/
def closeTo (layout : Layout) (column : Int) : Layout :=
  if layout.inFlow then
    layout
  else
    let closed := layout.indents.takeWhile fun indent : Nat => column < Int.ofNat indent
    { layout with
      indents := layout.indents.drop closed.length
      tokens := layout.tokens ++ closed.map fun _ => .blockEnd }

/-! ## Possible keys -/

/-- Give up the possible key of the innermost collection. -/
def dropKey (layout : Layout) : Option Layout :=
  if layout.key.any (·.required) then none else some { layout with key := none }

/-- A key may begin at the cursor, if one is allowed. -/
def markKey (layout : Layout) : Option Layout :=
  if layout.keyAllowed then do
    let layout ← layout.dropKey
    let required := !layout.inFlow && layout.indent == layout.column
    return {
      layout with
      key := some { token := layout.tokens.length, start := layout.cursor, required } }
  else
    some layout

/-- A possible key is too far back. -/
def isStale (layout : Layout) (place : KeyPlace) : Bool :=
  place.start.line < layout.cursor.line || place.start.index + 1024 < layout.cursor.index

def dropStaleKeys (layout : Layout) : Option Layout :=
  let stale (key : Option KeyPlace) : Bool := key.any layout.isStale
  if (layout.key :: layout.outerKeys).any fun key => stale key && key.any (·.required) then
    none
  else
    let fresh (key : Option KeyPlace) : Option KeyPlace := if stale key then none else key
    some { layout with key := fresh layout.key, outerKeys := layout.outerKeys.map fresh }

/-! ## Tokens -/

/-- Move over blanks, comments, line breaks and byte order marks.  A new line
allows a key, and a tab is no blank where a key may begin. -/
def skipGap : Nat → Layout → Layout
  | 0, layout => layout
  | fuel + 1, layout =>
      let skipped (c : Char) : Bool :=
        c == ' ' || (c == '\t' && (layout.inFlow || !layout.keyAllowed))
      let cursor := (layout.cursor.passOrderMark.passRun skipped).passComment
      match cursor.passBreak with
      | ([], _) => { layout with cursor }
      | (_, next) =>
          skipGap fuel
            { layout with cursor := next, keyAllowed := layout.keyAllowed || !layout.inFlow }

/-- A directive or a mark of a document: it closes all block collections. -/
def betweenDocuments (layout : Layout) : Option Layout := do
  let layout ← (layout.closeTo (-1)).dropKey
  return { layout with keyAllowed := false }

def openFlow (layout : Layout) (token : Token) : Option Layout := do
  let layout ← layout.markKey
  return {
    layout.emitPass token 1 with
    key := none
    outerKeys := layout.key :: layout.outerKeys
    keyAllowed := true }

def closeFlow (layout : Layout) (token : Token) : Option Layout := do
  let layout ← layout.dropKey
  let layout := { layout.emitPass token 1 with keyAllowed := false }
  match layout.outerKeys with
  | [] => return layout
  | key :: outerKeys => return { layout with key, outerKeys }

def flowEntry (layout : Layout) : Option Layout := do
  let layout ← layout.dropKey
  return { layout.emitPass .flowEntry 1 with keyAllowed := true }

/-- Open a block collection at an indicator unless one is open there. -/
def openIndicated (layout : Layout) (collection : Token) : Option Layout :=
  if layout.inFlow then
    some layout
  else if layout.keyAllowed then
    some (layout.openHere collection)
  else
    none

def blockEntry (layout : Layout) : Option Layout := do
  let layout ← (← layout.openIndicated .blockSequence).dropKey
  return { layout.emitPass .entry 1 with keyAllowed := true }

def explicitKey (layout : Layout) : Option Layout := do
  let layout ← (← layout.openIndicated .blockMapping).dropKey
  return { layout.emitPass .key 1 with keyAllowed := !layout.inFlow }

/-- Start a value: what was a possible key is one now. -/
def startValue (layout : Layout) : Option Layout := do
  match layout.key with
  | some place =>
      let layout :=
        { layout with tokens := layout.tokens.insertIdx place.token .key }
      let layout := layout.openAt place.start.column place.token .blockMapping
      return { layout.emitPass .value 1 with key := none, keyAllowed := false }
  | none =>
      let layout ← layout.openIndicated .blockMapping
      return { layout.emitPass .value 1 with keyAllowed := !layout.inFlow }

/-- Append a token that was read up to a place, with a possible key in front
of it. -/
def keyed (layout : Layout) (scanned : Option (Token × Cursor)) : Option Layout := do
  let layout ← layout.markKey
  let (token, cursor) ← scanned
  return { layout.emit token with cursor, keyAllowed := false }

def quoted (layout : Layout) (quote : Char) : Option Layout :=
  layout.keyed
    ((Quoted.scan quote layout.cursor).map fun (text, cursor) =>
      (.scalar .quoted (String.ofList text), cursor))

def block (layout : Layout) (style : Style) : Option Layout := do
  let layout ← layout.dropKey
  let (text, cursor) ← Block.scan (style == .folded) layout.indent layout.cursor
  return {
    layout.emit (.scalar style (String.ofList text)) with cursor, keyAllowed := true }

/-- Append a plain scalar.  A scalar that ends behind a line break allows a
key. -/
def plain (layout : Layout) : Option Layout := do
  let layout ← layout.markKey
  let scanned ←
    Plain.scan layout.inFlow (layout.indent + 1).toNat layout.cursor
  return {
    layout.emit (.scalar .plain (String.ofList scanned.text)) with
    cursor := scanned.cursor
    keyAllowed := scanned.broken }

/-- The characters that start something else than a plain scalar. -/
def indicators : List Char :=
  "-?:,[]\x7b\x7d#&*!|>'\"%@`".toList

/-- A plain scalar may start with a character. -/
def startsPlain (layout : Layout) (c : Char) (rest : List Char) : Bool :=
  (!isGap c && c ∉ indicators) || (c == '-' && !rest.head?.any isBlank) ||
    (!layout.inFlow && (c == '?' || c == ':') && !startsGap rest)

/-- Read the token that starts with a character. -/
def tokenAt (layout : Layout) (c : Char) (rest : List Char) : Option Layout :=
  let indicated := layout.inFlow || startsGap rest
  match c with
  | '[' => layout.openFlow .flowSequence
  | ']' => layout.closeFlow .flowSequenceEnd
  | '{' => layout.openFlow .flowMapping
  | '}' => layout.closeFlow .flowMappingEnd
  | ',' => layout.flowEntry
  | '*' => layout.keyed ((scanName layout.cursor).map fun (name, next) => (.reference name, next))
  | '&' => layout.keyed ((scanName layout.cursor).map fun (name, next) => (.anchor name, next))
  | '!' => layout.keyed (scanTag layout.inFlow layout.cursor)
  | '\'' => layout.quoted '\''
  | '"' => layout.quoted '"'
  | _ =>
      if c == '-' && startsGap rest then layout.blockEntry
      else if c == '?' && indicated then layout.explicitKey
      else if c == ':' && indicated then layout.startValue
      else if c == '|' && !layout.inFlow then layout.block .literal
      else if c == '>' && !layout.inFlow then layout.block .folded
      else if layout.startsPlain c rest then layout.plain
      else none

/-- Read the next token; the second part says that there is none. -/
def step (layout : Layout) : Option (Layout × Bool) := do
  let layout ← (skipGap (layout.cursor.rest.length + 1) layout).dropStaleKeys
  let layout := layout.closeTo layout.column
  match layout.cursor.rest with
  | [] => return (← (layout.closeTo (-1)).dropKey, true)
  | c :: rest =>
      if layout.column = 0 && c == '%' then
        let layout ← layout.betweenDocuments
        let (token, cursor) ← scanDirective layout.cursor
        return ({ layout.emit token with cursor }, false)
      else if layout.cursor.isAtMark "---" then
        return ((← layout.betweenDocuments).emitPass .documentStart 3, false)
      else if layout.cursor.isAtMark "..." then
        return ((← layout.betweenDocuments).emitPass .documentEnd 3, false)
      else
        return (← layout.tokenAt c rest, false)

/-- Read tokens up to the end of the text. -/
def readAll : Nat → Layout → Option (List Token)
  | 0, _ => none
  | fuel + 1, layout => do
      let (layout, isOver) ← layout.step
      if isOver then
        return layout.tokens
      readAll fuel layout

end Layout

/-- The tokens of a text, unless a place of it cannot be read. -/
def tokens? (text : List Char) : Option (List Token) :=
  if text.all isAllowed then
    Layout.readAll (text.length + 2) { cursor := { rest := text } }
  else
    none

end Roster.Yaml
