import Roster.Yaml.Layout

/-!
# The tree of a document

A document is one tree: a scalar, a sequence or a mapping.  A tree may carry a
tag, and an anchor by which references stand for it.  A tree that is left out
is an empty plain scalar.

Anchors are numbered: an anchor takes the number of different names before it.
A name that is given again takes a new number without being counted again, so
two trees can take one number.  References to that number, wherever they are,
stand for the later one of the two.
-/

namespace Roster.Yaml

inductive Tree where
  | scalar (style : Style) (tag : Option TagName) (text : String)
  | sequence (items : List Tree)
  | mapping (entries : List (Tree × Tree))
  | anchored (number : Nat) (tree : Tree)
  | reference (number : Nat)
  deriving Inhabited

namespace Tree

/-- The tree that stands where none is written. -/
def absent : Tree :=
  .scalar .plain none ""

/-- Put the number of an anchor on a tree. -/
def withNumber (number : Option Nat) (tree : Tree) : Tree :=
  match number with
  | some number => .anchored number tree
  | none => tree

mutual

def targets : Tree → List (Nat × Tree)
  | .scalar .. | .reference _ => []
  | .sequence items => targetsOfItems items
  | .mapping entries => targetsOfEntries entries
  | .anchored number tree => (number, tree) :: targets tree

def targetsOfItems : List Tree → List (Nat × Tree)
  | [] => []
  | item :: rest => targets item ++ targetsOfItems rest

def targetsOfEntries : List (Tree × Tree) → List (Nat × Tree)
  | [] => []
  | (key, value) :: rest => targets key ++ targets value ++ targetsOfEntries rest

end

/-- What stands at a place inside a whole tree: the last tree with the number
of a reference, or else the tree itself without its anchor. -/
def resolve (whole : Tree) : Tree → Option Tree
  | .reference number => whole.targets.reverse.lookup number
  | .anchored _ tree => some tree
  | tree => some tree

end Tree

/-- The tokens ahead, the stems of the tag handles, and the latest number of
each anchor. -/
structure Reading where
  tokens : List Token
  handles : List (String × TagName) := []
  anchors : List (String × Nat) := []

/-- Read something off the tokens ahead. -/
abbrev Reader :=
  StateT Reading Option

namespace Reader

def peek : Reader (Option Token) := do
  return (← get).tokens.head?

def skip : Reader Unit :=
  modify fun reading => { reading with tokens := reading.tokens.drop 1 }

def expect (token : Token) : Reader Unit := do
  if (← peek) = some token then skip else failure

def standardHandles : List (String × TagName) :=
  [("!", .ofString "!"), ("!!", .ofString "tag:yaml.org,2002:")]

/-- The name of a tag.  A tag without a handle names itself. -/
def tagName (handle : String) (suffix : TagName) : Reader TagName := do
  if handle.isEmpty then
    return suffix
  match ((← get).handles ++ standardHandles).lookup handle with
  | some stem => return stem ++ suffix
  | none => failure

/-- The anchor and the tag in front of a tree, in either order. -/
def properties : Reader (Option String × Option TagName) := do
  match ← peek with
  | some (.anchor name) =>
      skip
      match ← peek with
      | some (.tag handle suffix) =>
          skip
          return (some name, some (← tagName handle suffix))
      | _ => return (some name, none)
  | some (.tag handle suffix) =>
      skip
      match ← peek with
      | some (.anchor name) =>
          skip
          return (some name, some (← tagName handle suffix))
      | _ => return (none, some (← tagName handle suffix))
  | _ => return (none, none)

/-- Give an anchor its number: as many names as there are before it. -/
def number (name : String) : Reader Nat := do
  let anchors := (← get).anchors
  modify fun reading =>
    { reading with anchors := (name, anchors.length) :: anchors.filter (·.1 != name) }
  return anchors.length

/-- A reference to the latest tree with a name.  The name comes before it. -/
def reference (name : String) : Reader Tree := do
  match (← get).anchors.lookup name with
  | some number => return .reference number
  | none => failure

/-- Read a tree unless one of the given tokens is ahead. -/
def unlessAt (ends : List Token) (tree : Reader Tree) : Reader Tree := do
  match ← peek with
  | some token => if token ∈ ends then return .absent else tree
  | none => tree

/-- A tree of which only an anchor or a tag is written. -/
def bare (anchor : Option String) (tag : Option TagName) : Reader Tree :=
  if anchor.isSome || tag.isSome then
    return .scalar .plain tag ""
  else
    failure

mutual

/-- Read a tree. -/
def tree (fuel : Nat) (indentless : Bool) : Reader Tree := do
  match fuel with
  | 0 => failure
  | fuel + 1 =>
      match ← peek with
      | some (.reference name) =>
          skip
          reference name
      | _ =>
          let (anchor, tag) ← properties
          let number ← anchor.mapM number
          match ← peek with
          | some .entry =>
              if indentless then
                return .withNumber number (.sequence (← indentlessItems fuel))
              else
                return .withNumber number (← bare anchor tag)
          | some (.scalar style text) =>
              skip
              return .withNumber number (.scalar style tag text)
          | some .flowSequence =>
              skip
              return .withNumber number (.sequence (← flowItems fuel true))
          | some .flowMapping =>
              skip
              return .withNumber number (.mapping (← flowEntries fuel true))
          | some .blockSequence =>
              skip
              return .withNumber number (.sequence (← blockItems fuel))
          | some .blockMapping =>
              skip
              return .withNumber number (.mapping (← blockEntries fuel))
          | _ => return .withNumber number (← bare anchor tag)

def blockItems (fuel : Nat) : Reader (List Tree) := do
  match fuel with
  | 0 => failure
  | fuel + 1 =>
      match ← peek with
      | some .entry =>
          skip
          let item ← unlessAt [.entry, .blockEnd] (tree fuel false)
          return item :: (← blockItems fuel)
      | some .blockEnd =>
          skip
          return []
      | _ => failure

/-- The items of a block sequence that is not indented under its key. -/
def indentlessItems (fuel : Nat) : Reader (List Tree) := do
  match fuel with
  | 0 => failure
  | fuel + 1 =>
      match ← peek with
      | some .entry =>
          skip
          let item ← unlessAt [.entry, .key, .value, .blockEnd] (tree fuel false)
          return item :: (← indentlessItems fuel)
      | _ => return []

/-- The value of a block mapping's key. -/
def blockValue (fuel : Nat) : Reader Tree := do
  match fuel with
  | 0 => failure
  | fuel + 1 =>
      match ← peek with
      | some .value =>
          skip
          unlessAt [.key, .value, .blockEnd] (tree fuel true)
      | _ => return .absent

def blockEntries (fuel : Nat) : Reader (List (Tree × Tree)) := do
  match fuel with
  | 0 => failure
  | fuel + 1 =>
      match ← peek with
      | some .key =>
          skip
          let key ← unlessAt [.key, .value, .blockEnd] (tree fuel true)
          let value ← blockValue fuel
          return (key, value) :: (← blockEntries fuel)
      | some .blockEnd =>
          skip
          return []
      | _ => failure

/-- The value of a key inside a flow collection with a given end. -/
def flowValue (fuel : Nat) (closing : Token) : Reader Tree := do
  match fuel with
  | 0 => failure
  | fuel + 1 =>
      match ← peek with
      | some .value =>
          skip
          unlessAt [.flowEntry, closing] (tree fuel false)
      | _ => return .absent

/-- One pair as an item of a flow sequence.  An empty key takes the token
behind its indicator with it. -/
def flowPair (fuel : Nat) : Reader Tree := do
  match fuel with
  | 0 => failure
  | fuel + 1 =>
      match ← peek with
      | some .value | some .flowEntry | some .flowSequenceEnd =>
          skip
          let value ← flowValue fuel .flowSequenceEnd
          return .mapping [(.absent, value)]
      | _ =>
          let key ← tree fuel false
          let value ← flowValue fuel .flowSequenceEnd
          return .mapping [(key, value)]

def flowItems (fuel : Nat) (isFirst : Bool) : Reader (List Tree) := do
  match fuel with
  | 0 => failure
  | fuel + 1 =>
      if (← peek) = some .flowSequenceEnd then
        skip
        return []
      if !isFirst then
        expect .flowEntry
      match ← peek with
      | some .key =>
          skip
          let item ← flowPair fuel
          return item :: (← flowItems fuel false)
      | some .flowSequenceEnd =>
          skip
          return []
      | _ =>
          let item ← tree fuel false
          return item :: (← flowItems fuel false)

def flowEntries (fuel : Nat) (isFirst : Bool) : Reader (List (Tree × Tree)) := do
  match fuel with
  | 0 => failure
  | fuel + 1 =>
      if (← peek) = some .flowMappingEnd then
        skip
        return []
      if !isFirst then
        expect .flowEntry
      match ← peek with
      | some .key =>
          skip
          let key ← unlessAt [.value, .flowEntry, .flowMappingEnd] (tree fuel false)
          let value ← flowValue fuel .flowMappingEnd
          return (key, value) :: (← flowEntries fuel false)
      | some .flowMappingEnd =>
          skip
          return []
      | _ =>
          let key ← tree fuel false
          return (key, .absent) :: (← flowEntries fuel false)

end

/-! ## Documents -/

/-- Read the directives in front of a document: at most one version, of the
language's first generation, and each handle once. -/
def directives (versionSeen : Bool) : List Token → Reader Unit
  | .version major minor :: rest => do
      if versionSeen || major ≠ 1 || (minor ≠ 1 && minor ≠ 2) then
        failure
      skip
      directives true rest
  | .tagHandle handle stem :: rest => do
      if ((← get).handles.lookup handle).isSome then
        failure
      modify fun reading => { reading with handles := (handle, stem) :: reading.handles }
      skip
      directives versionSeen rest
  | _ => pure ()

/-- Nothing of the document's content is ahead. -/
def isAtEnd : Reader Bool := do
  match ← peek with
  | none | some .documentStart | some .documentEnd | some (.version ..)
  | some (.tagHandle ..) => return true
  | _ => return false

/-- Read the only document of a text.  Without a start mark it has no
directives. -/
def document : Reader Tree := do
  let fuel := 4 * (← get).tokens.length + 4
  match ← peek with
  | none => return .absent
  | some (.version ..) | some (.tagHandle ..) | some .documentStart =>
      directives false (← get).tokens
      expect .documentStart
      if ← isAtEnd then return .absent else tree fuel false
  | some _ => tree fuel false

/-- Pass over the marks at the end of a document. -/
def documentEnds : List Token → List Token
  | .documentEnd :: rest => documentEnds rest
  | rest => rest

end Reader

/-- The only document of a text, unless the text is malformed or holds another
one.  A text without a document stands for an empty one. -/
def Tree.ofText? (text : List Char) : Option Tree := do
  let (tree, reading) ← Reader.document.run { tokens := ← tokens? text }
  if (Reader.documentEnds reading.tokens).isEmpty then some tree else none

end Roster.Yaml
