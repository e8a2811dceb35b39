import Roster.Options
import Roster.Options.Validation
import Roster.Yaml.Tree

/-!
# Options in a document

A document of options is a mapping from names to scalars, or to references
that stand for scalars.  Names that no option has are ignored, and each option
may be set once.  An empty document sets nothing.
-/

namespace Roster.Options

open Yaml

/-- A decimal number without leading zeros. -/
def hasLeadingZero (digits : List Char) : Bool :=
  1 < digits.length && digits.head? == some '0' && digits.all Char.isDigit

/-- Read a number: decimal digits without leading zeros, or digits behind a
mark of base sixteen, eight or two; a plus sign may stand in front. -/
def readNumber (bound : Nat) (text : List Char) : Option Nat :=
  let unsigned := if text.head? = some '+' then text.drop 1 else text
  match unsigned with
  | '0' :: 'x' :: digits => Text.readDigits 16 bound digits
  | '0' :: 'o' :: digits => Text.readDigits 8 bound digits
  | '0' :: 'b' :: digits => Text.readDigits 2 bound digits
  | digits => if hasLeadingZero digits then none else Text.readDecimal bound digits

/-- The scalar may stand for a number: it is plain, or a literal block that is
tagged as one. -/
def mayBeNumber : Style → Option TagName → Bool
  | .plain, _ => true
  | .literal, tag => tag == some (.ofString "tag:yaml.org,2002:int")
  | _, _ => false

def Setting.apply (setting : Setting) (options : Options) : Tree → Option Options
  | .scalar style tag content =>
      match setting with
      | .text _ set => some (set options content)
      | .number bound _ set =>
          if mayBeNumber style tag then
            (readNumber bound content.toList).map (set options)
          else
            none
  | _ => none

def scalar? : Tree → Option String
  | .scalar _ _ text => some text
  | _ => none

/-- Apply the entries of a mapping inside a whole tree; the names of the options
set so far are given. -/
def ofEntries (whole : Tree) : List (Tree × Tree) → List String → Options → Option Options
  | [], _, options => some options
  | (key, value) :: rest, seen, options => do
      let name ← (whole.resolve key).bind scalar?
      match settings.lookup name with
      | none => ofEntries whole rest seen options
      | some setting =>
          if name ∈ seen then
            none
          else
            let options ← (whole.resolve value).bind (setting.apply options)
            ofEntries whole rest (name :: seen) options

def ofTree? (whole : Tree) : Option Options := do
  match ← whole.resolve whole with
  | .mapping entries => ofEntries whole entries [] {}
  | .scalar .plain _ "" => some {}
  | _ => none

def ofText (text : String) : Except Fault Options :=
  match (Tree.ofText? text.toList).bind ofTree? with
  | some options => .ok options
  | none => .error .malformedDocument

/-- The options of a file, which may be missing. -/
def ofFile (content : Option (List UInt8)) : Except Fault Options :=
  match content.bind fun bytes => String.fromUTF8? ⟨bytes.toArray⟩ with
  | some text => ofText text
  | none => .error .unreadableFile

end Roster.Options
