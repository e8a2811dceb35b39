import Roster.Address
import Roster.Text

/-!
# Reading addresses

A narrow address is four decimal bytes without leading zeros.  A wide address
is eight hexadecimal groups of one to four digits; one `::` may stand for a
run of at least one zero group, and the last two groups may be written as a
narrow address.  No blanks, brackets or zones belong to an address.

A socket address is an address, a colon and a port; a wide address is
enclosed in brackets, inside which a zone may follow a percent sign.
-/

namespace Roster

namespace IpAddress

/-- Read one byte: at most three digits and no leading zero. -/
def readOctet (text : List Char) : Option Nat :=
  if text.length ≤ 3 ∧ (text.head? ≠ some '0' ∨ text.length = 1) then
    Text.readDecimal 256 text
  else
    none

def readOctets (text : List Char) : Option (List Nat) :=
  let parts := Text.splitAll '.' text
  if parts.length = 4 then parts.mapM readOctet else none

/-- Read one group of one to four hexadecimal digits. -/
def readGroup (text : List Char) : Option Nat :=
  if text.length ≤ 4 then Text.readDigits 16 65536 text else none

/-- Read groups between colons; the last part may be a narrow address, which
counts for two groups. -/
def readParts (narrowEnd : Bool) : List (List Char) → Option (List Nat)
  | [] => some []
  | [last] =>
      match readGroup last with
      | some group => some [group]
      | none =>
          if narrowEnd then
            (readOctets last).map fun bytes =>
              [ofDigits 256 (bytes.take 2), ofDigits 256 (bytes.drop 2)]
          else
            none
  | part :: parts => do
      let group ← readGroup part
      let groups ← readParts narrowEnd parts
      return group :: groups

/-- Read a run of groups, which may be empty. -/
def readRun (narrowEnd : Bool) (text : List Char) : Option (List Nat) :=
  if text.isEmpty then some [] else readParts narrowEnd (Text.splitAll ':' text)

def readGroups (text : List Char) : Option (List Nat) :=
  match Text.splitPair ':' text with
  | none =>
      (readParts true (Text.splitAll ':' text)).filter (·.length = 8)
  | some (front, back) => do
      let head ← readRun false front
      let tail ← readRun true back
      if head.length + tail.length ≤ 7 then
        some (head ++ List.replicate (8 - head.length - tail.length) 0 ++ tail)
      else
        none

def ofChars? (text : List Char) : Option IpAddress :=
  match readOctets text with
  | some octets => some (ofOctets octets)
  | none => (readGroups text).map ofGroups

def ofString? (text : String) : Option IpAddress :=
  ofChars? text.toList

end IpAddress

namespace SocketAddress

def readPort (text : List Char) : Option UInt16 :=
  (Text.readDecimal UInt16.size text).map UInt16.ofNat

/-- Read a wide address and the zone that may follow it. -/
def readZoned (text : List Char) : Option (IpAddress × UInt32) :=
  match Text.splitFirst '%' text with
  | none => (IpAddress.readGroups text).map fun groups => (IpAddress.ofGroups groups, 0)
  | some (address, zone) => do
      let groups ← IpAddress.readGroups address
      let number ← Text.readDecimal UInt32.size zone
      return (IpAddress.ofGroups groups, UInt32.ofNat number)

def ofString? (text : String) : Option SocketAddress :=
  match text.toList with
  | '[' :: wide => do
      let (inside, outside) ← Text.splitFirst ']' wide
      let (address, zone) ← readZoned inside
      match outside with
      | ':' :: port => return { ip := address, port := ← readPort port, zone }
      | _ => none
  | narrow => do
      let (address, port) ← Text.splitFirst ':' narrow
      let octets ← IpAddress.readOctets address
      return { ip := .ofOctets octets, port := ← readPort port }

end SocketAddress

end Roster
