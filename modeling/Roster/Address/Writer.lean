import Roster.Address
import Roster.Text

/-!
# Writing addresses

A wide address is written with its longest run of at least two zero groups,
the first of equals, replaced by `::`.  An address that holds a narrow one
after eighty zero bits and sixteen one bits shows the narrow form.
-/

namespace Roster

namespace IpAddress

def joinWith (mark : List Char) : List (List Char) → List Char
  | [] => []
  | [part] => part
  | part :: parts => part ++ mark ++ joinWith mark parts

def writeOctets (octets : List Nat) : List Char :=
  joinWith ['.'] (octets.map Text.decimal)

/-- Groups in hexadecimal without leading zeros. -/
def writeGroups (groups : List Nat) : List Char :=
  joinWith [':'] (groups.map (Nat.toDigits 16))

/-- The length of the run of zero groups at the start. -/
def zeroRun (groups : List Nat) : Nat :=
  (groups.takeWhile (· = 0)).length

/-- The start and length of the longest run of zero groups, the first of
equals. -/
def longestZeroRun : List Nat → Nat × Nat
  | [] => (0, 0)
  | group :: groups =>
      let here := zeroRun (group :: groups)
      let (start, length) := longestZeroRun groups
      if length ≤ here then (0, here) else (start + 1, length)

def toChars : IpAddress → List Char
  | .v4 bits => writeOctets (octets bits)
  | .v6 bits =>
      let all := groups bits
      if bits.toNat / UInt32.size = 65535 then
        [':', ':', 'f', 'f', 'f', 'f', ':'] ++
          writeOctets (octets (bits.setWidth 32))
      else
        let (start, length) := longestZeroRun all
        if 1 < length then
          writeGroups (all.take start) ++ [':', ':'] ++ writeGroups (all.drop (start + length))
        else
          writeGroups all

def toText (address : IpAddress) : String :=
  String.ofList address.toChars

end IpAddress

namespace SocketAddress

/-- Write a socket address; a zone of zero is not shown. -/
def toText (address : SocketAddress) : String :=
  let port := Text.decimal address.port.toNat
  let zone := if address.zone = 0 then [] else '%' :: Text.decimal address.zone.toNat
  match address.ip with
  | .v4 _ => String.ofList (address.ip.toChars ++ [':'] ++ port)
  | .v6 _ => String.ofList (['['] ++ address.ip.toChars ++ zone ++ [']', ':'] ++ port)

end SocketAddress

end Roster
