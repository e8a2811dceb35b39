/-!
# Network addresses

An address of either family is a number of its family's width.  A socket
address adds a port and, for the wider family, a zone.  Addresses are ordered
with the narrow family first, then by value, port and zone.
-/

namespace Roster

inductive IpAddress where
  | v4 (bits : BitVec 32)
  | v6 (bits : BitVec 128)
  deriving DecidableEq, Hashable, Repr

namespace IpAddress

/-- The rank of the family and the value of the address. -/
def orderKey : IpAddress → Nat × Nat
  | .v4 bits => (0, bits.toNat)
  | .v6 bits => (1, bits.toNat)

instance : Ord IpAddress where
  compare :=
    compareLex (compareOn fun ip => ip.orderKey.1) (compareOn fun ip => ip.orderKey.2)

instance : Std.TransOrd IpAddress :=
  inferInstanceAs
    (Std.TransCmp
      (compareLex (compareOn fun ip : IpAddress => ip.orderKey.1)
        (compareOn fun ip => ip.orderKey.2)))

/-- The order key tells addresses apart. -/
private theorem orderKey_injective {left right : IpAddress}
    (same : left.orderKey = right.orderKey) :
    left = right := by
  cases left <;> cases right <;> simp_all [orderKey, BitVec.toNat_inj]

instance : Std.LawfulEqOrd IpAddress where
  eq_of_compare := by
    intro left right same
    obtain ⟨sameRank, sameValue⟩ := Ordering.then_eq_eq.mp same
    exact
      orderKey_injective
        (Prod.ext (Std.LawfulEqCmp.eq_of_compare sameRank)
          (Std.LawfulEqCmp.eq_of_compare sameValue))

/-- The address that stands for every address of the machine. -/
def isUnspecified : IpAddress → Bool
  | .v4 bits => bits == 0
  | .v6 bits => bits == 0

/-- The digits of a number in a base, most significant first, at a fixed count. -/
private def fixedDigits (base : Nat) : Nat → Nat → List Nat
  | 0, _ => []
  | count + 1, value => fixedDigits base count (value / base) ++ [value % base]

def octets (bits : BitVec 32) : List Nat :=
  fixedDigits 256 4 bits.toNat

def groups (bits : BitVec 128) : List Nat :=
  fixedDigits 65536 8 bits.toNat

def ofDigits (base : Nat) (digits : List Nat) : Nat :=
  digits.foldl (fun value digit => base * value + digit) 0

def ofOctets (octets : List Nat) : IpAddress :=
  .v4 (BitVec.ofNat 32 (ofDigits 256 octets))

def ofGroups (groups : List Nat) : IpAddress :=
  .v6 (BitVec.ofNat 128 (ofDigits 65536 groups))

end IpAddress

/-- Where a datagram is sent to, or came from. -/
structure SocketAddress where
  ip : IpAddress
  port : UInt16
  zone : UInt32 := 0
  deriving DecidableEq, Hashable, Repr

instance : Ord SocketAddress where
  compare :=
    compareLex (compareOn SocketAddress.ip)
      (compareLex (compareOn SocketAddress.port) (compareOn SocketAddress.zone))

instance : Std.TransOrd SocketAddress :=
  inferInstanceAs
    (Std.TransCmp
      (compareLex (compareOn SocketAddress.ip)
        (compareLex (compareOn SocketAddress.port) (compareOn SocketAddress.zone))))

instance : Std.LawfulEqOrd SocketAddress where
  eq_of_compare := by
    intro left right same
    obtain ⟨sameIp, rest⟩ := Ordering.then_eq_eq.mp same
    obtain ⟨samePort, sameZone⟩ := Ordering.then_eq_eq.mp rest
    cases left
    cases right
    simp only [SocketAddress.mk.injEq]
    exact
      ⟨Std.LawfulEqCmp.eq_of_compare sameIp,
        Std.LawfulEqCmp.eq_of_compare samePort,
        Std.LawfulEqCmp.eq_of_compare sameZone⟩

end Roster
