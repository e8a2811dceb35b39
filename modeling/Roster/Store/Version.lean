import Roster.Wire.Format

/-!
# Versions of a document

A version says how many operations of each replica a document contains.  It
travels as counters: the number of them and then, for each, the replica and a
signed number.  Bytes after the last counter are ignored, and a negative
counter stands for no operations.
-/

namespace Roster

/-- A signed number for each replica. -/
abbrev Counters :=
  SortedMap ReplicaId Int

namespace Counters

def toBytes (counters : Counters) : Bytes :=
  Wire.Varint.write counters.size ++
    counters.entries.flatMap fun (replica, count) =>
      Wire.Varint.write replica.value.toNat ++ Wire.Varint.write (Wire.Varint.fold count)

/-- Read an exact number of counters. -/
def readEntries : Nat → Bytes → Option (List (ReplicaId × Int))
  | 0, _ => some []
  | size + 1, bytes => do
      let (replica, bytes) ← Wire.Varint.read 64 bytes
      let (folded, rest) ← Wire.Varint.read 32 bytes
      let entries ← readEntries size rest
      return (⟨UInt64.ofNat replica⟩, Wire.Varint.unfold folded) :: entries

def ofBytes? (bytes : Bytes) : Option Counters := do
  let (size, rest) ← Wire.Varint.read 64 bytes
  let entries ← readEntries size rest
  return SortedMap.ofList entries

end Counters

/-- How many operations of each replica are contained. -/
structure Version where
  counts : SortedMap ReplicaId Nat
  deriving DecidableEq, Inhabited

namespace Version

/-- The version of a document without operations. -/
def empty : Version :=
  ⟨SortedMap.empty⟩

def count (version : Version) (replica : ReplicaId) : Nat :=
  (version.counts.get? replica).getD 0

def advance (version : Version) (replica : ReplicaId) : Version :=
  ⟨version.counts.insert replica (version.count replica + 1)⟩

/-- Every operation of the right version is in the left. -/
def includes (left right : Version) : Bool :=
  right.counts.entries.all fun (replica, count) => count ≤ left.count replica

def toCounters (version : Version) : Counters :=
  version.counts.mapValues fun _ count => Int.ofNat count

def ofCounters (counters : Counters) : Version :=
  ⟨counters.mapValues fun _ count => count.toNat⟩

def toBytes (version : Version) : Bytes :=
  Counters.toBytes version.toCounters

def ofBytes? (bytes : Bytes) : Option Version :=
  (Counters.ofBytes? bytes).map ofCounters

end Version

end Roster
