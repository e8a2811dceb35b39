import Roster.Store.Version
import Roster.Wire.Envelope

/-!
# Operations and deltas

An operation sets one key of one map, or removes it.  It is identified by its
replica and its counter there, and names the version its author had seen.  Of
two operations on one key the one with the greater rank counts.

A delta is a list of operations as bytes, under a mark of its own.  Its numbers
and texts may be of any size, so every list of operations is some delta.
-/

namespace Roster

structure Operation where
  replica : ReplicaId
  counter : Nat
  lamport : Nat
  needs : Version
  map : String
  key : String
  value : Option String
  deriving DecidableEq, Inhabited

namespace Operation

/-- The operation has precedence over another on the same key. -/
def outranks (left right : Operation) : Bool :=
  right.lamport < left.lamport ||
    (left.lamport == right.lamport && right.replica.value < left.replica.value)

end Operation

namespace Delta

open Wire

def many {α : Type} (format : Format α) : Format (List α) :=
  .listAfter .natural format

def text : Format String :=
  .textAfter .natural

def version : Format Version :=
  (many (.pair .replica .natural)).convert (fun entries => ⟨SortedMap.ofList entries⟩)
    (fun version => version.counts.entries)

def optionalText : Format (Option String) :=
  (many text).convert List.head? Option.toList

def operation : Format Operation :=
  (Format.pair .replica
      (.pair .natural
        (.pair .natural (.pair version (.pair text (.pair text optionalText)))))).convert
    (fun (replica, counter, lamport, needs, map, key, value) =>
      { replica, counter, lamport, needs, map, key, value })
    (fun operation =>
      (operation.replica, operation.counter, operation.lamport, operation.needs,
        operation.map, operation.key, operation.value))

/-- The bytes that every delta starts with. -/
def mark : Bytes :=
  [0x64, 0x6c, 0x74, 0x61]

def toBytes (operations : List Operation) : Bytes :=
  mark ++ (many operation).write operations

/-- The operations of a delta; nothing but the delta may be there. -/
def ofBytes? (bytes : Bytes) : Option (List Operation) :=
  if mark.isPrefixOf bytes then
    match (many operation).read (bytes.drop mark.length) with
    | .ok (operations, []) => some operations
    | _ => none
  else
    none

/-- The range of counters of every replica: its first operation and what
follows its last. -/
def spans (operations : List Operation) : SortedMap ReplicaId (Nat × Nat) :=
  operations.foldl
    (fun spans operation =>
      let (first, next) :=
        (spans.get? operation.replica).getD (operation.counter, operation.counter)
      spans.insert operation.replica
        (min first operation.counter, max next (operation.counter + 1)))
    SortedMap.empty

end Delta

end Roster
