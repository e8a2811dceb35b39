import Roster.Message
import Roster.Address
import Roster.Arithmetic

/-!
# The gossip queue

The `GossipQueue` holds the items that still have to be spread.  Every item
knows which addresses have it: the one that offered it and those it was sent
to.  It is never selected for them again, and it retires once it was sent to
enough addresses or once as many addresses have it as there are peers.

The last identities that were accepted are remembered, so an item that comes
around again is not queued twice.
-/

namespace Roster

/-- A queued item, how often it was sent, and which addresses have it. -/
structure Pending where
  gossip : Gossip
  transmits : Nat := 0
  known : List SocketAddress := []
  deriving DecidableEq

structure GossipQueue where
  origin : ReplicaId
  next : UInt64 := 1
  pending : List Pending := []
  recent : List GossipId := []

namespace GossipQueue

def capacity : Nat :=
  256

def memory : Nat :=
  4096

def size (queue : GossipQueue) : Nat :=
  queue.pending.length

def isEmpty (queue : GossipQueue) : Bool :=
  queue.pending.isEmpty

/-- Items in the order of their transmits; items sent equally often keep their
order. -/
def leastSentFirst (items : List Pending) : List Pending :=
  items.mergeSort fun left right => left.transmits ≤ right.transmits

def remember (queue : GossipQueue) (id : GossipId) : GossipQueue :=
  if id ∈ queue.recent then
    queue
  else
    { queue with recent := (id :: queue.recent).take memory }

/-- Append an item.  An overfull queue drops those that were sent most. -/
def push (queue : GossipQueue) (item : Pending) : GossipQueue :=
  let items := queue.pending ++ [item]
  if capacity < items.length then
    { queue with pending := (leastSentFirst items).take capacity }
  else
    { queue with pending := items }

def enqueue (queue : GossipQueue) (payload : Payload) :
    Except Overflow (GossipId × GossipQueue) := do
  let id := { origin := queue.origin, sequence := queue.next }
  let next ← Word.add queue.next.toNat 1
  let queue := { queue with next := UInt64.ofNat next }
  return (id, (queue.remember id).push { gossip := { id, payload } })

/-- Queue an item that an address offers: whether it is new.  An item that is
not new is at least known to the address now. -/
def offer (queue : GossipQueue) (gossip : Gossip) (sender : SocketAddress) :
    Bool × GossipQueue :=
  if gossip.id ∈ queue.recent then
    let learn : List Pending → List Pending := fun items =>
      match items.span fun item => item.gossip.id ≠ gossip.id with
      | (before, item :: after) =>
          before ++ { item with known := item.known.insert sender } :: after
      | (before, []) => before
    (false, { queue with pending := learn queue.pending })
  else
    (true, (queue.remember gossip.id).push { gossip, known := [sender] })

/-- At most `most` items that an address lacks, those sent least first. -/
def select (queue : GossipQueue) (peer : SocketAddress) (most : Nat) : List Gossip :=
  ((leastSentFirst (queue.pending.filter fun item => peer ∉ item.known)).take most).map
    (·.gossip)

/-- Items went out to an address: it has them now, and each that it lacked is
charged one transmit. -/
def markSent (queue : GossipQueue) (ids : List GossipId) (peer : SocketAddress) :
    GossipQueue :=
  { queue with
    pending :=
      queue.pending.map fun item =>
        if item.gossip.id ∈ ids ∧ peer ∉ item.known then
          { item with
            transmits := item.transmits + 1
            known := item.known.insert peer }
        else
          item }

/-- Retire items that were sent to `limit` addresses, and items that as many
addresses have as there are peers. -/
def retire (queue : GossipQueue) (limit peers : Nat) : GossipQueue :=
  { queue with
    pending :=
      queue.pending.filter fun item =>
        item.transmits < max limit 1 && (peers == 0 || item.known.length < peers) }

def discard (queue : GossipQueue) (id : GossipId) : GossipQueue :=
  { queue with pending := queue.pending.filter fun item => item.gossip.id ≠ id }

end GossipQueue

end Roster
