import Roster.Endpoint
import Roster.SortedMap

/-!
# Messages between hosts

These are the `ClusterMessage`s and the `Gossip` of the protocol.  Every
datagram carries one `Envelope`: the environment, the sending endpoint, one
message, and any number of gossip items that ride along.

Pings and acks probe directly; a ping request asks a helper to probe and an
indirect ack carries the outcome back.  A join or a heal opens an exchange of
what either side lacks: the receiver answers with an exchange, and the sender
of the request closes with a response.  A store message carries one delta.
-/

namespace Roster

/-- A sequence of bytes. -/
abbrev Bytes :=
  List UInt8

/-- Versions of the documents a replica holds, by uri. -/
abbrev Digest :=
  SortedMap String Bytes

/-- Deltas of several documents, by uri. -/
abbrev Batch :=
  SortedMap String Bytes

structure Update where
  uri : String
  delta : Bytes
  deriving DecidableEq, Inhabited

/-- The name of a gossip item: who created it, and its number there. -/
structure GossipId where
  origin : ReplicaId
  sequence : UInt64
  deriving DecidableEq, Hashable, Inhabited, Repr

inductive Payload where
  | suspect (target suspector : Endpoint)
  | alive (endpoint : Endpoint)
  | delta (update : Update)
  deriving DecidableEq, Inhabited

structure Gossip where
  id : GossipId
  payload : Payload
  deriving DecidableEq, Inhabited

/-- The request that an exchange answers. -/
inductive ExchangeKind where
  | join
  | heal
  deriving DecidableEq, Repr

/-- The message of an envelope. -/
inductive Message where
  | ping (sequence : UInt64) (target : Endpoint)
  | ack (sequence : UInt64)
  | pingRequest (sequence : UInt64) (target : Endpoint)
  | indirectAck (sequence : UInt64) (target : Endpoint) (alive : Bool)
  | join (digest : Digest) (updates : Batch)
  | heal (digest : Digest)
  | exchange (kind : ExchangeKind) (response : Batch) (request : Digest)
  | response (updates : Batch)
  | store (update : Update)
  | gossip
  deriving DecidableEq

def Message.kind : Message → String
  | .ping .. => "ping"
  | .ack .. => "ack"
  | .pingRequest .. => "ping-req"
  | .indirectAck .. => "indirect-ack"
  | .join .. => "join"
  | .heal .. => "heal"
  | .exchange .. => "exchange"
  | .response .. => "response"
  | .store .. => "store"
  | .gossip => "gossip"

/-- The digest of a message that asks for what its sender lacks. -/
def Message.digest? : Message → Option Digest
  | .join digest _ | .heal digest | .exchange _ _ digest => some digest
  | _ => none

/-- The batch of a message that brings one. -/
def Message.batch? : Message → Option Batch
  | .join _ updates | .exchange _ updates _ | .response updates => some updates
  | _ => none

/-- The delta of a message that brings a single one. -/
def Message.update? : Message → Option Update
  | .store update => some update
  | _ => none

structure Envelope where
  env : String
  sender : Endpoint
  message : Message
  gossip : List Gossip := []
  deriving DecidableEq

end Roster
