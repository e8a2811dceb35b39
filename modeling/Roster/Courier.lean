import Roster.Datagram
import Roster.Gossip.Queue
import Roster.Health
import Roster.Options
import Roster.Wire.Envelope

/-!
# The courier

The courier is the `Messenger`, the layer that disseminates.  Every envelope
that leaves carries pending gossip its receiver lacks, as much as fits into
the datagram.  An item is charged once the envelope that carries it was
accepted.  A round of spreading serves all targets before any item retires.

What arrives is decoded.  Envelopes of other environments and the echo of own
ones are dropped, and gossip that was seen before is not reported again.
-/

namespace Roster

structure Courier where
  env : String
  own : Endpoint
  link : Link
  queue : GossipQueue
  fanout : Nat
  perEnvelope : Nat
  multiplier : Nat
  limit : Nat
  peers : Nat := 0
  observed : Option (List Envelope) := none

/-- An envelope that was accepted, and the gossip that was new. -/
structure Inbound where
  envelope : Envelope
  fresh : List Payload

/-- The envelope inside a parcel. -/
def Parcel.envelope? (parcel : Parcel) : Option Envelope :=
  (Envelope.decode parcel.payload).toOption

namespace Courier

def new (options : Options) (own : Endpoint) (replica : ReplicaId) (link : Link) :
    Except Overflow Courier := do
  let health := Health.new options.healthCeiling.toNat
  let perEnvelope := options.gossipPerEnvelope.toNat
  let multiplier := options.retransmitMultiplier.toNat
  let limit ← health.retransmissions perEnvelope multiplier (Health.magnitude 1)
  return {
    env := options.env
    own
    link
    queue := { origin := replica }
    fanout := options.gossipFanout.toNat
    perEnvelope
    multiplier
    limit }

def setOwn (courier : Courier) (own : Endpoint) : Courier :=
  { courier with own }

def tune (courier : Courier) (health : Health) (clusterSize : Nat) :
    Except Overflow Courier := do
  let limit ←
    health.retransmissions courier.perEnvelope courier.multiplier
      (Health.magnitude clusterSize)
  return { courier with limit, peers := clusterSize - 1 }

/-- Queue an item of the host itself. -/
def broadcast (courier : Courier) (payload : Payload) : Except Overflow Courier := do
  let (_, queue) ← courier.queue.enqueue payload
  return { courier with queue }

/-! ## Sending -/

def envelope (courier : Courier) (message : Message) (gossip : List Gossip) : Envelope :=
  { env := courier.env, sender := courier.own, message, gossip }

/-- An item fits into a datagram on a bare carrier. -/
def fitsAlone (courier : Courier) (item : Gossip) : Bool :=
  (courier.envelope .gossip [item]).encode.isOk

/-- Drop an item that no datagram can carry. -/
def discardOversized (courier : Courier) : List Gossip → Courier
  | [item] =>
      if courier.fitsAlone item then
        courier
      else
        { courier with queue := courier.queue.discard item.id }
  | _ => courier

/-- The datagram of a message with gossip, which is halved until it fits. -/
def shrink (courier : Courier) (message : Message) (gossip : List Gossip) :
    Option (Bytes × List GossipId) × Courier :=
  match (courier.envelope message gossip).encode with
  | .ok payload => (some (payload, gossip.map (·.id)), courier)
  | .error _ =>
      match gossip with
      | [] => (none, courier)
      | first :: rest =>
          (courier.discardOversized (first :: rest)).shrink message
            ((first :: rest).take ((rest.length + 1) / 2))
termination_by gossip.length
decreasing_by
  simp only [List.length_take, List.length_cons]
  omega

/-- The datagram of a message for a destination with pending gossip, and the
items it carries. -/
def pack (courier : Courier) (message : Message) (destination : SocketAddress) :
    Option (Bytes × List GossipId) × Courier :=
  courier.shrink message (courier.queue.select destination courier.perEnvelope)

/-- Hand a datagram to the link: whether it was accepted. -/
def dispatch (courier : Courier) (parcel : Parcel) : Bool × Courier :=
  let (accepted, link) := courier.link.send parcel
  (accepted, { courier with link })

def charge (courier : Courier) (carried : List GossipId) (destination : SocketAddress) :
    Courier :=
  { courier with queue := courier.queue.markSent carried destination }

def retire (courier : Courier) : Courier :=
  { courier with queue := courier.queue.retire courier.limit courier.peers }

/-- Send a message with pending gossip: whether it was accepted. -/
def send (courier : Courier) (message : Message) (destination : SocketAddress)
    (delivery : Delivery) : Bool × Courier :=
  match courier.pack message destination with
  | (none, courier) => (false, courier)
  | (some (payload, carried), courier) =>
      match courier.dispatch { destination, delivery, payload } with
      | (false, courier) => (false, courier)
      | (true, courier) =>
          (true,
            if carried.isEmpty then courier else (courier.charge carried destination).retire)

/-- A datagram of a round of spreading and the items it carries. -/
structure Round where
  destination : SocketAddress
  payload : Bytes
  carried : List GossipId

/-- Pack a carrier for every target that lacks something. -/
def packAll : List SocketAddress → Courier → List Round × Courier
  | [], courier => ([], courier)
  | destination :: rest, courier =>
      let (packed, courier) := courier.pack .gossip destination
      let (rounds, courier) := packAll rest courier
      match packed with
      | some (payload, carried) =>
          if carried.isEmpty then
            (rounds, courier)
          else
            ({ destination, payload, carried } :: rounds, courier)
      | none => (rounds, courier)

def deliver (courier : Courier) (round : Round) : Courier :=
  let (accepted, courier) :=
    courier.dispatch
      { destination := round.destination
        delivery := .bestEffort
        payload := round.payload }
  if accepted then courier.charge round.carried round.destination else courier

/-- Push pending gossip to targets on bare carriers. -/
def spread (courier : Courier) (targets : List SocketAddress) : Courier :=
  if courier.queue.isEmpty || targets.isEmpty then
    courier
  else
    let (rounds, courier) := packAll targets courier
    (rounds.foldl deliver courier).retire

/-! ## Receiving -/

/-- How many observed envelopes are kept. -/
def observerCapacity : Nat :=
  256

def subscribe (courier : Courier) : Courier :=
  { courier with observed := some [] }

/-- Take the envelopes observed so far, the last ones if there were too many. -/
def takeObserved (courier : Courier) : List Envelope × Courier :=
  (courier.observed.getD [], { courier with observed := courier.observed.map fun _ => [] })

def observe (courier : Courier) (envelope : Envelope) : Courier :=
  { courier with
    observed :=
      courier.observed.map fun seen =>
        let seen := seen ++ [envelope]
        seen.drop (seen.length - observerCapacity) }

/-- Offer the items of an envelope to the queue: the payloads that are new. -/
def offerAll (sender : SocketAddress) : List Gossip → GossipQueue → List Payload × GossipQueue
  | [], queue => ([], queue)
  | item :: rest, queue =>
      let (fresh, queue) := queue.offer item sender
      let (payloads, queue) := offerAll sender rest queue
      (if fresh then item.payload :: payloads else payloads, queue)

/-- Accept a datagram, unless it is garbage, of another environment or an echo
of the own. -/
def accept (courier : Courier) (datagram : Datagram) : Option Inbound × Courier :=
  match Envelope.decode datagram.payload with
  | .error _ => (none, courier)
  | .ok envelope =>
      if envelope.env ≠ courier.env ∨ envelope.sender = courier.own then
        (none, courier)
      else
        let (fresh, queue) := offerAll datagram.sender envelope.gossip courier.queue
        (some { envelope, fresh }, { courier with queue }.observe envelope)

def shutdown (courier : Courier) : Courier :=
  { courier with link := courier.link.close }

end Courier

end Roster
