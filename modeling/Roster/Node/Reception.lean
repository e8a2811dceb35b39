import Roster.Node

/-!
# What arrives at a node

Every accepted envelope is word from its sender.  Its gossip is heeded first
and its message is handled after that; then the node settles.

A join or a heal is answered with what its sender lacks and with the own
digest.  An exchange of the join kind answers all joins that wait.
-/

namespace Roster

namespace Node

/-! ## Gossip -/

/-- Heed a suspicion: one of the own host is denied, and one of a member goes
to the detector. -/
def heedSuspicion (target suspector : Endpoint) (now : Nat) : Activity Unit := do
  let node ← get
  let own := node.list.own
  if target.sameHost own && target.incarnation ≤ own.incarnation then
    broadcast (.alive own)
  else if node.list.contains target then
    let (finding, detector) ← node.eviction.detector.suspect target suspector now
    actOn finding.toList detector

def heed (moment : Moment) : Payload → Activity Unit
  | .suspect target suspector => heedSuspicion target suspector moment.now
  | .alive endpoint => observe endpoint moment.now
  | .delta update => receive moment update

/-! ## Probes -/

/-- Answer a ping that means the own endpoint. -/
def answerPing (sequence : UInt64) (target : Endpoint) (sender : SocketAddress) :
    Activity Unit := do
  if target = (← get).list.own then
    post (.ack sequence) sender .bestEffort

def receiveAck (sequence : UInt64) : Activity Unit := do
  let (findings, detector) := (← get).eviction.detector.receiveAck sequence
  actOn findings detector

/-- Probe a target for another host, or report at once that it cannot be
dialled. -/
def relay (sequence : UInt64) (target : Endpoint) (sender : SocketAddress) (now : Nat) :
    Activity Unit := do
  match target.socketAddress? with
  | some address =>
      let (relayed, detector) ←
        (← get).eviction.detector.startRelay sender sequence target now
      modify fun node => { node with eviction := { node.eviction with detector } }
      post (.ping relayed target) address .bestEffort
  | none => post (.indirectAck sequence target false) sender .bestEffort

def receiveIndirectAck (sequence : UInt64) (target : Endpoint) (alive : Bool) (now : Nat) :
    Activity Unit := do
  let (findings, detector) ←
    (← get).eviction.detector.receiveIndirectAck sequence target alive now
  actOn findings detector

/-! ## Exchanges -/

/-- Answer a request with what its sender lacks.  A digest that cannot be read
is not answered. -/
def offer (kind : ExchangeKind) (digest : Digest) (sender : SocketAddress) :
    Activity Unit := do
  let list := (← get).list
  if let .ok response := list.since digest then
    post (.exchange kind response list.digest) sender .reliable

def respond (digest : Digest) (sender : SocketAddress) : Activity Unit := do
  if let .ok updates := (← get).list.since digest then
    if !updates.isEmpty then
      post (.response updates) sender .reliable

/-- A seed has answered: whoever waits for a join is answered, and the views
show the merge before that. -/
def completeJoin : Activity Unit := do
  let (completed, joining) := (← get).joining.respond
  modify fun node => { node with joining }
  if completed then
    settle
    answerWaiting .done

def completeHealing (peer : SocketAddress) : Activity Unit :=
  modify fun node => { node with healing := (node.healing.complete peer).2 }

/-! ## Datagrams -/

def handle (moment : Moment) (sender : SocketAddress) : Message → Activity Unit
  | .ping sequence target => answerPing sequence target sender
  | .ack sequence => receiveAck sequence
  | .pingRequest sequence target => relay sequence target sender moment.now
  | .indirectAck sequence target alive =>
      receiveIndirectAck sequence target alive moment.now
  | .join digest updates => do
      merge moment updates
      offer .join digest sender
  | .heal digest => offer .heal digest sender
  | .exchange kind response request => do
      merge moment response
      match kind with
      | .join => completeJoin
      | .heal => completeHealing sender
      respond request sender
  | .response updates => merge moment updates
  | .store update => receive moment update
  | .gossip => return

def arrive (moment : Moment) (datagram : Datagram) : Activity Unit := do
  let (accepted, courier) := (← get).courier.accept datagram
  modify fun node => { node with courier }
  if let some inbound := accepted then
    observe inbound.envelope.sender moment.now
    inbound.fresh.forM (heed moment)
    handle moment datagram.sender inbound.envelope.message
    settle

end Node

end Roster
