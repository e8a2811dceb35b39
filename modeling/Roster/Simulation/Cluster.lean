import Roster.Network
import Roster.Simulation

/-!
# Hosts on one network

Every host of a cluster has a socket on a network in memory.  At every instant
datagrams go back and forth until none is under way.
-/

namespace Roster

/-- A host of a cluster, its socket, and its name. -/
structure Seat where
  name : String
  binding : Binding
  timeline : Timeline

/-- The hosts of a cluster, in the order of their start. -/
structure Cluster where
  network : Network
  seats : List Seat := []

namespace Cluster

inductive Fault where
  | bind (fault : Network.Fault)
  | host (fault : Host.Fault)

/-- The host that was started last under a name. -/
def find? (cluster : Cluster) (name : String) : Option Seat :=
  cluster.seats.reverse.find? fun seat => seat.name = name

def post (network : Network) (seat : Seat) : Network × Seat :=
  let network :=
    seat.timeline.sent.foldl
      (fun network (_, parcel) =>
        match network.send seat.binding parcel with
        | .ok network => network
        | .error _ => network)
      network
  (if seat.timeline.host.node.courier.link.closed then
      network.shutdown seat.binding
    else
      network,
    { seat with timeline := { seat.timeline with sent := [] } })

def postAll : List Seat → Network → Network × List Seat
  | [], network => (network, [])
  | seat :: rest, network =>
      let (network, seat) := post network seat
      let (network, rest) := postAll rest network
      (network, seat :: rest)

def fetch (incarnation : UInt64) (network : Network) (seat : Seat) : Network × Seat :=
  match network.receiveAll seat.binding with
  | .ok (datagrams, network) =>
      (network,
        { seat with
          timeline :=
            datagrams.foldl
              (fun timeline datagram => timeline.act incarnation (.arrive datagram))
              seat.timeline })
  | .error _ => (network, seat)

def fetchAll (incarnation : UInt64) : List Seat → Network → Network × List Seat
  | [], network => (network, [])
  | seat :: rest, network =>
      let (network, seat) := fetch incarnation network seat
      let (network, rest) := fetchAll incarnation rest network
      (network, seat :: rest)

/-- Let datagrams go back and forth, at most `rounds` times. -/
def exchange (incarnation : UInt64) : Nat → Cluster → Cluster
  | 0, cluster => cluster
  | rounds + 1, cluster =>
      let (network, seats) := postAll cluster.seats cluster.network
      if network.sockets.any fun _ socket => socket.isOpen && !socket.inbox.isEmpty then
        let (network, seats) := fetchAll incarnation seats network
        exchange incarnation rounds { network, seats }
      else
        { network, seats }

/-- How often datagrams go back and forth at one instant. -/
def rounds : Nat :=
  1000

/-- Let every datagram arrive that is under way. -/
def settle (cluster : Cluster) (incarnation : UInt64) : Cluster :=
  exchange incarnation rounds cluster

def start (cluster : Cluster) (name : String) (address : SocketAddress)
    (options : Options) (replica : ReplicaId) (incarnation : UInt64) :
    Except Overflow (Except Fault Endpoint × Cluster) := do
  match cluster.network.bind address.ip address.port with
  | .error fault => return (.error (.bind fault), cluster)
  | .ok (binding, network) =>
      let bound := (network.addressOf? binding).getD address
      let options := { options with addr := address.ip.toText }
      match ← Host.start options { address := bound } replica incarnation
          (Chance.ofSeed replica.value) with
      | .error (fault, _) =>
          return (.error (.host fault),
            { cluster with network := network.shutdown binding })
      | .ok host =>
          let seat := { name, binding, timeline := Timeline.new incarnation host }
          return (.ok host.node.own,
            settle { network, seats := cluster.seats ++ [seat] } incarnation)

def replace (cluster : Cluster) (seat : Seat) : Cluster :=
  { cluster with
    seats :=
      cluster.seats.map fun other => if other.binding = seat.binding then seat else other }

def call (cluster : Cluster) (name : String) (incarnation : UInt64) (command : Command) :
    Option (Binding × Ticket) × Cluster :=
  match cluster.find? name with
  | some seat =>
      let (ticket, timeline) := seat.timeline.call incarnation command
      (some (seat.binding, ticket),
        settle (cluster.replace { seat with timeline }) incarnation)
  | none => (none, cluster)

def result? (cluster : Cluster) (binding : Binding) (ticket : Ticket) :
    Option (Except Host.Fault Unit) := do
  let seat ← cluster.seats.find? fun seat => seat.binding = binding
  seat.timeline.host.result? ticket

def advance (incarnation : UInt64) : Nat → Cluster → Cluster
  | 0, cluster => cluster
  | milliseconds + 1, cluster =>
      let seats :=
        cluster.seats.map fun seat =>
          { seat with timeline := seat.timeline.advance incarnation 1 }
      advance incarnation milliseconds (settle { cluster with seats } incarnation)

end Cluster

end Roster
