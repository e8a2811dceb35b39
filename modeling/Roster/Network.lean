import Roster.Chance
import Roster.Datagram
import Roster.Address.Writer
import Std.Data.HashMap

/-!
# A network in memory

This is the `MemoryNetwork`; its sockets are the `MemoryTransport`s bound to
its addresses.  A datagram reaches the socket that is bound to its destination
when it is sent, unless one of the two ends is killed or it is lost.  An
address is free again once its socket is shut down, and an old socket that is
shut down once more does not disturb a later one at its address.
-/

namespace Roster

/-- A socket: its address, whether it is open, and what it can receive. -/
structure Socket where
  address : SocketAddress
  isOpen : Bool := true
  inbox : List Datagram := []

/-- The number of a socket, in the order of binding. -/
abbrev Binding :=
  Nat

/-- Sockets by number, and the number bound to each address.  Sockets are numbered without
a bound: a number of 64 bits differs from that after `2 ^ 64` bindings only, and to make
as many takes longer than any process runs. -/
structure Network where
  sockets : Std.HashMap Binding Socket := {}
  routes : Std.HashMap SocketAddress Binding := {}
  bound : Nat := 0
  lastPort : UInt16 := 0
  killed : List SocketAddress := []
  loss : Nat := 0
  chance : Chance

namespace Network

/-- Why a socket cannot be bound, or cannot be used.  That the ports are `exhausted` stands
for a search for a free port that never ends, of which nobody is told. -/
inductive Fault where
  | inUse (address : SocketAddress)
  | exhausted
  | closed
  deriving DecidableEq

def Fault.message : Fault → String
  | .inUse address => "Address already bound: " ++ address.toText
  | .exhausted => "No free port"
  | .closed => "Transport is shut down"

/-- The port tried after another. -/
def nextPort (port : UInt16) : UInt16 :=
  max port 20000 + 1

/-- The first free port of at most `tries` after another. -/
def freePort (network : Network) (ip : IpAddress) : Nat → UInt16 → Option UInt16
  | 0, _ => none
  | tries + 1, port =>
      let port := nextPort port
      if network.routes.contains { ip, port } then
        freePort network ip tries port
      else
        some port

def occupy (network : Network) (address : SocketAddress) : Binding × Network :=
  let binding := network.bound + 1
  (binding,
    { network with
      bound := binding
      sockets := network.sockets.insert binding { address }
      routes := network.routes.insert address binding })

/-- Bind a socket; port zero stands for any free port.  The search for one goes on until one
is found, so it never ends if there is none; after as many tries as there are ports it
would only repeat itself, and is `exhausted` here. -/
def bind (network : Network) (ip : IpAddress) (port : UInt16) :
    Except Fault (Binding × Network) :=
  if port = 0 then
    match network.freePort ip 65536 network.lastPort with
    | none => .error .exhausted
    | some port => .ok ({ network with lastPort := port }.occupy { ip, port })
  else if network.routes.contains { ip, port } then
    .error (.inUse { ip, port })
  else
    .ok (network.occupy { ip, port })

def addressOf? (network : Network) (binding : Binding) : Option SocketAddress :=
  (network.sockets[binding]?).map (·.address)

/-- Put a datagram into the socket bound to an address, if there is one. -/
def deposit (network : Network) (destination : SocketAddress) (datagram : Datagram) :
    Network :=
  match network.routes[destination]? with
  | none => network
  | some binding =>
      { network with
        sockets :=
          network.sockets.modify binding fun socket =>
            { socket with inbox := socket.inbox ++ [datagram] } }

/-- Whether a datagram is lost: never if it is reliable, and else as often in a
million as the loss says. -/
def isLost (network : Network) (delivery : Delivery) : Bool × Network :=
  if delivery = .reliable ∨ network.loss = 0 then
    (false, network)
  else
    let (draw, chance) := network.chance.below 1000000
    (draw < network.loss, { network with chance })

def carry (network : Network) (source : SocketAddress) (parcel : Parcel) : Network :=
  if source ∈ network.killed ∨ parcel.destination ∈ network.killed then
    network
  else
    let (lost, network) := network.isLost parcel.delivery
    if lost then
      network
    else
      network.deposit parcel.destination { payload := parcel.payload, sender := source }

def send (network : Network) (binding : Binding) (parcel : Parcel) :
    Except Fault Network :=
  match network.sockets[binding]? with
  | some socket =>
      if socket.isOpen then .ok (network.carry socket.address parcel) else .error .closed
  | none => .error .closed

/-- The next datagram of a socket, if there is one now. -/
def receive (network : Network) (binding : Binding) :
    Except Fault (Option Datagram × Network) :=
  match network.sockets[binding]? with
  | some socket =>
      if socket.isOpen then
        match socket.inbox with
        | [] => .ok (none, network)
        | datagram :: rest =>
            .ok (some datagram,
              { network with
                sockets := network.sockets.insert binding { socket with inbox := rest } })
      else
        .error .closed
  | none => .error .closed

/-- Everything a socket can receive now. -/
def receiveAll (network : Network) (binding : Binding) :
    Except Fault (List Datagram × Network) :=
  match network.sockets[binding]? with
  | some socket =>
      if socket.isOpen then
        .ok (socket.inbox,
          { network with
            sockets := network.sockets.insert binding { socket with inbox := [] } })
      else
        .error .closed
  | none => .error .closed

def shutdown (network : Network) (binding : Binding) : Network :=
  match network.sockets[binding]? with
  | some socket =>
      let routes :=
        if socket.isOpen ∧ network.routes[socket.address]? = some binding then
          network.routes.erase socket.address
        else
          network.routes
      { network with
        sockets := network.sockets.insert binding { socket with isOpen := false }
        routes }
  | none => network

/-- Drop all datagrams from and to an address. -/
def kill (network : Network) (address : SocketAddress) : Network :=
  { network with killed := network.killed.insert address }

def revive (network : Network) (address : SocketAddress) : Network :=
  { network with killed := network.killed.filter (· ≠ address) }

def setLoss (network : Network) (loss : Nat) : Network :=
  { network with loss := min loss 1000000 }

end Network

end Roster
