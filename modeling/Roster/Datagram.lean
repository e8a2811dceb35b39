import Roster.Address
import Roster.Message

/-!
# Datagrams, links and inboxes

A link is what a host sees of the network through its `Transport`: the address
it is bound to, and whether a datagram is accepted.  To be accepted is not to
be delivered.

An inbox stands between link and host, filled by the reader of the
`Messenger`.  The reader takes datagrams off the link and hands them on, in
order.  It waits while too many were handed on and not taken, passes over
failures, and ends when the link is closed.
-/

namespace Roster

structure Datagram where
  payload : Bytes
  sender : SocketAddress
  deriving DecidableEq

/-- How hard the network should try. -/
inductive Delivery where
  | bestEffort
  | reliable
  deriving DecidableEq, Repr

structure Parcel where
  destination : SocketAddress
  delivery : Delivery
  payload : Bytes
  deriving DecidableEq

/-- The link of one host: which destinations it refuses, whether it is closed,
and what it has accepted. -/
structure Link where
  address : SocketAddress
  refused : List SocketAddress := []
  closed : Bool := false
  sent : List Parcel := []

namespace Link

def accepts (link : Link) (destination : SocketAddress) : Bool :=
  !link.closed && destination ∉ link.refused

/-- Send a datagram: whether it was accepted. -/
def send (link : Link) (parcel : Parcel) : Bool × Link :=
  if link.accepts parcel.destination then
    (true, { link with sent := link.sent ++ [parcel] })
  else
    (false, link)

def refuse (link : Link) (destinations : List SocketAddress) : Link :=
  { link with refused := destinations }

def close (link : Link) : Link :=
  { link with closed := true }

def takeSent (link : Link) : List Parcel × Link :=
  (link.sent, { link with sent := [] })

end Link

/-- Datagrams that have arrived, and those the reader has handed on. -/
structure Inbox where
  arrived : List Datagram := []
  handed : List Datagram := []
  reading : Bool := false
  ended : Bool := false

namespace Inbox

def capacity : Nat :=
  1024

/-- Let the reader hand on what it can. -/
def settle (inbox : Inbox) : Inbox :=
  if inbox.reading then
    let room := capacity - inbox.handed.length
    { inbox with
      arrived := inbox.arrived.drop room
      handed := inbox.handed ++ inbox.arrived.take room }
  else
    inbox

def start (inbox : Inbox) : Inbox :=
  { inbox with reading := !inbox.ended }.settle

def arrive (inbox : Inbox) (datagram : Datagram) : Inbox :=
  if inbox.ended then inbox else { inbox with arrived := inbox.arrived ++ [datagram] }.settle

/-- Take everything, as the reader goes on handing it. -/
def take (inbox : Inbox) : List Datagram × Inbox :=
  if inbox.reading then
    (inbox.handed ++ inbox.arrived, { inbox with arrived := [], handed := [] })
  else
    (inbox.handed, { inbox with handed := [] })

/-- Take the first datagram that the reader has handed on. -/
def next (inbox : Inbox) : Option Datagram × Inbox :=
  match inbox.handed with
  | [] => (none, inbox)
  | datagram :: handed => (some datagram, { inbox with handed }.settle)

/-- The link was closed: the reader ends. -/
def close (inbox : Inbox) : Inbox :=
  { inbox with arrived := [], reading := false, ended := true }

end Inbox

end Roster
