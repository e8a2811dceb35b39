import Roster.Host

/-!
# A host in simulated time

A timeline carries one host through time, a millisecond after the other.  The
timer of the host fires at once and then at every tick interval.  At every
instant the host moves until it rests, and what it has sent is kept with the
instant.
-/

namespace Roster

/-- A host, the time since its start, its next tick, and what it has sent. -/
structure Timeline where
  host : Host
  now : Nat := 0
  nextTick : Nat := 0
  sent : List (Nat × Parcel) := []

namespace Timeline

def courier (timeline : Timeline) : Courier :=
  timeline.host.node.courier

def setCourier (timeline : Timeline) (courier : Courier) : Timeline :=
  { timeline with
    host := { timeline.host with node := { timeline.host.node with courier } } }

def collect (timeline : Timeline) : Timeline :=
  let (parcels, link) := timeline.courier.link.takeSent
  { timeline.setCourier { timeline.courier with link } with
    sent := timeline.sent ++ parcels.map fun parcel => (timeline.now, parcel) }

/-- Let the host rest at this instant, with a tick if one is due.
`incarnation` is the next one of the clock. -/
def settle (timeline : Timeline) (incarnation : UInt64) : Timeline :=
  let moment := { now := timeline.now, incarnation }
  let host := timeline.host.rest moment
  if timeline.nextTick ≤ timeline.now then
    collect
      { timeline with
        host := (host.tick moment).rest moment
        nextTick := timeline.now + host.node.options.tickInterval }
  else
    collect { timeline with host }

def advance (incarnation : UInt64) : Nat → Timeline → Timeline
  | 0, timeline => timeline
  | milliseconds + 1, timeline =>
      let timeline := { timeline with now := timeline.now + 1 }
      advance incarnation milliseconds
        (if timeline.nextTick ≤ timeline.now then timeline.settle incarnation else timeline)

/-- The host moves once, and then until it rests. -/
def act (timeline : Timeline) (incarnation : UInt64) (move : Host.Move) : Timeline :=
  settle
    { timeline with
      host := timeline.host.move { now := timeline.now, incarnation } move }
    incarnation

def call (timeline : Timeline) (incarnation : UInt64) (command : Command) :
    Ticket × Timeline :=
  (timeline.host.calls.length, timeline.act incarnation (.call command))

def new (incarnation : UInt64) (host : Host) : Timeline :=
  settle { host } incarnation

/-- Take what was sent, in the order of time and destination. -/
def takeSent (timeline : Timeline) : List (Nat × Parcel) × Timeline :=
  let earlier (left right : Nat × Parcel) : Bool :=
    match compare left.1 right.1 with
    | .lt => true
    | .eq => (compare left.2.destination right.2.destination).isLE
    | .gt => false
  (timeline.sent.mergeSort earlier, { timeline with sent := [] })

end Timeline

end Roster
