import Roster.Detector
import Roster.MemberList
import Roster.Rotation

/-!
# The eviction loop

This is the `AutoDropper`.  Every tick lets the detector's time pass and
starts a round if one is due: members that others suspect are probed first,
then the rotation goes on.  What the detector finds turns into actions, and a
dead member is removed from the member list at exactly the incarnation that
died.
-/

namespace Roster

/-- What the eviction loop asks its host to do. -/
inductive EvictionAction where
  | probe (sequence : UInt64) (target : Endpoint) (address : SocketAddress)
  | probeIndirect (sequence : UInt64) (target : Endpoint)
  | relay (origin : SocketAddress) (sequence : UInt64) (target : Endpoint) (alive : Bool)
  | suspect (target : Endpoint)
  | refuted (target : Endpoint)
  | dropped (target : Endpoint)
  deriving DecidableEq, Repr

structure Eviction where
  detector : Detector
  running : Bool := false

namespace Eviction

def start (eviction : Eviction) : Eviction :=
  { eviction with running := true }

/-- Stop probing; what is in flight gets no verdict. -/
def stop (eviction : Eviction) : Eviction :=
  { detector := eviction.detector.abandon, running := false }

def forget (eviction : Eviction) (target : Endpoint) : Eviction :=
  { eviction with detector := eviction.detector.forget target }

/-- Gossip a suspicion of ours, unless its target is no member. -/
def announce (eviction : Eviction) (list : MemberList) (target : Endpoint) :
    List EvictionAction × Eviction :=
  if list.contains target then
    ([.suspect target], eviction)
  else
    ([], eviction.forget target)

def handleOne (eviction : Eviction) (list : MemberList) (finding : Finding) :
    List EvictionAction × Eviction × MemberList :=
  match finding with
  | .probeIndirect sequence target => ([.probeIndirect sequence target], eviction, list)
  | .relayed origin sequence target alive =>
      ([.relay origin sequence target alive], eviction, list)
  | .suspected target | .confirmed target =>
      let (actions, eviction) := eviction.announce list target
      (actions, eviction, list)
  | .refuted target => ([.refuted target], eviction, list)
  | .dead target =>
      match list.remove target with
      | (.ok removed, list) =>
          (if removed then [.dropped target] else [], eviction.forget target, list)
      | (.error _, list) => ([], eviction, list)

def handle : List Finding → Eviction → MemberList →
    List EvictionAction × Eviction × MemberList
  | [], eviction, list => ([], eviction, list)
  | finding :: rest, eviction, list =>
      let (first, eviction, list) := eviction.handleOne list finding
      let (others, eviction, list) := handle rest eviction list
      (first ++ others, eviction, list)

/-- A member that others suspect and that can be dialled. -/
def nextSuspect (eviction : Eviction) (list : MemberList) :
    Option (Endpoint × SocketAddress) := do
  let target ← eviction.detector.nextSuspect
  let address ← target.socketAddress?
  if list.contains target then some (target, address) else none

/-- The member to probe in a new round. -/
def chooseTarget (eviction : Eviction) (list : MemberList) (rotation : Rotation) :
    Option (Endpoint × SocketAddress) × Rotation :=
  match eviction.nextSuspect list with
  | some target => (some target, rotation)
  | none =>
      let (picked, rotation) := rotation.select 1 [list.own]
      (picked.head?, rotation)

/-- Let time pass, and start a round if one is due. -/
def tick (eviction : Eviction) (now : Nat) (list : MemberList) (rotation : Rotation) :
    Except Overflow (List EvictionAction × Eviction × MemberList × Rotation) := do
  if !eviction.running then
    return ([], eviction, list, rotation)
  let (findings, detector) ← eviction.detector.checkTimeouts now
  let (actions, eviction, list) := handle findings { eviction with detector } list
  if !eviction.detector.shouldProbe now then
    return (actions, eviction, list, rotation)
  match eviction.chooseTarget list rotation with
  | (none, rotation) => return (actions, eviction, list, rotation)
  | (some (target, address), rotation) =>
      let (sequence, detector) ← eviction.detector.startProbe target now
      return (actions ++ [.probe sequence target address], { eviction with detector }, list,
        rotation)

end Eviction

end Roster
