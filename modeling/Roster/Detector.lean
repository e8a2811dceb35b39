import Roster.Detector.Timing
import Roster.Health
import Roster.Endpoint
import Roster.SortedMap

/-!
# The failure detector

This is the `FailureDetector`.  In every round one member is probed.  Without
an ack before the probe timeout helpers are asked to probe it, and without any
ack by the end of the round it is suspected.  A suspicion that is not refuted
before its deadline makes its target dead.

Suspicions of independent hosts pull the deadline in, and it never lies later
than one probe interval before the longest time counted from the last contact.
Word from the target at an incarnation that is at least the suspected one
refutes the suspicion.
-/

namespace Roster

/-- A round that was started here. -/
structure Probe where
  target : Endpoint
  directDeadline : Nat
  roundDeadline : Nat
  indirect : Bool := false
  helpers : Nat := 0
  nacks : Nat := 0
  deriving DecidableEq, Repr

/-- A probe on behalf of another host. -/
structure Relay where
  origin : SocketAddress
  sequence : UInt64
  target : Endpoint
  deadline : Nat
  deriving DecidableEq, Repr

structure Suspicion where
  startedAt : Nat
  lastHeard : Nat
  incarnation : UInt64
  suspectors : SortedSet Endpoint
  deadline : Nat
  probedAt : Option Nat

inductive Finding where
  | probeIndirect (sequence : UInt64) (target : Endpoint)
  | relayed (origin : SocketAddress) (sequence : UInt64) (target : Endpoint) (alive : Bool)
  | suspected (target : Endpoint)
  | confirmed (target : Endpoint)
  | refuted (target : Endpoint)
  | dead (target : Endpoint)
  deriving DecidableEq, Repr

structure Detector where
  options : DetectorOptions
  timing : SuspicionTiming
  own : Endpoint
  next : UInt64 := 1
  probes : SortedMap UInt64 Probe := SortedMap.empty
  relays : SortedMap UInt64 Relay := SortedMap.empty
  suspicions : SortedMap Endpoint Suspicion := SortedMap.empty
  lastHeard : SortedMap Endpoint Nat := SortedMap.empty
  health : Health
  lastRound : Option Nat := none
  clusterSize : Nat := 1

namespace Detector

def new (options : DetectorOptions) (own : Endpoint) : Detector :=
  { options
    timing := SuspicionTiming.measured options
    own
    health := Health.new options.healthCeiling }

def setOwn (detector : Detector) (own : Endpoint) : Detector :=
  { detector with own }

def setClusterSize (detector : Detector) (size : Nat) : Detector :=
  { detector with clusterSize := max size 1 }

/-! ## Times -/

/-- How long an ack may take. -/
def probeTimeout (detector : Detector) : Nat :=
  detector.health.scale detector.options.probeTimeout

def probeInterval (detector : Detector) : Nat :=
  detector.health.scale detector.options.probeInterval

/-- How long a suspicion lasts in a cluster of the present size. -/
def suspicionTimeout (detector : Detector) (suspectors : Nat) : Nat :=
  detector.timing.timeout detector.clusterSize suspectors

/-- The longest time from the last contact to a verdict. -/
def verdictBudget (detector : Detector) : Nat :=
  Word.saturatingMultiply detector.options.suspicionCeiling detector.options.probeInterval -
    detector.options.probeInterval

/-- The deadline of a suspicion: its time, pulled in to the budget, and never
less than the shortest time. -/
def suspicionDeadline (detector : Detector) (startedAt lastHeard suspectors : Nat) :
    Except Overflow Nat := do
  let floor ← Word.add startedAt (detector.timing.shortest detector.clusterSize)
  let decayed ← Word.add startedAt (detector.suspicionTimeout suspectors)
  let budget := Word.saturatingAdd lastHeard detector.verdictBudget
  return max (min decayed budget) floor

def shouldProbe (detector : Detector) (now : Nat) : Bool :=
  match detector.lastRound with
  | none => true
  | some last => detector.probeInterval ≤ now - last

/-! ## Suspicions -/

/-- A host suspects a target.  A suspicion of ours is reported, whether it is
new or confirms one of others; the own endpoint is never suspected. -/
def suspect (detector : Detector) (target suspector : Endpoint) (now : Nat) :
    Except Overflow (Option Finding × Detector) := do
  if target = detector.own then
    return (none, detector)
  let ours := suspector = detector.own
  match detector.suspicions.get? target with
  | some suspicion =>
      if suspicion.suspectors.contains suspector then
        return (none, detector)
      let deadline ←
        detector.suspicionDeadline suspicion.startedAt suspicion.lastHeard
          (suspicion.suspectors.size + 1)
      let suspicion :=
        { suspicion with
          suspectors := suspicion.suspectors.add suspector
          deadline := min suspicion.deadline deadline }
      return (if ours then some (.confirmed target) else none,
        { detector with suspicions := detector.suspicions.insert target suspicion })
  | none =>
      let lastHeard := (detector.lastHeard.get? target).getD now
      let deadline ← detector.suspicionDeadline now lastHeard 1
      let suspicion :=
        { startedAt := now
          lastHeard
          incarnation := target.incarnation
          suspectors := SortedSet.add SortedMap.empty suspector
          deadline
          probedAt := if ours then some now else none }
      return (if ours then some (.suspected target) else none,
        { detector with suspicions := detector.suspicions.insert target suspicion })

def failRound (detector : Detector) (target : Endpoint) (now : Nat) :
    Except Overflow (List Finding × Detector) := do
  let detector := { detector with health := detector.health.fail }
  let (finding, detector) ← detector.suspect target detector.own now
  return (finding.toList, detector)

/-- Word from a sender refutes the suspicions of its host at incarnations that
are not later. -/
def observe (detector : Detector) (sender : Endpoint) (now : Nat) :
    List Finding × Detector :=
  let isRefuted (target : Endpoint) (suspicion : Suspicion) : Bool :=
    target.sameHost sender && suspicion.incarnation ≤ sender.incarnation
  ((detector.suspicions.filter isRefuted).keys.map .refuted,
    { detector with
      lastHeard := detector.lastHeard.insert sender now
      suspicions :=
        detector.suspicions.filter fun target suspicion => !isRefuted target suspicion })

def isProbing (detector : Detector) (target : Endpoint) : Bool :=
  detector.probes.entries.any fun (_, probe) => probe.target = target

/-- The first suspected member that was not probed here since. -/
def nextSuspect (detector : Detector) : Option Endpoint :=
  (detector.suspicions.filter fun target suspicion =>
    suspicion.probedAt.isNone && !detector.isProbing target).keys.head?

def isSuspected (detector : Detector) (target : Endpoint) : Bool :=
  detector.suspicions.contains target

/-! ## Probes -/

/-- The number of the next probe or relay. -/
def draw (detector : Detector) : Except Overflow (UInt64 × Detector) := do
  let next ← Word.add detector.next.toNat 1
  return (detector.next, { detector with next := UInt64.ofNat next })

/-- Start a round: the number of its ping. -/
def startProbe (detector : Detector) (target : Endpoint) (now : Nat) :
    Except Overflow (UInt64 × Detector) := do
  let (sequence, detector) ← detector.draw
  let suspicions :=
    detector.suspicions.mapValues fun suspected suspicion =>
      if suspected = target then { suspicion with probedAt := some now } else suspicion
  let directDeadline ← Word.add now detector.probeTimeout
  let roundDeadline ← Word.add now detector.probeInterval
  let probe := { target, directDeadline, roundDeadline }
  return (sequence,
    { detector with
      lastRound := some now
      suspicions
      probes := detector.probes.insert sequence probe })

/-- How many helpers were asked to probe. -/
def setHelpers (detector : Detector) (sequence : UInt64) (helpers : Nat) : Detector :=
  { detector with
    probes :=
      detector.probes.mapValues fun number probe =>
        if number = sequence then { probe with helpers } else probe }

/-- Probe on behalf of another host: the number of the ping. -/
def startRelay (detector : Detector) (origin : SocketAddress) (asked : UInt64)
    (target : Endpoint) (now : Nat) : Except Overflow (UInt64 × Detector) := do
  let (sequence, detector) ← detector.draw
  let deadline ← Word.add now detector.probeTimeout
  let relay := { origin, sequence := asked, target, deadline }
  return (sequence, { detector with relays := detector.relays.insert sequence relay })

def Relay.result (relay : Relay) (alive : Bool) : Finding :=
  .relayed relay.origin relay.sequence relay.target alive

def receiveAck (detector : Detector) (sequence : UInt64) : List Finding × Detector :=
  if detector.probes.contains sequence then
    ([],
      { detector with
        probes := detector.probes.erase sequence
        health := detector.health.succeed })
  else
    match detector.relays.get? sequence with
    | some relay =>
        ([Relay.result relay true], { detector with relays := detector.relays.erase sequence })
    | none => ([], detector)

/-- The outcome of a helper's probe has arrived.  A round whose helpers all
failed ends at once. -/
def receiveIndirectAck (detector : Detector) (sequence : UInt64) (target : Endpoint)
    (alive : Bool) (now : Nat) : Except Overflow (List Finding × Detector) := do
  match detector.probes.get? sequence with
  | none => return ([], detector)
  | some probe =>
      if probe.target ≠ target then
        return ([], detector)
      let withoutProbe := { detector with probes := detector.probes.erase sequence }
      if alive then
        return ([],
          { withoutProbe with
            health := detector.health.succeed
            lastHeard := detector.lastHeard.insert target now })
      let probe := { probe with nacks := probe.nacks + 1 }
      if 0 < probe.helpers ∧ probe.helpers ≤ probe.nacks then
        withoutProbe.failRound target now
      else
        return ([], { detector with probes := detector.probes.insert sequence probe })

/-! ## The passing of time -/

def failRounds (now : Nat) : List Endpoint → Detector →
    Except Overflow (List Finding × Detector)
  | [], detector => .ok ([], detector)
  | target :: rest, detector => do
      let (first, detector) ← detector.failRound target now
      let (others, detector) ← failRounds now rest detector
      return (first ++ others, detector)

/-- The probe waits for its direct ack past the deadline. -/
def Probe.isLate (probe : Probe) (now : Nat) : Bool :=
  now < probe.roundDeadline && !probe.indirect && probe.directDeadline ≤ now

/-- Ask for helpers, end rounds, give up relays and pass verdicts. -/
def checkTimeouts (detector : Detector) (now : Nat) :
    Except Overflow (List Finding × Detector) := do
  let late := detector.probes.filter fun _ probe => Probe.isLate probe now
  let failed := detector.probes.filter fun _ probe => probe.roundDeadline ≤ now
  let probes :=
    (detector.probes.filter fun _ probe => now < probe.roundDeadline).mapValues
      fun _ probe => { probe with indirect := probe.indirect || Probe.isLate probe now }
  let (suspected, detector) ←
    failRounds now (failed.entries.map (·.2.target)) { detector with probes }
  let expired := detector.relays.filter fun _ relay => relay.deadline ≤ now
  let dead := (detector.suspicions.filter fun _ suspicion => suspicion.deadline ≤ now).keys
  return (late.entries.map (fun (sequence, probe) => .probeIndirect sequence probe.target) ++
      suspected ++ expired.entries.map (fun (_, relay) => Relay.result relay false) ++
      dead.map .dead,
    { detector with
      relays := detector.relays.filter fun _ relay => now < relay.deadline
      suspicions := detector.suspicions.filter fun _ suspicion => now < suspicion.deadline
      probes := detector.probes.filter fun _ probe => probe.target ∉ dead })

/-! ## Leaving members -/

/-- Drop everything about an endpoint. -/
def forget (detector : Detector) (target : Endpoint) : Detector :=
  { detector with
    suspicions := detector.suspicions.erase target
    lastHeard := detector.lastHeard.erase target
    probes := detector.probes.filter fun _ probe => probe.target ≠ target
    relays := detector.relays.filter fun _ relay => relay.target ≠ target }

/-- Keep only what concerns members; relays are kept. -/
def retainMembers (detector : Detector) (isMember : Endpoint → Bool) : Detector :=
  { detector with
    suspicions := detector.suspicions.filter fun target _ => isMember target
    lastHeard := detector.lastHeard.filter fun target _ => isMember target
    probes := detector.probes.filter fun _ probe => isMember probe.target }

/-- Give up all probes and relays. -/
def abandon (detector : Detector) : Detector :=
  { detector with probes := SortedMap.empty, relays := SortedMap.empty }

end Detector

end Roster
