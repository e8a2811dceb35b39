import Roster.Courier
import Roster.Eviction
import Roster.Healing
import Roster.Joining

/-!
# The node

The node is the `Scheduler` of a host, and owns everything the host keeps
about its cluster: the member list, the rotation, the three loops and the
courier.  It does one thing at a time, and between two things its copies of
the membership agree with the member list.

What a node does may come upon an overflow, and then what it has sent before
is sent all the same.

A published value is counted up whenever it changes, so that a watcher can
tell whether there is something it has not seen.
-/

namespace Roster

universe u

/-- A published value, and how often it has changed. -/
structure Watched (α : Type u) where
  value : α
  version : Nat := 0

namespace Watched

variable {α : Type u}

/-- Publish a value, which counts only if it differs. -/
def publish [DecidableEq α] (watched : Watched α) (value : α) : Watched α :=
  if watched.value = value then
    watched
  else
    { value, version := watched.version + 1 }

theorem value_publish [DecidableEq α] (watched : Watched α) (value : α) :
    (watched.publish value).value = value := by
  unfold publish
  split <;> simp_all

end Watched

/-- The number of a request, by which it is answered. -/
abbrev Ticket :=
  Nat

inductive Answer where
  | done
  | cancelled
  | refused (fault : MemberList.Fault)
  deriving DecidableEq

/-- The present: the time since the node was made, and the next incarnation of
the clock. -/
structure Moment where
  now : Nat
  incarnation : UInt64

/-- The state of one host.  Joins that wait for an answer are kept apart from
the answers given so far. -/
structure Node where
  options : Options
  courier : Courier
  list : MemberList
  rotation : Rotation
  eviction : Eviction
  joining : Joining
  healing : Healing
  nextSpread : Nat := 0
  waiting : List Ticket := []
  answers : List (Ticket × Answer) := []
  own : Endpoint
  members : Watched Members := { value := SortedMap.empty }
  landscape : Watched Landscape := { value := SortedMap.empty }

/-- Something that a node does. -/
abbrev Activity :=
  ExceptT Overflow (StateM Node)

namespace Node

/-! ## Sending -/

def broadcast (payload : Payload) : Activity Unit := do
  let courier ← (← get).courier.broadcast payload
  modify fun node => { node with courier }

/-- Send a message: whether the link has accepted it. -/
def send (message : Message) (destination : SocketAddress) (delivery : Delivery) :
    Activity Bool :=
  modifyGet fun node =>
    let (accepted, courier) := node.courier.send message destination delivery
    (accepted, { node with courier })

def post (message : Message) (destination : SocketAddress) (delivery : Delivery) :
    Activity Unit := do
  let _ ← send message destination delivery

/-- Up to `count` members other than the own endpoint that can be dialled. -/
def choose (count : Nat) (excluded : List Endpoint) :
    Activity (List (Endpoint × SocketAddress)) :=
  modifyGet fun node =>
    let (picked, rotation) := node.rotation.select count (node.list.own :: excluded)
    (picked, { node with rotation })

/-- The addresses of up to `count` other members. -/
def peerAddresses (count : Nat) : Activity (List SocketAddress) := do
  return (← choose count []).map (·.2)

def answer (ticket : Ticket) (answer : Answer) : Activity Unit :=
  modify fun node => { node with answers := node.answers ++ [(ticket, answer)] }

def answerWaiting (given : Answer) : Activity Unit :=
  modify fun node =>
    { node with
      waiting := []
      answers := node.answers ++ node.waiting.map fun ticket => (ticket, given) }

/-! ## Settling -/

def spreadEdits : Activity Unit := do
  let (updates, list) := (← get).list.takeOutbox
  modify fun node => { node with list }
  updates.forM fun update => broadcast (.delta update)

/-- Let every copy of the membership follow the member list. -/
def follow : Activity Unit := do
  let node ← get
  let members := node.list.members
  let detector :=
    (node.eviction.detector.setClusterSize members.size).retainMembers members.contains
  let courier ← node.courier.tune detector.health members.size
  set
    { node with
      courier
      rotation := node.rotation.refresh members.keys
      eviction := { node.eviction with detector }
      members := node.members.publish members
      landscape := node.landscape.publish node.list.landscape }

/-- Spread local edits and publish what has changed. -/
def settle : Activity Unit := do
  spreadEdits
  follow

/-! ## Findings and merges -/

/-- Do what the eviction loop asks for. -/
def perform : EvictionAction → Activity Unit
  | .probe sequence target address => post (.ping sequence target) address .bestEffort
  | .probeIndirect sequence target => do
      let helpers ← choose (← get).options.indirectProbes.toNat [target]
      modify fun node =>
        { node with
          eviction :=
            { node.eviction with
              detector := node.eviction.detector.setHelpers sequence helpers.length } }
      helpers.forM fun (_, address) =>
        post (.pingRequest sequence target) address .bestEffort
  | .relay origin sequence target alive =>
      post (.indirectAck sequence target alive) origin .bestEffort
  | .suspect target => do
      broadcast (.suspect target (← get).list.own)
  | .refuted target => broadcast (.alive target)
  | .dropped _ => return

def actOn (findings : List Finding) (detector : Detector) : Activity Unit := do
  let node ← get
  let (actions, eviction, list) :=
    Eviction.handle findings { node.eviction with detector } node.list
  set { node with eviction, list }
  actions.forM perform

/-- Word from an endpoint has arrived. -/
def observe (sender : Endpoint) (now : Nat) : Activity Unit := do
  let (findings, detector) := (← get).eviction.detector.observe sender now
  actOn findings detector

/-- Go on under a new incarnation. -/
def adopt (own : Endpoint) : Activity Unit := do
  modify fun node =>
    { node with
      courier := node.courier.setOwn own
      eviction := { node.eviction with detector := node.eviction.detector.setOwn own }
      own }
  broadcast (.alive own)

/-- Keep the member list after a merge, and go on under the new incarnation if
there is one. -/
def keep (merged : Except MemberList.Fault MemberList.Outcome × MemberList) :
    Activity Unit := do
  modify fun node => { node with list := merged.2 }
  if let .ok { reincarnated := some own, .. } := merged.1 then
    adopt own

/-- Merge a delta; one that is refused is passed over. -/
def receive (moment : Moment) (update : Update) : Activity Unit := do
  keep (← (← get).list.receive moment.incarnation update)

/-- Merge a batch; one that is refused is passed over. -/
def merge (moment : Moment) (batch : Batch) : Activity Unit := do
  if !batch.isEmpty then
    keep (← (← get).list.merge moment.incarnation batch)

/-! ## Construction -/

/-- The node of a host that has just started, settled. -/
def new (options : Options) (own : Endpoint) (tags : Tags) (replica : ReplicaId)
    (link : Link) (chance : Chance) : Except Overflow Node := do
  let courier ← Courier.new options own replica link
  let node : Node :=
    { options
      courier
      list := MemberList.new own tags replica
      rotation := { chance }
      eviction := Eviction.start { detector := Detector.new options.detection own }
      joining := Joining.new link.address options
      healing := Healing.new options
      own }
  let (settled, node) := settle.run node
  settled.map fun _ => node

end Node

end Roster
