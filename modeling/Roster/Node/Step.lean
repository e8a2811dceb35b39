import Roster.Node.Reception

/-!
# The steps of a node

A node is driven by three kinds of events: commands, datagrams and the tick of
its timer.  It settles in every step but the last, in which it leaves.
-/

namespace Roster

inductive Command where
  | join (seeds : List SocketAddress)
  | host (agent : String)
  | stopHosting (agent : String)
  | close
  deriving DecidableEq, Repr

inductive Event where
  | command (ticket : Ticket) (command : Command)
  | datagram (datagram : Datagram)
  | tick

namespace Node

/-! ## Commands -/

/-- Ask seeds to let the host join. -/
def contact (seeds : List SocketAddress) : Activity Unit := do
  let list := (← get).list
  if let .ok updates := list.full then
    seeds.forM fun seed => post (.join list.digest updates) seed .reliable

/-- Begin to join, share the pending join, or answer at once. -/
def join (ticket : Ticket) (seeds : List SocketAddress) (now : Nat) : Activity Unit := do
  let (start, joining) ← (← get).joining.join seeds now
  modify fun node => { node with joining }
  let wait : Activity Unit :=
    modify fun node => { node with waiting := node.waiting ++ [ticket] }
  match start with
  | .contact seeds => do
      wait
      contact seeds
  | .coalesced => wait
  | .complete => answer ticket .done
  | .stopped => answer ticket .cancelled

/-- Change what the host hosts, and answer once the change is published. -/
def changeHosting (ticket : Ticket)
    (change : MemberList → Except MemberList.Fault Bool × MemberList) : Activity Unit := do
  let (changed, list) := change (← get).list
  modify fun node => { node with list }
  settle
  match changed with
  | .ok _ => answer ticket .done
  | .error fault => answer ticket (.refused fault)

/-- Leave: cancel what waits, tell a few peers, and release the link. -/
def leave : Activity Unit := do
  modify fun node =>
    { node with healing := node.healing.stop, joining := node.joining.stop.2 }
  answerWaiting .cancelled
  modify fun node => { node with eviction := node.eviction.stop }
  let targets ← peerAddresses (← get).courier.fanout
  let (updates, list) := (← get).list.stop.takeOutbox
  modify fun node => { node with list }
  updates.forM fun update =>
    targets.forM fun target => post (.store update) target .reliable
  modify fun node => { node with courier := node.courier.shutdown }

def obey (moment : Moment) (ticket : Ticket) : Command → Activity Unit
  | .join seeds => join ticket seeds moment.now
  | .host agent => changeHosting ticket (·.host agent)
  | .stopHosting agent => changeHosting ticket (·.stopHosting agent)
  | .close => do
      leave
      answer ticket .done

/-! ## The tick -/

def watch (now : Nat) : Activity Unit := do
  let node ← get
  let (actions, eviction, list, rotation) ← node.eviction.tick now node.list node.rotation
  set { node with eviction, list, rotation }
  actions.forM perform

def retryJoin (now : Nat) : Activity Unit := do
  let (step, joining) ← (← get).joining.check now
  modify fun node => { node with joining }
  if let some (.contact seeds) := step then
    contact seeds

def anySeed : Activity (Option SocketAddress) :=
  modifyGet fun node =>
    let (choice, chance) := node.rotation.chance.below node.joining.seeds.size
    (node.joining.seedAt choice, { node with rotation := { node.rotation with chance } })

/-- The peer to heal with: another member, or else a seed. -/
def healingPeer : Activity (Option SocketAddress) := do
  match ← peerAddresses 1 with
  | peer :: _ => return some peer
  | [] => anySeed

def heal (now : Nat) : Activity Unit := do
  let (due, healing) ← (← get).healing.tick now
  modify fun node => { node with healing }
  if due then
    if let some peer ← healingPeer then
      if ← send (.heal (← get).list.digest) peer .reliable then
        let healing ← (← get).healing.begin peer now
        modify fun node => { node with healing }

/-- Spread pending gossip once in every gossip period. -/
def spread (now : Nat) : Activity Unit := do
  let node ← get
  if node.nextSpread ≤ now then
    let nextSpread ← Word.add now node.options.gossipPeriod.toNat
    modify fun node => { node with nextSpread }
    settle
    let targets ← peerAddresses (← get).courier.fanout
    modify fun node => { node with courier := node.courier.spread targets }

def tick (now : Nat) : Activity Unit := do
  watch now
  retryJoin now
  heal now
  spread now
  settle

/-! ## One step -/

/-- What a node does when something happens. -/
def step (moment : Moment) : Event → Activity Unit
  | .command ticket command => obey moment ticket command
  | .datagram datagram => arrive moment datagram
  | .tick => tick moment.now

end Node

end Roster
