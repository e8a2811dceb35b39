import Roster.Datagram
import Roster.Node.Step
import Roster.Options.Validation

/-!
# Hosts

A host, the facade `AgentHost`, is a node in a loop of its own, together with
the calls of those who use it.  Calls reach the loop through a queue of
commands and wait for their answers.  Between any two moves anything else may
move: `poll` takes one call to its next stage, `work` and `read` let the loop
take one command or one datagram, and `tick` is its timer.

The first call to close wins and sends the only command to leave; every other
one waits until the host is shut down.

Whoever has let a host run an agent holds a handle, the `Agent`, which tells
where in the cluster the agent is hosted and when that has changed.
-/

namespace Roster

/-- How far the life of a host has come. -/
inductive Phase where
  | started
  | stopping
  | shutdown
  deriving DecidableEq, Repr

def Phase.name : Phase → String
  | .started => "started"
  | .stopping => "stopping"
  | .shutdown => "shutdown"

inductive Host.Fault where
  | notAllowed (phase : Phase)
  | invalidOptions (fault : Options.Fault)
  | joinCancelled
  | list (fault : MemberList.Fault)
  | closed
  deriving DecidableEq, Repr

def Host.Fault.message? : Host.Fault → Option String
  | .notAllowed phase => some ("Operation not allowed while " ++ phase.name)
  | .invalidOptions fault => fault.message?.map ("Invalid options: " ++ ·)
  | .joinCancelled => some "Join cancelled by shutdown"
  | .list fault => fault.message?.map ("Member list error: " ++ ·)
  | .closed => some "Agent host is closed"

/-- Where a call stands: not yet run, waiting for room in the queue, for its
answer, for the end of the loop or for the end of another close, or
returned. -/
inductive Stage where
  | called
  | sending
  | answering
  | ending
  | watching
  | returned (result : Except Host.Fault Unit)

structure Call where
  command : Command
  stage : Stage := .called

def Call.isReturned (call : Call) : Bool :=
  match call.stage with
  | .returned _ => true
  | _ => false

/-- A host and its calls, in the order of their tickets. -/
structure Host where
  node : Node
  phase : Phase := .started
  calls : List Call := []
  queue : List (Ticket × Command) := []
  inbox : Inbox := { reading := true }
  running : Bool := true
  abandoned : Bool := false

namespace Host

def capacity : Nat :=
  64

/-! ## Starting -/

def announced (options : Options) (link : Link) (incarnation : UInt64) : Endpoint :=
  { address := options.addr, port := link.address.port, incarnation }

/-- The tags of a host: its environment and its address. -/
def tags (options : Options) (own : Endpoint) : Tags :=
  SortedSet.ofList ["env=" ++ options.env, "addr=" ++ own.hostPort]

/-- Start a host on a link.  Options that are not valid leave the link
closed. -/
def start (options : Options) (link : Link) (replica : ReplicaId) (incarnation : UInt64)
    (chance : Chance) : Except Overflow (Except (Fault × Link) Host) :=
  match options.validate with
  | .error fault => .ok (.error (.invalidOptions fault, link.close))
  | .ok () => do
      let own := announced options link incarnation
      let node ← Node.new options own (tags options own) replica link chance
      return .ok { node }

/-! ## The loop -/

def halt (host : Host) : Host :=
  { host with running := false, queue := [], inbox := host.inbox.close }

/-- Let the node do something; an overflow ends the loop. -/
def drive (host : Host) (activity : Activity Unit) : Host :=
  match activity.run host.node with
  | (.ok (), node) => { host with node }
  | (.error _, node) => { host with node }.halt

/-- Nobody can send a command any more. -/
def isDeserted (host : Host) : Bool :=
  host.abandoned && host.calls.all Call.isReturned

/-- The loop takes a command, and leaves if none can come any more. -/
def work (host : Host) (moment : Moment) : Host :=
  if host.running then
    match host.queue with
    | (ticket, command) :: queue =>
        let host := { host with queue }.drive (Node.step moment (.command ticket command))
        if command = .close then host.halt else host
    | [] => if host.isDeserted then (host.drive Node.leave).halt else host
  else
    host

def read (host : Host) (moment : Moment) : Host :=
  if host.running then
    match host.inbox.next with
    | (some datagram, inbox) =>
        { host with inbox }.drive (Node.step moment (.datagram datagram))
    | (none, _) => host
  else
    host

def tick (host : Host) (moment : Moment) : Host :=
  if host.running then host.drive (Node.step moment .tick) else host

/-! ## Calls -/

/-- Where a call goes when the loop is gone. -/
def bereft : Command → Stage
  | .close => .ending
  | _ => .returned (.error .closed)

def answered : Command → Answer → Stage
  | .close, _ => .ending
  | _, .done => .returned (.ok ())
  | _, .cancelled => .returned (.error .joinCancelled)
  | _, .refused fault => .returned (.error (.list fault))

/-- A call begins: it is refused unless the host is started, and the first
close stops it. -/
def enter (host : Host) (command : Command) : Stage × Host :=
  match host.phase, command with
  | .started, .close => (.sending, { host with phase := .stopping })
  | .started, _ => (.sending, host)
  | _, .close => (.watching, host)
  | phase, _ => (.returned (.error (.notAllowed phase)), host)

/-- Send a command as soon as there is room. -/
def submit (host : Host) (ticket : Ticket) (command : Command) : Stage × Host :=
  if !host.running then
    (bereft command, host)
  else if host.queue.length < capacity then
    (.answering, { host with queue := host.queue ++ [(ticket, command)] })
  else
    (.sending, host)

/-- Take the answer as soon as it is there. -/
def await (host : Host) (ticket : Ticket) (command : Command) : Stage :=
  match host.node.answers.lookup ticket with
  | some answer => answered command answer
  | none => if host.running then .answering else bereft command

/-- The next stage of a call, and the host after that. -/
def proceed (host : Host) (ticket : Ticket) (call : Call) : Stage × Host :=
  match call.stage with
  | .called => host.enter call.command
  | .sending => host.submit ticket call.command
  | .answering => (host.await ticket call.command, host)
  | .ending =>
      if host.running then
        (.ending, host)
      else
        (.returned (.ok ()), { host with phase := .shutdown })
  | .watching => (if host.phase = .shutdown then .returned (.ok ()) else .watching, host)
  | .returned result => (.returned result, host)

/-- Take a call to its next stage, unless it has to wait. -/
def poll (host : Host) (ticket : Ticket) : Host :=
  match host.calls[ticket]? with
  | some call =>
      let (stage, host) := host.proceed ticket call
      { host with calls := host.calls.set ticket { call with stage } }
  | none => host

def call (host : Host) (command : Command) : Ticket × Host :=
  (host.calls.length, { host with calls := host.calls ++ [{ command }] })

def result? (host : Host) (ticket : Ticket) : Option (Except Fault Unit) :=
  match host.calls[ticket]? with
  | some { stage := .returned result, .. } => some result
  | _ => none

/-! ## Moves -/

inductive Move where
  | call (command : Command)
  | poll (ticket : Ticket)
  | work
  | read
  | tick
  | arrive (datagram : Datagram)
  | abandon

def move (host : Host) (moment : Moment) : Move → Host
  | .call command => (host.call command).2
  | .poll ticket => host.poll ticket
  | .work => host.work moment
  | .read => host.read moment
  | .tick => host.tick moment
  | .arrive datagram => { host with inbox := host.inbox.arrive datagram }
  | .abandon => { host with abandoned := true }

/-- Every call moves once, and then the loop. -/
def round (moment : Moment) (host : Host) : Host :=
  let host := (List.range host.calls.length).foldl poll host
  if host.queue.isEmpty && !host.isDeserted then host.read moment else host.work moment

/-- Moves until nothing can move any more: a call has at most four stages and
sends at most one command. -/
def rest (host : Host) (moment : Moment) : Host :=
  let calls := host.calls.countP fun call => !call.isReturned
  let datagrams := host.inbox.arrived.length + host.inbox.handed.length
  Nat.repeat (round moment) (calls + host.queue.length + datagrams + 6) host

end Host

/-- A handle: the version of the landscape it has seen, and the hosts it has
reported last. -/
structure AgentHandle where
  agent : String
  seen : Nat := 0
  reported : SortedSet Endpoint
  deriving DecidableEq, Inhabited

/-- What a handle can report: new hosts, nothing yet, or that the host has
ended. -/
inductive AgentNews where
  | hosts (endpoints : SortedSet Endpoint)
  | nothing
  | ended
  deriving DecidableEq

/-- Every endpoint that hosts an agent. -/
def Host.hostsOf (host : Host) (agent : String) : SortedSet Endpoint :=
  (host.node.landscape.value.get? agent).getD SortedMap.empty

def Host.handleOf (host : Host) (agent : String) : AgentHandle :=
  { agent, reported := host.hostsOf agent }

/-- Report the hosts of the agent if they have changed since the last report;
changes of other agents are passed over. -/
def AgentHandle.news (handle : AgentHandle) (host : Host) : AgentNews × AgentHandle :=
  let current := host.hostsOf handle.agent
  let seen := host.node.landscape.version
  if handle.seen ≠ seen ∧ current ≠ handle.reported then
    (.hosts current, { handle with seen, reported := current })
  else
    (if host.running then .nothing else .ended, { handle with seen })

end Roster
