import Roster.Proofs.Attempt
import Roster.Proofs.Network

/-!
# Runs of a network

A run of a network is what was done on it, in any order: old sockets may be shut down
again long after their addresses were bound anew.  A move that is refused leaves the
network as it was, so a run consists of the others.

Every network that is reached routes to the owners of its addresses.  Without loss a
socket receives what was sent to it, each datagram once and in the order of sending,
and what it has not received yet waits in its inbox.
-/

namespace Roster

namespace Network

/-! ## Moves -/

inductive Move where
  | bind (ip : IpAddress) (port : UInt16)
  | shutdown (binding : Binding)
  | kill (address : SocketAddress)
  | revive (address : SocketAddress)
  | setLoss (loss : Nat)
  | send (binding : Binding) (parcel : Parcel)
  | receive (binding : Binding)

def move (network : Network) : Move → Except Fault Network
  | .bind ip port => (network.bind ip port).map (·.2)
  | .shutdown binding => .ok (network.shutdown binding)
  | .kill address => .ok (network.kill address)
  | .revive address => .ok (network.revive address)
  | .setLoss loss => .ok (network.setLoss loss)
  | .send binding parcel => network.send binding parcel
  | .receive binding => (network.receive binding).map (·.2)

structure Occurrence where
  before : Network
  move : Move

variable {start network after : Network} {binding other : Binding} {history : List Occurrence}
  {step : Move}

theorem Routed.move (routed : network.Routed) (moved : network.move step = .ok after) :
    after.Routed := by
  cases step with
  | bind ip port =>
      obtain ⟨⟨opened, bound⟩, boundOk, rfl⟩ := Attempt.map_eq_ok moved
      exact routed.bind boundOk
  | shutdown binding =>
      cases moved
      exact routed.shutdown
  | kill _ | revive _ | setLoss _ =>
      cases moved
      exact ⟨routed.routes_iff, routed.le_bound⟩
  | send binding parcel =>
      obtain ⟨source, _, rfl⟩ := holds_of_send moved
      exact (sameSockets_carry network source parcel).routed routed
  | receive binding =>
      obtain ⟨⟨taken, rest⟩, received, rfl⟩ := Attempt.map_eq_ok moved
      exact (receive_eq_ok received).1.routed routed

/-! ## Runs -/

/-- What can become of a network, with all that was done on it. -/
inductive Runs (start : Network) : List Occurrence → Network → Prop where
  | start : Runs start [] start
  | move {history : List Occurrence} {before after : Network} {step : Move}
      (run : Runs start history before) (moved : before.move step = .ok after) :
      Runs start (history ++ [⟨before, step⟩]) after

theorem Runs.routed (run : Runs start history network) (routed : start.Routed) :
    network.Routed := by
  induction run with
  | start => exact routed
  | move _ moved inductionHypothesis => exact inductionHypothesis.move moved

/-! ## What is sent and what is received -/

/-- What a move sends to a socket: the parcel of an open socket, if neither end is killed
and the socket is open at the destination. -/
def Occurrence.sentTo (binding : Binding) (occurrence : Occurrence) : List Datagram :=
  match occurrence.move with
  | .send sender parcel =>
      match occurrence.before.addressOf? sender with
      | some source =>
          if occurrence.before.Connects source parcel.destination ∧
              occurrence.before.Holds binding parcel.destination then
            [{ payload := parcel.payload, sender := source }]
          else
            []
      | none => []
  | _ => []

def Occurrence.receivedBy (binding : Binding) (occurrence : Occurrence) : List Datagram :=
  match occurrence.move with
  | .receive receiver =>
      match occurrence.before.receive receiver with
      | .ok (some datagram, _) => if binding = receiver then [datagram] else []
      | _ => []
  | _ => []

/-- A move adds to the end of an inbox what it sends there, and takes from its front what
is received. -/
private theorem inbox_move (routed : network.Routed) (lossless : network.loss = 0)
    (moved : network.move step = .ok after) :
    Occurrence.receivedBy binding ⟨network, step⟩ ++ after.inbox binding =
      network.inbox binding ++ Occurrence.sentTo binding ⟨network, step⟩ := by
  cases step with
  | bind ip port =>
      obtain ⟨⟨opened, bound⟩, boundOk, rfl⟩ := Attempt.map_eq_ok moved
      exact (inbox_bind routed boundOk).trans (List.append_nil _).symm
  | shutdown binding =>
      cases moved
      exact inbox_shutdown.trans (List.append_nil _).symm
  | kill _ | revive _ | setLoss _ =>
      cases moved
      exact (List.append_nil _).symm
  | send sender parcel =>
      obtain ⟨source, holds, rfl⟩ := holds_of_send moved
      rw [inbox_carry routed lossless, Occurrence.sentTo]
      simp only [holds.addressOf?]
      rfl
  | receive receiver =>
      obtain ⟨⟨taken, rest⟩, received, rfl⟩ := Attempt.map_eq_ok moved
      have split := (receive_eq_ok received).2.2 binding
      have nothing : Occurrence.sentTo binding ⟨network, .receive receiver⟩ = [] := rfl
      rw [nothing, List.append_nil, split]
      congr 1
      simp only [Occurrence.receivedBy, received]
      cases taken with
      | none => simp
      | some datagram => simp

/-- What a socket has received, and then what waits for it, is what was sent to it. -/
private theorem Runs.received_append_inbox (run : Runs start history network)
    (routed : start.Routed)
    (empty : start.inbox binding = [])
    (lossless : ∀ occurrence ∈ history, occurrence.before.loss = 0) :
    history.flatMap (Occurrence.receivedBy binding) ++ network.inbox binding =
      history.flatMap (Occurrence.sentTo binding) := by
  induction run with
  | start => exact empty
  | @move history before after step run moved inductionHypothesis =>
      have earlier : ∀ occurrence ∈ history, occurrence.before.loss = 0 :=
        fun occurrence among => lossless occurrence (List.mem_append_left _ among)
      have now : before.loss = 0 :=
        lossless ⟨before, step⟩ (List.mem_append_right _ (List.mem_singleton_self _))
      simp only [List.flatMap_append, List.flatMap_singleton, List.append_assoc]
      rw [inbox_move (run.routed routed) now moved, ← List.append_assoc,
        inductionHypothesis earlier]

/-- In every network that is reached, an address has at most one open socket; a port of
one's own choice is bound exactly if none is open at the address, and one is then; to shut
a socket down closes that socket and removes the route to it, and nothing else; and without
loss what an open socket sends between addresses that are not killed comes to the end of
the inbox of the socket that is open at the destination, and to no other inbox.  So each
socket receives what was sent to it, once and in order. -/
theorem leads_to_owner {chance : Chance} (run : Runs { chance } history network) :
    (∀ first second address, network.Holds first address → network.Holds second address →
        first = second) ∧
      (∀ ip port, port ≠ 0 →
        ((∃ opened, network.bind ip port = .ok opened) ↔ network.Vacant { ip, port }) ∧
          ∀ binding after, network.bind ip port = .ok (binding, after) →
            after.Holds binding { ip, port }) ∧
      (∀ binding other address,
        ((network.shutdown binding).Holds other address ↔
            other ≠ binding ∧ network.Holds other address) ∧
          (network.shutdown binding).routes[address]? =
            if network.Holds binding address then none else network.routes[address]?) ∧
      (∀ binding source parcel, network.Holds binding source → network.loss = 0 →
        source ∉ network.killed → parcel.destination ∉ network.killed →
          ∃ after, network.send binding parcel = .ok after ∧
            ∀ other, after.inbox other =
              network.inbox other ++
                if network.Holds other parcel.destination then
                  [{ payload := parcel.payload, sender := source }]
                else []) ∧
      ((∀ occurrence ∈ history, occurrence.before.loss = 0) →
        ∀ binding,
          history.flatMap (Occurrence.receivedBy binding) ++ network.inbox binding =
            history.flatMap (Occurrence.sentTo binding)) := by
  have fresh := Routed.new chance
  have routed := run.routed fresh
  refine ⟨fun first second address => routed.unique, ?_, ?_, ?_, ?_⟩
  · intro ip port chosen
    refine ⟨⟨?_, fun vacant => ⟨_, bind_of_vacant routed chosen vacant⟩⟩, ?_⟩
    · rintro ⟨opened, bound⟩ binding holds
      rw [bind_of_holds routed chosen ⟨binding, holds⟩] at bound
      cases bound
    · intro binding after bound
      by_cases vacant : network.Vacant { ip, port }
      · rw [bind_of_vacant routed chosen vacant] at bound
        cases bound
        exact holds_occupy routed _
      · rw [bind_of_holds routed chosen (by simpa [Vacant] using vacant)] at bound
        cases bound
  · exact fun binding other address => ⟨holds_shutdown_iff, routes_shutdown routed⟩
  · intro binding source parcel holds lossless sourceAlive destinationAlive
    refine ⟨_, send_of_holds holds parcel, fun other => ?_⟩
    have connects : network.Connects source parcel.destination :=
      ⟨sourceAlive, destinationAlive⟩
    rw [inbox_carry routed lossless]
    simp only [connects, true_and]
  · exact fun lossless binding => run.received_append_inbox fresh (by simp [inbox]) lossless

/-! ## An address that is bound anew -/

def deserted : Network :=
  { chance := { source := fun _ => 0 } }

def loopback (port : UInt16) : SocketAddress :=
  { ip := .v4 0x7f000001, port }

private theorem move_bind_of_vacant (routed : network.Routed) {ip : IpAddress} {port : UInt16}
    (chosen : port ≠ 0) (vacant : network.Vacant { ip, port }) :
    network.move (.bind ip port) = .ok (network.occupy { ip, port }).2 := by
  rw [Network.move, bind_of_vacant routed chosen vacant]
  rfl

/-- A socket is shut down, its address is bound anew, and the old socket is shut down once
more: what is sent to the address comes to the new socket. -/
theorem leads_to_owner_reopened :
    ∃ history network, Runs deserted history network ∧
      history.map (·.move) =
        [.bind (loopback 7000).ip 7000, .shutdown 1, .bind (loopback 7000).ip 7000,
          .shutdown 1] ∧
      network.Holds 2 (loopback 7000) ∧ ¬ network.Holds 1 (loopback 7000) ∧
      ∃ after, network.send 2 ⟨loopback 7000, .bestEffort, [5]⟩ = .ok after ∧
        after.inbox 2 = [⟨[5], loopback 7000⟩] ∧ after.inbox 1 = [] := by
  have routed : deserted.Routed := .new _
  have empty : deserted.Vacant (loopback 7000) := by simp [Vacant, Holds, deserted]
  let first := (deserted.occupy (loopback 7000)).2
  have routedFirst : first.Routed := routed.occupy empty
  have holdsFirst {binding} : first.Holds binding (loopback 7000) ↔ binding = 1 := by
    rw [holds_occupy_iff routed, or_iff_left (empty binding)]
    exact and_iff_left rfl
  let closed := first.shutdown 1
  have routedClosed : closed.Routed := routedFirst.shutdown
  have vacant : closed.Vacant (loopback 7000) := by
    intro binding
    rw [holds_shutdown_iff, holdsFirst]
    rintro ⟨other, same⟩
    exact other same
  let second := (closed.occupy (loopback 7000)).2
  have routedSecond : second.Routed := routedClosed.occupy vacant
  let spared := second.shutdown 1
  have holdsSpared {binding} : spared.Holds binding (loopback 7000) ↔ binding = 2 := by
    rw [holds_shutdown_iff, holds_occupy_iff routedClosed, or_iff_left (vacant binding),
      bound_shutdown, and_iff_left rfl]
    constructor
    · exact And.right
    · rintro rfl
      exact ⟨by decide, rfl⟩
  have killed : spared.killed = [] := by
    rw [killed_shutdown]
    exact killed_shutdown
  have lossless : spared.loss = 0 := by
    rw [loss_shutdown]
    exact loss_shutdown
  have inboxSpared (binding : Binding) : spared.inbox binding = [] := by
    rw [inbox_shutdown, inbox_occupy routedClosed, inbox_shutdown, inbox_occupy routed]
    simp [inbox, deserted]
  have bound := Runs.start.move (move_bind_of_vacant routed (by decide) empty)
  have shut := bound.move (show first.move (.shutdown 1) = .ok closed from rfl)
  have reopened := shut.move (move_bind_of_vacant routedClosed (by decide) vacant)
  have run := reopened.move (show second.move (.shutdown 1) = .ok spared from rfl)
  obtain ⟨_, _, _, delivers, _⟩ := leads_to_owner run
  obtain ⟨after, sent, comes⟩ :=
    delivers 2 (loopback 7000) ⟨loopback 7000, .bestEffort, [5]⟩ (holdsSpared.mpr rfl) lossless
      (by simp [killed]) (by simp [killed])
  refine ⟨_, spared, run, rfl, holdsSpared.mpr rfl, ?_, after, sent, ?_, ?_⟩
  · rw [holdsSpared]
    decide
  · rw [comes, inboxSpared, if_pos (holdsSpared.mpr rfl)]
    rfl
  · rw [comes, inboxSpared, if_neg (by rw [holdsSpared]; decide)]
    rfl

end Network

end Roster
