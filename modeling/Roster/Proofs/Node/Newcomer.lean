import Roster.Proofs.Node.Settled

/-!
# Nodes that can be followed

What a node settles as depends on the magnitude of its cluster, which is measured in
floating point.  That of a sparing node does not, so what it comes to when a datagram
arrives, or on a tick, can be computed.  Whoever begins with a new node and goes on in
this way comes to nodes that are reachable.
-/

namespace Roster

namespace Node

open Activity

variable {node after : Node} {moment : Moment} {now : Nat}

/-! ## Arrivals -/

private theorem run_arrive {datagram : Datagram} {attended : Node}
    (accepted : (attend moment datagram).run node = (.ok true, attended))
    (sparing : attended.Sparing) :
    (arrive moment datagram).run node = (.ok (), attended.tidied) := by
  rw [arrive_eq, run_bind_of_ok accepted]
  exact sparing.run_settle

/-! ## Ticks -/

/-- What the three loops do on a tick. -/
def mind (now : Nat) : Activity Unit := do
  watch now
  retryJoin now
  heal now

/-- The node when its next spreading is scheduled. -/
def scheduled (node : Node) (now : Nat) : Node :=
  { node with nextSpread := now + node.options.gossipPeriod.toNat }

/-- The node when it has pushed its gossip to a few peers. -/
def pushed (node : Node) : Node :=
  let (targets, rotation) := node.rotation.select node.courier.fanout [node.list.own]
  { node with rotation, courier := node.courier.spread (targets.map (·.2)) }

private theorem run_push (node : Node) :
    (do
      let targets ← peerAddresses (← get).courier.fanout
      modify fun node => { node with courier := node.courier.spread targets } :
        Activity Unit).run node = (.ok (), node.pushed) :=
  rfl

theorem Sparing.scheduled (sparing : node.Sparing) (now : Nat) : (node.scheduled now).Sparing :=
  { multiplier_le := sparing.multiplier_le
    scaled_lt := sparing.scaled_lt
    next_lt := sparing.next_lt
    perEnvelope_le := sparing.perEnvelope_le }

private theorem run_spread (due : node.nextSpread ≤ now)
    (fits : now + node.options.gossipPeriod.toNat < Word.bound) (sparing : node.Sparing) :
    (spread now).run node = (.ok (), (node.scheduled now).tidied.pushed) := by
  unfold spread
  rw [run_get_bind, if_pos due, run_lift_bind_of_ok (Word.add_eq_ok fits)]
  have schedules :
      (modify fun after : Node =>
          { after with nextSpread := now + node.options.gossipPeriod.toNat } :
        Activity Unit).run node = (.ok (), node.scheduled now) :=
    rfl
  refine (run_bind_of_ok schedules).trans ?_
  exact (run_bind_of_ok (sparing.scheduled now).run_settle).trans (run_push _)

/-- After its loops the node spreads gossip and settles, sparingly each time. -/
def Spreads (node : Node) (now : Nat) : Prop :=
  node.nextSpread ≤ now ∧ now + node.options.gossipPeriod.toNat < Word.bound ∧ node.Sparing ∧
    (node.scheduled now).tidied.pushed.Sparing

instance : Decidable (node.Spreads now) :=
  inferInstanceAs (Decidable (_ ∧ _))

/-- What it comes to by that. -/
def ticked (node : Node) (now : Nat) : Node :=
  (node.scheduled now).tidied.pushed.tidied

private theorem run_tick {minded : Node} (done : (mind now).run node = (.ok (), minded))
    (spreads : minded.Spreads now) : (tick now).run node = (.ok (), minded.ticked now) := by
  obtain ⟨due, fits, sparing, spares⟩ := spreads
  have regrouped : tick now = (do mind now; spread now; Node.settle) := by
    simp only [tick, mind, bind_assoc]
  rw [regrouped, run_bind_of_ok done]
  exact (run_bind_of_ok (run_spread due fits sparing)).trans spares.run_settle

/-! ## Steps -/

/-- What a node comes to in a step, if that can be computed. -/
def foresee (moment : Moment) (event : Event) (node : Node) : Option Node :=
  match event with
  | .command _ _ => none
  | .datagram datagram =>
      match (attend moment datagram).run node with
      | (.ok true, attended) => if attended.Sparing then some attended.tidied else none
      | _ => none
  | .tick =>
      match (mind moment.now).run node with
      | (.ok (), minded) =>
          if minded.Spreads moment.now then some (minded.ticked moment.now) else none
      | _ => none

/-- That, or else the node as it is. -/
def foreseen (moment : Moment) (event : Event) (node : Node) : Node :=
  (node.foresee moment event).getD node

theorem run_step_of_foresee {event : Event} (foreseen : node.foresee moment event = some after) :
    (step moment event).run node = (.ok (), after) := by
  unfold foresee at foreseen
  split at foreseen
  · cases foreseen
  · split at foreseen
    · rename_i accepted
      obtain ⟨sparing, same⟩ := Option.ite_none_right_eq_some.mp foreseen
      rw [← Option.some.inj same]
      exact run_arrive accepted sparing
    · cases foreseen
  · split at foreseen
    · rename_i done
      obtain ⟨spreads, same⟩ := Option.ite_none_right_eq_some.mp foreseen
      rw [← Option.some.inj same]
      exact run_tick done spreads
    · cases foreseen

theorem run_foreseen {event : Event} (seen : (node.foresee moment event).isSome = true) :
    (step moment event).run node = (.ok (), node.foreseen moment event) := by
  obtain ⟨after, foreseen⟩ := Option.isSome_iff_exists.mp seen
  rw [Node.foreseen, foreseen]
  exact run_step_of_foresee foreseen

theorem Reachable.foreseen {event : Event} (reachable : Reachable node)
    (seen : (node.foresee moment event).isSome = true) :
    Reachable (node.foreseen moment event) := by
  refine .step moment event reachable (fun ticket same => ?_) (run_foreseen seen)
  rw [same] at seen
  cases seen

/-! ## A new node -/

def newcomer : Node :=
  let options : Options := { gossipPerEnvelope := 1, retransmitMultiplier := 1 }
  let own : Endpoint := ⟨"10.0.0.1", 1, 5⟩
  let link : Link := { address := ⟨.v4 0x0a000001, 1, 0⟩ }
  (unsettled options own SortedMap.empty ⟨1⟩ link (Chance.ofSeed 1)
    (freshCourier options own ⟨1⟩ link 1)).tidied

theorem new_newcomer :
    Node.new { gossipPerEnvelope := 1, retransmitMultiplier := 1 } ⟨"10.0.0.1", 1, 5⟩
      SortedMap.empty ⟨1⟩ { address := ⟨.v4 0x0a000001, 1, 0⟩ } (Chance.ofSeed 1) =
        .ok newcomer := by
  have limited :
      Limited { gossipPerEnvelope := 1, retransmitMultiplier := 1 } (Health.magnitude 1) 1 :=
    Health.retransmissions_eq_one _ (by decide) (by decide) (Health.magnitude_lt 1) (by decide)
  refine new_eq_ok (limited.courier _ _ _) (Sparing.run_settle ?_)
  decide +kernel

/-! ## The first member -/

def watched : Endpoint :=
  ⟨"10.0.0.2", 2, 7⟩

def accuser : Endpoint :=
  ⟨"10.0.0.3", 3, 9⟩

def passerby : Endpoint :=
  ⟨"10.0.0.9", 9, 9⟩

def mail (sender : Endpoint) (message : Message) (gossip : List Gossip) : Datagram :=
  let envelope : Envelope := { env := "dev", sender, message, gossip }
  { payload := envelope.encode.toOption.getD []
    sender := sender.socketAddress?.getD { ip := .v4 0, port := 0 } }

/-- A host that has just started asks to join, and gossips that it is alive. -/
def introduction (own : Endpoint) (replica : ReplicaId) : Datagram :=
  let list := MemberList.new own SortedMap.empty replica
  mail own (.join list.digest (list.full.toOption.getD SortedMap.empty))
    [{ id := { origin := replica, sequence := 1 }, payload := .alive own }]

def clock (now : Nat) : Moment :=
  { now, incarnation := 50 }

def dawn : Moment :=
  clock 0

def acquainted : Node :=
  newcomer.foreseen dawn (.datagram (introduction watched ⟨2⟩))

theorem foresee_introduction :
    (newcomer.foresee dawn (.datagram (introduction watched ⟨2⟩))).isSome = true := by
  decide +kernel

theorem reachable_acquainted : Reachable acquainted :=
  .foreseen (.start new_newcomer) foresee_introduction

end Node

end Roster
