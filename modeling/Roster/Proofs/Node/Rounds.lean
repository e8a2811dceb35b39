import Roster.Proofs.Node.Retirement

/-!
# Who ends a round

To heed gossip and to merge has nothing to do with the rounds in flight, and to
settle drops those of hosts that are no members.  So when a datagram has arrived,
what its message has done to the rounds can be read off: an ack ends the round of
its number, and that is all it tells.  It does not matter who has sent it.
-/

namespace Roster

namespace Detector

/-- An ack ends the round of its number, and only if there is one it is a success. -/
private theorem rounds_receiveAck (detector : Detector) (sequence : UInt64) :
    (detector.receiveAck sequence).2.probes = detector.probes.erase sequence ∧
      (detector.receiveAck sequence).2.health =
        if detector.probes.contains sequence then detector.health.succeed
        else detector.health := by
  unfold receiveAck
  split
  · exact ⟨rfl, rfl⟩
  · rename_i missing
    have unchanged : detector.probes.erase sequence = detector.probes := by
      rw [Bool.not_eq_true, SortedMap.contains_eq_false_iff] at missing
      refine SortedMap.ext_get? fun number => ?_
      rw [SortedMap.get?_erase]
      split
      · rename_i same
        rw [same, missing]
      · rfl
    rw [unchanged]
    split <;> exact ⟨rfl, rfl⟩

private theorem passedOn_receiveAck {detector : Detector} {sequence : UInt64} {finding : Finding}
    (list : MemberList) (among : finding ∈ (detector.receiveAck sequence).1) :
    finding.IsPassedOn list := by
  unfold receiveAck at among
  split at among
  · cases among
  · split at among
    · rw [List.mem_singleton.mp among]
      trivial
    · cases among

end Detector

namespace Node

open Activity Relation

variable {before node after : Node} {sequence : UInt64}

/-! ## What has nothing to do with rounds -/

/-- The same rounds are in flight, and the health is the same. -/
abbrev SameRounds (before after : Node) : Prop :=
  before.eviction.detector.SameRounds after.eviction.detector

instance : IsPreorder Node SameRounds where
  refl _ := .refl _
  trans _ _ _ := .trans

theorem SameRounds.hears : Hears SameRounds where
  broadcast _ := .refl _
  send _ _ _ _ := .refl _
  rename _ _ := .refl _
  ask operated leaves := .operate leaves operated
  other _ _ _ _ _ _ := .refl _

theorem SameRounds.within_heed (moment : Moment) (payload : Payload) :
    Within SameRounds (heed moment payload) :=
  SameRounds.hears.within_heed moment payload fun suspected => .suspect suspected

/-- An accepted datagram is heeded, which leaves the rounds alone, then its message is
handled, and then the node settles. -/
private theorem phases_of_arrive {moment : Moment} {datagram : Datagram} {inbound : Inbound}
    {courier : Courier} (accepted : node.courier.accept datagram = (some inbound, courier))
    (arrived : (arrive moment datagram).run node = (.ok (), after)) :
    ∃ heeded handled, SameRounds node heeded ∧
      (handle moment datagram.sender inbound.envelope.message).run heeded = (.ok (), handled) ∧
      settle.run handled = (.ok (), after) := by
  rw [arrive_eq] at arrived
  obtain ⟨_, attended, attendedOk, arrived⟩ := run_bind_eq_ok arrived
  rw [run_attend_of_accepted accepted] at attendedOk
  obtain ⟨_, heeded, heededOk, attendedOk⟩ := run_bind_eq_ok attendedOk
  obtain ⟨_, handled, handledOk, attendedOk⟩ := run_bind_eq_ok attendedOk
  cases attendedOk
  have heeding :=
    Within.of_run (within_forM (SameRounds.within_heed moment) inbound.tidings) heededOk
  exact ⟨heeded, _, heeding, handledOk, arrived⟩

/-- What holds when a datagram was dropped, and when one was heeded and then handled,
holds when it has arrived if to settle keeps it. -/
theorem holds_arrive {moment : Moment} {datagram : Datagram} (holds : Node → Prop)
    (dropped :
      ∀ courier, node.courier.accept datagram = (none, courier) → holds { node with courier })
    (accepted :
      ∀ inbound courier, node.courier.accept datagram = (some inbound, courier) →
        holds ((inbound.tidings.forM (heed moment)).run { node with courier }).2 ∧
          ∀ heeded,
            (inbound.tidings.forM (heed moment)).run { node with courier } =
                (.ok (), heeded) →
              holds ((handle moment datagram.sender inbound.envelope.message).run heeded).2)
    (settles : ∀ attended : Node, holds attended → holds (settle.run attended).2) :
    holds ((arrive moment datagram).run node).2 := by
  have attended : holds ((attend moment datagram).run node).2 := by
    cases result : node.courier.accept datagram with
    | mk taken courier =>
        cases taken with
        | none =>
            rw [run_attend_of_dropped result]
            exact dropped courier result
        | some inbound =>
            rw [run_attend_of_accepted result]
            obtain ⟨heeded, handled⟩ := accepted inbound courier result
            refine holds_bind holds heeded fun _ heeded heededOk _ => ?_
            exact holds_bind holds (handled heeded heededOk) fun _ _ _ held => held
  rw [arrive_eq]
  refine holds_bind holds attended fun accepted after _ held => ?_
  split
  · exact settles after held
  · exact held

/-- To settle keeps exactly the rounds of members. -/
private theorem rounds_of_settle (settled : settle.run node = (.ok (), after)) :
    after.list.members = node.list.members ∧
      after.eviction.detector.health = node.eviction.detector.health ∧
      after.eviction.detector.probes =
        node.eviction.detector.probes.filter fun _ probe =>
          after.list.members.contains probe.target := by
  obtain ⟨_, middle, spread, followed⟩ := run_bind_eq_ok settled
  have spreading : Steady { node with list := node.list.takeOutbox.2 } middle :=
    Within.of_run (within_forM (fun update => steady_broadcast (.delta update)) _) spread
  unfold follow at followed
  rw [run_get_bind] at followed
  obtain ⟨_, _, set⟩ := run_lift_bind_eq_ok followed
  cases set
  have sameMembers : middle.list.members = node.list.members := by
    rw [spreading.list_eq]
    rfl
  have sameDetector : middle.eviction.detector = node.eviction.detector := spreading.detector_eq
  rw [← sameDetector]
  exact ⟨sameMembers, rfl, rfl⟩

/-! ## Acks -/

/-- An ack that is accepted ends the round of its number, whoever sent it, and no other
round of a member.  If there is such a round, the health improves. -/
theorem rounds_of_ack {moment : Moment} {datagram : Datagram} {inbound : Inbound}
    {courier : Courier} (accepted : node.courier.accept datagram = (some inbound, courier))
    (message : inbound.envelope.message = .ack sequence)
    (arrived : (arrive moment datagram).run node = (.ok (), after)) :
    after.eviction.detector.probes =
        (node.eviction.detector.probes.erase sequence).filter (fun _ probe =>
          after.list.members.contains probe.target) ∧
      after.eviction.detector.health =
        if node.eviction.detector.probes.contains sequence then
          node.eviction.detector.health.succeed
        else
          node.eviction.detector.health := by
  obtain ⟨heeded, handled, heeding, handledOk, settled⟩ := phases_of_arrive accepted arrived
  obtain ⟨_, sameHealth, kept⟩ := rounds_of_settle settled
  rw [message] at handledOk
  -- All that an ack can find is passed on, which has nothing to do with rounds.
  have acked :
      (heeded.eviction.detector.receiveAck sequence).2.SameRounds handled.eviction.detector := by
    have acting :
        SameRounds
          { heeded with
            eviction :=
              { heeded.eviction with
                detector := (heeded.eviction.detector.receiveAck sequence).2 } }
          ((receiveAck sequence).run heeded).2 :=
      step_of_steps <|
        SameRounds.hears.steps_actOn_of_passedOn
          (fun _ => Detector.passedOn_receiveAck heeded.list) .refl
    have ran : (receiveAck sequence).run heeded = (.ok (), handled) := handledOk
    rwa [ran] at acting
  obtain ⟨erased, improved⟩ := heeded.eviction.detector.rounds_receiveAck sequence
  constructor
  · rw [kept, acked.probes_eq, erased, heeding.probes_eq]
  · rw [sameHealth, acked.health_eq, improved, heeding.probes_eq, heeding.health_eq]

/-! ## A round that is in flight -/

/-- A node that has begun to probe the watched member. -/
def prober : Node :=
  acquainted.foreseen dawn .tick

private theorem foresee_tick : (acquainted.foresee dawn .tick).isSome = true := by
  decide +kernel

private theorem reachable_prober : Reachable prober :=
  reachable_acquainted.foreseen foresee_tick

def begun : Probe :=
  { target := watched, directDeadline := 500, roundDeadline := 1000 }

/-- Another host acks the number of a round. -/
def misplaced (sequence : UInt64) : Datagram :=
  mail accuser (.ack sequence) []

private theorem foresee_misplaced :
    (prober.foresee (clock 100) (.datagram (misplaced 1))).isSome = true := by
  decide +kernel

/-- It ends the round. -/
theorem rounds_of_ack_prober :
    ∃ inbound courier after,
      prober.courier.accept (misplaced 1) = (some inbound, courier) ∧
        inbound.envelope.message = .ack 1 ∧
        (arrive (clock 100) (misplaced 1)).run prober = (.ok (), after) ∧
        after.eviction.detector.probes =
          (prober.eviction.detector.probes.erase 1).filter (fun _ probe =>
            after.list.members.contains probe.target) ∧
        after.eviction.detector.health =
          if prober.eviction.detector.probes.contains 1 then
            prober.eviction.detector.health.succeed
          else
            prober.eviction.detector.health := by
  have acks :
      (prober.courier.accept (misplaced 1)).1.map (·.envelope.message) = some (.ack 1) := by
    decide +kernel
  have arrived := run_foreseen foresee_misplaced
  cases accepted : prober.courier.accept (misplaced 1) with
  | mk taken courier =>
      rw [accepted] at acks
      obtain ⟨inbound, rfl, message⟩ := Option.map_eq_some_iff.mp acks
      exact
        ⟨inbound, courier, _, rfl, message, arrived, rounds_of_ack accepted message arrived⟩

/-! ## A round after one that has failed -/

def stepAll (events : List (Moment × Event)) : Activity Unit :=
  events.forM fun event => step event.1 event.2

/-- What a node comes to in some steps that can be computed, and the envelopes that are
delivered on the way. -/
def foreseeAll : List (Moment × Event) → Node → Option (Node × List Envelope)
  | [], node => some (node, [])
  | (moment, event) :: rest, node => do
      let after ← node.foresee moment event
      let (last, received) ← foreseeAll rest after
      return (last, node.delivered (.event event) ++ received)

theorem foreseeAll_eq_some {moment : Moment} {event : Event} {rest : List (Moment × Event)}
    {received : List Envelope}
    (foreseen : foreseeAll ((moment, event) :: rest) node = some (after, received)) :
    ∃ middle others, (step moment event).run node = (.ok (), middle) ∧
      foreseeAll rest middle = some (after, others) ∧
      received = node.delivered (.event event) ++ others := by
  obtain ⟨middle, first, foreseen⟩ := Option.bind_eq_some_iff.mp foreseen
  obtain ⟨⟨last, others⟩, seen, same⟩ := Option.bind_eq_some_iff.mp foreseen
  cases same
  exact ⟨middle, others, run_step_of_foresee first, seen, rfl⟩

private theorem run_foreseeAll :
    ∀ {events : List (Moment × Event)} {node : Node} {received : List Envelope},
      foreseeAll events node = some (after, received) →
        (stepAll events).run node = (.ok (), after)
  | [], _, _, foreseen => by
      cases foreseen
      rfl
  | (moment, event) :: rest, node, _, foreseen => by
      obtain ⟨middle, _, first, others, _⟩ := foreseeAll_eq_some foreseen
      have split : (stepAll ((moment, event) :: rest)).run node = (stepAll rest).run middle :=
        run_bind_of_ok first
      exact split.trans (run_foreseeAll others)

/-- The new node if suspicions by one host take as long as the default options make them
take in a cluster of two or three.  What is measured in floating point cannot be
computed here. -/
def timed : Node :=
  { newcomer with
    eviction :=
      { newcomer.eviction with
        detector :=
          { newcomer.eviction.detector with
            timing := { shortest := fun _ => 2000, timeout := fun _ _ => 6000 } } } }

def silence : List (Moment × Event) :=
  [(dawn, .datagram (introduction watched ⟨2⟩)), (dawn, .tick), (clock 1000, .tick),
    (clock 2000, .tick)]

/-- A node whose second round is in flight, after the first one has failed. -/
def doubter : Node :=
  ((foreseeAll silence timed).map (·.1)).getD timed

private theorem run_silence :
    (stepAll silence).run timed = (.ok (), doubter) := by
  have seen : (foreseeAll silence timed).isSome = true := by
    decide +kernel
  obtain ⟨⟨after, received⟩, foreseen⟩ := Option.isSome_iff_exists.mp seen
  rw [doubter, foreseen]
  exact run_foreseeAll foreseen

def renewed : Probe :=
  { target := watched, directDeadline := 3000, roundDeadline := 4000 }

/-- The ack of another host ends the round of the watched member, which stays a member,
and improves the health if a round has failed before. -/
theorem round_ended_by_other_host :
    (Reachable prober ∧
      ∃ after,
        (arrive (clock 100) (misplaced 1)).run prober = (.ok (), after) ∧
          (prober.delivered (.event (.datagram (misplaced 1)))).map
              (fun envelope => (envelope.sender, envelope.message)) = [(accuser, .ack 1)] ∧
          accuser.sameHost watched = false ∧
          prober.eviction.detector.probes.get? 1 = some begun ∧ begun.target = watched ∧
          after.eviction.detector.probes.get? 1 = none ∧
          after.list.members.contains watched = true) ∧
      (stepAll silence).run timed = (.ok (), doubter) ∧
      ∃ after,
        (arrive (clock 2100) (misplaced 2)).run doubter = (.ok (), after) ∧
          (doubter.delivered (.event (.datagram (misplaced 2)))).map
              (fun envelope => (envelope.sender, envelope.message)) = [(accuser, .ack 2)] ∧
          accuser.sameHost watched = false ∧
          doubter.eviction.detector.probes.get? 2 = some renewed ∧ renewed.target = watched ∧
          after.eviction.detector.probes.get? 2 = none ∧
          after.eviction.detector.health.score ≠ doubter.eviction.detector.health.score ∧
          after.list.members.contains watched = true := by
  have seen : (doubter.foresee (clock 2100) (.datagram (misplaced 2))).isSome = true := by
    decide +kernel
  refine ⟨⟨reachable_prober, _, run_foreseen foresee_misplaced, ?_⟩, run_silence, ?_⟩
  · decide +kernel
  · exact ⟨_, run_foreseen seen, by decide +kernel⟩

end Node

end Roster
