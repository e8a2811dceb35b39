import Roster.Proofs.Node.Frugal
import Roster.Proofs.Node.Hearsay

/-!
# A node between its steps

The rotation, the detector, the courier and the published views hold copies of
the membership, and three of them go by the own endpoint.  A step may leave the
copies behind, but it never parts the names: the list returns under a later
incarnation only together with all who go by it.  So it is enough that the node
settles at the end of a step and before it replies.
-/

namespace Roster

/-! ## What a detector keeps of members -/

/-- Suspicions, probes and the times of the last word are all of members. -/
structure Detector.Concerns (detector : Detector) (isMember : Endpoint → Bool) : Prop where
  suspected : ∀ target suspicion,
    detector.suspicions.get? target = some suspicion → isMember target = true
  probed : ∀ sequence probe,
    detector.probes.get? sequence = some probe → isMember probe.target = true
  heard : ∀ sender time, detector.lastHeard.get? sender = some time → isMember sender = true

private theorem Detector.concerns_retainMembers (detector : Detector) (isMember : Endpoint → Bool) :
    (detector.retainMembers isMember).Concerns isMember where
  suspected target suspicion found := by
    rw [retainMembers, SortedMap.get?_filter, Option.filter_eq_some_iff] at found
    exact found.2
  probed sequence probe found := by
    rw [retainMembers, SortedMap.get?_filter, Option.filter_eq_some_iff] at found
    exact found.2
  heard sender time found := by
    rw [retainMembers, SortedMap.get?_filter, Option.filter_eq_some_iff] at found
    exact found.2

namespace Node

open Activity Relation

/-! ## Names and copies -/

/-- All who go by the own endpoint go by that of the member list, and no member
stands twice in the rotation. -/
structure Aligned (node : Node) : Prop where
  courierOwn_eq : node.courier.own = node.list.own
  detectorOwn_eq : node.eviction.detector.own = node.list.own
  own_eq : node.own = node.list.own
  rotation_nodup : node.rotation.members.Nodup

/-- Every copy of the membership agrees with the member list, and every local
edit was spread. -/
structure Settled (node : Node) : Prop extends Aligned node where
  members_eq : node.members.value = node.list.members
  landscape_eq : node.landscape.value = node.list.landscape
  mem_rotation : ∀ endpoint,
    endpoint ∈ node.rotation.members ↔ node.list.members.contains endpoint = true
  concerns : node.eviction.detector.Concerns node.list.members.contains
  clusterSize_eq : node.eviction.detector.clusterSize = max node.list.members.size 1
  peers_eq : node.courier.peers = node.list.members.size - 1
  outbox_eq : node.list.outbox = []

variable {before node after : Node}

/-! ## The names stay together -/

theorem Aligned.move (aligned : before.Aligned) (move : Move before after) : after.Aligned := by
  cases move with
  | steady steady =>
      exact
        { courierOwn_eq := by
            rw [steady.courier_keeps.own_eq, steady.list_eq, aligned.courierOwn_eq]
          detectorOwn_eq := by
            rw [steady.detector_eq, steady.list_eq, aligned.detectorOwn_eq]
          own_eq := by rw [steady.own_eq, steady.list_eq, aligned.own_eq]
          rotation_nodup := steady.rotation_perm.nodup_iff.mpr aligned.rotation_nodup }
  | detect operation quiet operated =>
      have sameOwn := (Detector.Drifts.operate quiet operated).own_eq
      exact { aligned with detectorOwn_eq := sameOwn.trans aligned.detectorOwn_eq }
  | edit edits =>
      have sameOwn := edits.own_eq
      exact
        { courierOwn_eq := aligned.courierOwn_eq.trans sameOwn.symm
          detectorOwn_eq := aligned.detectorOwn_eq.trans sameOwn.symm
          own_eq := aligned.own_eq.trans sameOwn.symm
          rotation_nodup := aligned.rotation_nodup }
  | merge reports kept =>
      exact
        { courierOwn_eq := aligned.courierOwn_eq.trans kept.symm
          detectorOwn_eq := aligned.detectorOwn_eq.trans kept.symm
          own_eq := aligned.own_eq.trans kept.symm
          rotation_nodup := aligned.rotation_nodup }
  | adopt reports =>
      exact
        { courierOwn_eq := rfl
          detectorOwn_eq := rfl
          own_eq := rfl
          rotation_nodup := aligned.rotation_nodup }
  | publish current members landscape named =>
      exact
        { aligned with
          courierOwn_eq := named.trans aligned.courierOwn_eq
          rotation_nodup := (Rotation.members_refresh aligned.rotation_nodup current).1 }

theorem Aligned.deeds (aligned : before.Aligned) (deeds : ReflTransGen Deed before after) :
    after.Aligned := by
  induction deeds with
  | refl => exact aligned
  | tail _ last inductionHypothesis =>
      cases last with
      | move move => exact inductionHypothesis.move move
      | answer => exact { inductionHypothesis with }

/-- The names stay together, and nobody is answered. -/
structure Carries (before after : Node) : Prop where
  aligned : before.Aligned → after.Aligned
  answers_eq : after.answers = before.answers

theorem Carries.of_move (move : Move before after) : Carries before after where
  aligned aligned := aligned.move move
  answers_eq := by
    cases move with
    | steady steady => exact steady.answers_eq
    | _ => rfl

instance : IsPreorder Node Carries where
  refl _ := ⟨id, rfl⟩
  trans _ _ _ first second :=
    ⟨second.aligned ∘ first.aligned, second.answers_eq.trans first.answers_eq⟩

theorem carries_of_moves {α : Type} {activity : Activity α} (moves : Within Move activity) :
    Within Carries activity :=
  moves.mono .of_move

theorem carries_heed (moment : Moment) (payload : Payload) :
    Within Carries (heed moment payload) := by
  cases payload with
  | alive endpoint => exact carries_of_moves (within_observe endpoint moment.now)
  | delta update => exact carries_of_moves (within_receive moment update)
  | suspect target suspector =>
      refine within_get_bind fun node => ?_
      simp only
      split
      · exact carries_of_moves (within_broadcast _) node
      split
      · refine steps_lift_bind fun suspected suspectedOk => ?_
        obtain ⟨finding, detector⟩ := suspected
        have told : Carries node { node with eviction := { node.eviction with detector } } := by
          refine ⟨fun aligned => ?_, rfl⟩
          have sameOwn := Detector.own_of_suspect suspectedOk
          exact { aligned with detectorOwn_eq := sameOwn.trans aligned.detectorOwn_eq }
        refine (ReflTransGen.single told).trans ?_
        exact ReflTransGen.mono (fun _ _ => .of_move) _ _ (moves_actOn ReflTransGen.refl)
      · exact ReflTransGen.refl

/-! ## Settling -/

private theorem steady_spreadEdits (node : Node) :
    Steady { node with list := node.list.takeOutbox.2 } (spreadEdits.run node).2 := by
  have spread :=
    within_forM (fun update => steady_broadcast (.delta update)) node.list.takeOutbox.1
  exact step_of_steps (spread { node with list := node.list.takeOutbox.2 })

/-- Every copy follows the list once its edits are spread. -/
private theorem settled_follow (aligned : node.Aligned) (spread : node.list.outbox = [])
    (followed : follow.run node = (.ok (), after)) : after.Settled := by
  unfold follow at followed
  rw [run_get_bind] at followed
  obtain ⟨courier, tuned, followed⟩ := run_lift_bind_eq_ok followed
  cases followed
  have refreshed :=
    Rotation.members_refresh aligned.rotation_nodup node.list.members.keys
  exact
    { courierOwn_eq := (Courier.own_of_tune tuned).trans aligned.courierOwn_eq
      detectorOwn_eq := aligned.detectorOwn_eq
      own_eq := aligned.own_eq
      rotation_nodup := refreshed.1
      members_eq := Watched.value_publish _ _
      landscape_eq := Watched.value_publish _ _
      mem_rotation := fun endpoint =>
        (refreshed.2 endpoint).trans SortedMap.mem_keys_iff
      concerns := Detector.concerns_retainMembers _ _
      clusterSize_eq := rfl
      peers_eq := Courier.peers_of_tune tuned
      outbox_eq := spread }

/-- To settle makes every copy agree, as long as the names are together. -/
theorem settled_settle (aligned : node.Aligned) (done : settle.run node = (.ok (), after)) :
    after.Settled := by
  obtain ⟨_, spread, spreadOk, followed⟩ := run_bind_eq_ok done
  have carried := Within.of_run (carries_of_moves within_spreadEdits) spreadOk
  have listed := (steady_spreadEdits node).list_eq
  rw [spreadOk] at listed
  refine settled_follow (carried.aligned aligned) ?_ followed
  rw [listed]
  rfl

/-! ## What keeps a node settled -/

theorem Settled.steady (settled : before.Settled) (steady : Steady before after) :
    after.Settled where
  toAligned := settled.toAligned.move (.steady steady)
  members_eq := by rw [steady.members_eq, steady.list_eq, settled.members_eq]
  landscape_eq := by rw [steady.landscape_eq, steady.list_eq, settled.landscape_eq]
  mem_rotation endpoint := by
    rw [steady.rotation_perm.mem_iff, steady.list_eq, settled.mem_rotation]
  concerns := by
    rw [steady.detector_eq, steady.list_eq]
    exact settled.concerns
  clusterSize_eq := by rw [steady.detector_eq, steady.list_eq, settled.clusterSize_eq]
  peers_eq := by rw [steady.courier_keeps.peers_eq, steady.list_eq, settled.peers_eq]
  outbox_eq := by rw [steady.list_eq, settled.outbox_eq]

theorem Settled.run_steady {α : Type} {activity : Activity α} (settled : node.Settled)
    (steady : Within Steady activity) : (activity.run node).2.Settled :=
  settled.steady (step_of_steps (steady node))

/-- To answer is of no concern. -/
theorem Settled.give (settled : node.Settled) (reply : Reply) :
    (reply.give.run node).2.Settled := by
  cases reply with
  | none => exact settled
  | one ticket given => exact { settled with }
  | waiting given => exact { settled with }

/-! ## At the reply -/

private theorem settled_handleTurn {moment : Moment} {sender : SocketAddress} {message : Message}
    {turn : Turn} (aligned : node.Aligned)
    (begun : (handleTurn moment sender message).run node = (.ok turn, after))
    (replies : turn.reply ≠ .none) : after.Settled := by
  cases message with
  | exchange kind response request =>
      cases kind with
      | join =>
          obtain ⟨_, merged, mergedOk, begun⟩ := run_bind_eq_ok begun
          have carried := Within.of_run (carries_of_moves (within_merge moment response)) mergedOk
          rw [run_get_bind] at begun
          obtain ⟨_, responded, changed, begun⟩ := run_bind_eq_ok begun
          cases changed
          split at begun
          · obtain ⟨_, settled, settledOk, begun⟩ := run_bind_eq_ok begun
            cases begun
            refine settled_settle ?_ settledOk
            exact (carried.aligned aligned).move (.steady (.loops _ _ _ _))
          · cases begun
            exact absurd rfl replies
      | heal =>
          cases begun
          exact absurd rfl replies
  | _ =>
      cases begun
      exact absurd rfl replies

theorem carries_accept {datagram : Datagram} {inbound : Option Inbound} {courier : Courier}
    (accepted : node.courier.accept datagram = (inbound, courier)) :
    Carries node { node with courier } := by
  have keeps := node.courier.keeps_accept datagram
  rw [accepted] at keeps
  exact .of_move (.steady (.courier keeps))

private theorem settled_arriveTurn {moment : Moment} {datagram : Datagram} {turn : Turn}
    (aligned : node.Aligned)
    (begun : (arriveTurn moment datagram).run node = (.ok turn, after))
    (replies : turn.reply ≠ .none) : after.Settled := by
  unfold arriveTurn at begun
  rw [run_get_bind] at begun
  cases accepted : node.courier.accept datagram with
  | mk inbound courier =>
      rw [accepted] at begun
      obtain ⟨_, taken, changed, begun⟩ := run_bind_eq_ok begun
      cases changed
      cases inbound with
      | none =>
          cases begun
          exact absurd rfl replies
      | some inbound =>
          obtain ⟨_, observed, observedOk, begun⟩ := run_bind_eq_ok begun
          obtain ⟨_, heeded, heededOk, begun⟩ := run_bind_eq_ok begun
          obtain ⟨handled, _, handledOk, begun⟩ := run_bind_eq_ok begun
          cases begun
          have observing := carries_of_moves (within_observe inbound.envelope.sender moment.now)
          have heeding := within_forM (carries_heed moment) inbound.fresh
          refine settled_handleTurn ?_ handledOk replies
          exact
            (Within.of_run heeding heededOk).aligned
              ((Within.of_run observing observedOk).aligned
                ((carries_accept accepted).aligned aligned))

private theorem settled_changeHostingTurn {ticket : Ticket}
    {change : MemberList → Except MemberList.Fault Bool × MemberList} {turn : Turn}
    (edits : ∀ list : MemberList, list.Edits (change list).2) (aligned : node.Aligned)
    (begun : (changeHostingTurn ticket change).run node = (.ok turn, after)) :
    after.Settled := by
  unfold changeHostingTurn at begun
  rw [run_get_bind] at begun
  obtain ⟨_, edited, changed, begun⟩ := run_bind_eq_ok begun
  cases changed
  obtain ⟨_, settled, settledOk, begun⟩ := run_bind_eq_ok begun
  have agrees : settled.Settled :=
    settled_settle (aligned.move (.edit (edits node.list))) settledOk
  split at begun
  · cases begun
    exact agrees
  · cases begun
    exact agrees

/-- A change of what is hosted is answered as soon as the node has settled. -/
private theorem run_changeHostingTurn (ticket : Ticket)
    (change : MemberList → Except MemberList.Fault Bool × MemberList)
    (settled : settle.run { node with list := (change node.list).2 } = (.ok (), after)) :
    ∃ turn, (changeHostingTurn ticket change).run node = (.ok turn, after) ∧
      turn.reply ≠ .none := by
  cases changed : (change node.list).1 with
  | ok _ =>
      refine ⟨{ reply := .one ticket .done }, (run_bind_of_ok settled).trans ?_, by simp⟩
      simp only [changed]
      rfl
  | error fault =>
      refine ⟨{ reply := .one ticket (.refused fault) }, (run_bind_of_ok settled).trans ?_, by simp⟩
      simp only [changed]
      rfl

/-- Whenever a node replies, it is settled. -/
private theorem settled_turn {moment : Moment} {occasion : Occasion} {turn : Turn}
    (settled : node.Settled)
    (begun : (Node.turn moment occasion).run node = (.ok turn, after))
    (replies : turn.reply ≠ .none) : after.Settled := by
  have steadied {activity : Activity Turn} (steady : Within Steady activity)
      (begun : activity.run node = (.ok turn, after)) : after.Settled := by
    have kept := settled.run_steady steady
    rw [begun] at kept
    exact kept
  cases occasion with
  | desertion => exact steadied steady_leaveTurn begun
  | event event =>
      cases event with
      | command ticket command =>
          cases command with
          | join seeds => exact steadied (steady_joinTurn ticket seeds moment.now) begun
          | host agent =>
              exact settled_changeHostingTurn (fun _ => .host agent) settled.toAligned begun
          | stopHosting agent =>
              exact
                settled_changeHostingTurn (fun _ => .stopHosting agent) settled.toAligned begun
          | close => exact steadied steady_leaveTurn begun
      | datagram datagram => exact settled_arriveTurn settled.toAligned begun replies
      | tick =>
          cases begun
          exact absurd rfl replies

/-! ## No answer but the reply -/

private theorem carries_arriveTurn (moment : Moment) (datagram : Datagram) :
    Within Carries (arriveTurn moment datagram) := by
  refine within_get_bind fun node => ?_
  cases accepted : node.courier.accept datagram with
  | mk inbound courier =>
      have taken := ReflTransGen.single (carries_accept accepted)
      cases inbound with
      | none => exact taken
      | some inbound =>
          refine steps_bind taken fun _ after _ => ?_
          have observing := carries_of_moves (within_observe inbound.envelope.sender moment.now)
          have heeding := within_forM (carries_heed moment) inbound.fresh
          have handling :=
            carries_of_moves
              (within_handleTurn moment datagram.sender inbound.envelope.message)
          exact
            within_bind observing
              (fun _ =>
                within_bind heeding fun _ => within_bind handling fun _ => within_pure _)
              after

private theorem rest_arriveTurn (moment : Moment) (datagram : Datagram) :
    Yields (fun turn => Within Move turn.rest) (arriveTurn moment datagram) := by
  refine yields_bind fun node => ?_
  simp only
  refine yields_bind fun _ => ?_
  split
  · rename_i inbound _
    refine yields_bind fun _ => yields_bind fun _ => ?_
    intro node turn after begun
    obtain ⟨handled, _, handledOk, begun⟩ := run_bind_eq_ok begun
    cases begun
    have rest :=
      rest_handleTurn moment datagram.sender inbound.envelope.message _ _ _ handledOk
    exact within_bind rest fun _ => within_settle
  · exact yields_pure (within_pure ())

/-- Up to the reply nobody is answered. -/
theorem carries_turn (moment : Moment) (occasion : Occasion) :
    Within Carries (turn moment occasion) := by
  cases occasion with
  | desertion => exact carries_of_moves (steady_leaveTurn.mono .steady)
  | event event =>
      cases event with
      | command ticket command =>
          cases command with
          | join seeds =>
              exact carries_of_moves ((steady_joinTurn ticket seeds moment.now).mono .steady)
          | host agent =>
              exact
                carries_of_moves
                  (within_changeHostingTurn ticket (·.host agent) fun _ => .host agent)
          | stopHosting agent =>
              exact
                carries_of_moves
                  (within_changeHostingTurn ticket (·.stopHosting agent) fun _ =>
                    .stopHosting agent)
          | close => exact carries_of_moves (steady_leaveTurn.mono .steady)
      | datagram datagram => exact carries_arriveTurn moment datagram
      | tick => exact within_pure _

/-- After the reply nobody is answered. -/
theorem rest_turn (moment : Moment) (occasion : Occasion) :
    Yields (fun turn => Within Move turn.rest) (turn moment occasion) := by
  have stays (turn : Turn) (rest : Within Steady turn.rest) : Within Move turn.rest :=
    rest.mono .steady
  cases occasion with
  | desertion => exact rest_leaveTurn
  | event event =>
      cases event with
      | command ticket command =>
          cases command with
          | join seeds => exact (rest_joinTurn ticket seeds moment.now).mono stays
          | host agent => exact (rest_changeHostingTurn ticket (·.host agent)).mono stays
          | stopHosting agent =>
              exact (rest_changeHostingTurn ticket (·.stopHosting agent)).mono stays
          | close => exact rest_leaveTurn
      | datagram datagram => exact rest_arriveTurn moment datagram
      | tick => exact yields_pure (within_tick moment.now)

/-! ## Between the steps -/

/-- A node that was made, and has carried out some events after that.  It was
not told to close, and no event made it come upon an overflow.  Besides, the link
changes as the network does, and envelopes may be observed. -/
inductive Reachable : Node → Prop where
  | start {options : Options} {own : Endpoint} {tags : Tags} {replica : ReplicaId}
      {link : Link} {chance : Chance} {node : Node}
      (made : Node.new options own tags replica link chance = .ok node) : Reachable node
  | step {node after : Node} (moment : Moment) (event : Event) (reachable : Reachable node)
      (stays : ∀ ticket, event ≠ .command ticket .close)
      (stepped : (Node.step moment event).run node = (.ok (), after)) : Reachable after
  | relink {node : Node} (link : Link) (reachable : Reachable node) :
      Reachable { node with courier := { node.courier with link } }
  | watch {node : Node} (observed : Option (List Envelope)) (reachable : Reachable node) :
      Reachable { node with courier := { node.courier with observed } }

/-- A new node has settled. -/
theorem settled_new {options : Options} {own : Endpoint} {tags : Tags} {replica : ReplicaId}
    {link : Link} {chance : Chance}
    (made : Node.new options own tags replica link chance = .ok node) : node.Settled := by
  obtain ⟨courier, courierOk, settled⟩ := exists_unsettled_of_new made
  have listed := MemberList.own_new own tags replica
  refine settled_settle ?_ settled
  exact
    { courierOwn_eq := (Courier.own_of_new courierOk).trans listed.symm
      detectorOwn_eq := listed.symm
      own_eq := listed.symm
      rotation_nodup := List.nodup_nil }

/-- A node that was settled at the reply is settled after it, if it does nothing
else of concern. -/
private theorem settled_finish {turn : Turn} {replying : Node} (agrees : replying.Settled)
    (rest : Within Steady turn.rest) (done : turn.finish.run replying = (.ok (), after)) :
    after.Settled := by
  obtain ⟨_, replied, given, done⟩ := run_bind_eq_ok done
  have answered := agrees.give turn.reply
  rw [given] at answered
  have rested := answered.run_steady rest
  rw [done] at rested
  exact rested

private theorem settled_join {ticket : Ticket} {seeds : List SocketAddress} {now : Nat}
    (settled : node.Settled) (done : (join ticket seeds now).run node = (.ok (), after)) :
    after.Settled := by
  rw [join_eq] at done
  obtain ⟨turn, replying, begun, done⟩ := run_bind_eq_ok done
  have agrees := settled.run_steady (steady_joinTurn ticket seeds now)
  rw [begun] at agrees
  exact settled_finish agrees (rest_joinTurn ticket seeds now node turn replying begun) done

private theorem settled_changeHosting {ticket : Ticket}
    {change : MemberList → Except MemberList.Fault Bool × MemberList}
    (edits : ∀ list : MemberList, list.Edits (change list).2) (aligned : node.Aligned)
    (done : (changeHosting ticket change).run node = (.ok (), after)) : after.Settled := by
  rw [changeHosting_eq] at done
  obtain ⟨turn, replying, begun, done⟩ := run_bind_eq_ok done
  have agrees := settled_changeHostingTurn edits aligned begun
  exact settled_finish agrees (rest_changeHostingTurn ticket change node turn replying begun) done

/-- A datagram that is dropped changes nothing of concern, and one that was taken
in ends with the node settling. -/
private theorem settled_arrive {moment : Moment} {datagram : Datagram} (settled : node.Settled)
    (done : (arrive moment datagram).run node = (.ok (), after)) : after.Settled := by
  rw [arrive_eq] at done
  obtain ⟨taken, attended, attendedOk, done⟩ := run_bind_eq_ok done
  cases accepted : node.courier.accept datagram with
  | mk inbound courier =>
      have accepting := carries_accept accepted
      cases inbound with
      | none =>
          have keeps := node.courier.keeps_accept datagram
          rw [accepted] at keeps
          rw [run_attend_of_dropped accepted] at attendedOk
          cases attendedOk
          cases done
          exact settled.steady (.courier keeps)
      | some inbound =>
          rw [run_attend_of_accepted accepted] at attendedOk
          obtain ⟨_, heeded, heededOk, attendedOk⟩ := run_bind_eq_ok attendedOk
          obtain ⟨_, handled, handledOk, attendedOk⟩ := run_bind_eq_ok attendedOk
          cases attendedOk
          have heeding :=
            Within.of_run (within_forM (carries_heed moment) inbound.tidings) heededOk
          have handling :=
            within_handleMessage moment datagram.sender inbound.envelope.message heeded
          rw [handledOk] at handling
          refine settled_settle ?_ done
          exact (heeding.aligned (accepting.aligned settled.toAligned)).deeds handling

private theorem settled_tick {now : Nat} (aligned : node.Aligned)
    (done : (tick now).run node = (.ok (), after)) : after.Settled := by
  obtain ⟨_, watched, watchedOk, done⟩ := run_bind_eq_ok done
  obtain ⟨_, joined, joinedOk, done⟩ := run_bind_eq_ok done
  obtain ⟨_, healed, healedOk, done⟩ := run_bind_eq_ok done
  obtain ⟨_, spread, spreadOk, done⟩ := run_bind_eq_ok done
  have watching := Within.of_run (carries_of_moves (within_watch now)) watchedOk
  have joining := Within.of_run (carries_of_moves (within_retryJoin now)) joinedOk
  have healing := Within.of_run (carries_of_moves (within_heal now)) healedOk
  have spreading := Within.of_run (carries_of_moves (within_spread now)) spreadOk
  refine settled_settle ?_ done
  exact spreading.aligned (healing.aligned (joining.aligned (watching.aligned aligned)))

theorem settled_step {moment : Moment} {event : Event} (settled : node.Settled)
    (stays : ∀ ticket, event ≠ .command ticket .close)
    (done : (step moment event).run node = (.ok (), after)) : after.Settled := by
  cases event with
  | command ticket command =>
      cases command with
      | join seeds => exact settled_join settled done
      | host agent => exact settled_changeHosting (fun _ => .host agent) settled.toAligned done
      | stopHosting agent =>
          exact settled_changeHosting (fun _ => .stopHosting agent) settled.toAligned done
      | close => exact absurd rfl (stays ticket)
  | datagram datagram => exact settled_arrive settled done
  | tick => exact settled_tick settled.toAligned done

/-- Between its steps a node is settled. -/
theorem Reachable.settled (reachable : Reachable node) : node.Settled := by
  induction reachable with
  | start made => exact settled_new made
  | step moment event _ stays stepped inductionHypothesis =>
      exact settled_step inductionHypothesis stays stepped
  | relink link _ inductionHypothesis => exact inductionHypothesis.steady (.courier ⟨rfl, rfl⟩)
  | watch observed _ inductionHypothesis =>
      exact inductionHypothesis.steady (.courier ⟨rfl, rfl⟩)

/-- Between its steps a node is settled, and also whenever it answers a request
other than to close: what it does on an occasion falls into what comes before
the reply, the reply, and what follows, and nobody is answered but at the
reply. -/
theorem settled_between_steps_and_at_replies (reachable : Reachable node) :
    node.Settled ∧
      ∀ (moment : Moment) (occasion : Occasion),
        act moment occasion =
            (do
              (← turn moment occasion).finish
              occasion.conclude) ∧
          ∀ outcome replying, (turn moment occasion).run node = (outcome, replying) →
            replying.answers = node.answers ∧
              ∀ turn, outcome = .ok turn →
                (turn.reply ≠ .none → replying.Settled) ∧
                  ∀ later, (turn.rest.run later).2.answers = later.answers := by
  refine ⟨reachable.settled, fun moment occasion => ⟨act_eq moment occasion, ?_⟩⟩
  intro outcome replying begun
  refine ⟨(Within.of_run (carries_turn moment occasion) begun).answers_eq, ?_⟩
  rintro turn rfl
  refine ⟨settled_turn reachable.settled begun, fun later => ?_⟩
  have rest := carries_of_moves (rest_turn moment occasion node turn replying begun)
  exact (Within.of_run rest rfl).answers_eq

/-- A host that has just started, and then is asked to host an agent. -/
theorem settled_between_steps_and_at_replies_started :
    ∃ node turn replying,
      Reachable node ∧
        (Node.turn { now := 100, incarnation := 50 }
            (.event (.command 0 (.host "clock")))).run node = (.ok turn, replying) ∧
        turn.reply ≠ .none ∧ node.Settled ∧ replying.Settled := by
  let options : Options := { retransmitMultiplier := 1 }
  have rare : options.retransmitMultiplier.toNat ≤ 1 := by decide
  obtain ⟨node, made, frugal, listed⟩ :=
    exists_new ⟨"10.0.0.1", 1, 5⟩ SortedMap.empty ⟨1⟩ { address := ⟨.v4 0x0a000001, 1, 0⟩ }
      (Chance.ofSeed 1) rare (by decide) (by decide : 2 + 1 < Word.bound)
  have reachable : Reachable node := .start made
  let hosting : Node := { node with list := (node.list.host "clock").2 }
  have edited : hosting.Frugal (0 + hosting.list.outbox.length) := by
    have added : hosting.list.outbox.length ≤ node.list.outbox.length + 1 :=
      node.list.length_outbox_host "clock"
    have drained : node.list.outbox.length = 0 := by
      rw [listed]
      rfl
    have room : hosting.courier.queue.next.toNat + 1 < Word.bound := frugal.next_lt
    exact { frugal with next_lt := by omega }
  obtain ⟨replying, settled, _⟩ := edited.settle
  obtain ⟨turn, begun, replies⟩ := run_changeHostingTurn 0 (·.host "clock") settled
  obtain ⟨agrees, occasions⟩ := settled_between_steps_and_at_replies reachable
  obtain ⟨_, replied⟩ :=
    occasions { now := 100, incarnation := 50 } (.event (.command 0 (.host "clock")))
  obtain ⟨_, replied⟩ := replied _ replying begun
  exact ⟨node, turn, replying, reachable, begun, replies, agrees, (replied turn rfl).1 replies⟩

end Node

end Roster
