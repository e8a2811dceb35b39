import Roster.Proofs.Detector.Rounds
import Roster.Proofs.Eviction.Tick
import Roster.Proofs.Node.Turn

/-!
# What a node does at large

To heed gossip, to merge, to probe and to settle changes the courier in a few
ways only, asks the detector something, and leaves the join loop and all requests
alone.  So a step relation that admits these few changes holds of all of it.
Messages, the tick and the departure ask for a few changes more, of which only the
retry of a join touches the join loop, and commands and replies for those of the
requests.

What the detector decides is apart from all this: that it suspects somebody, and
that it ends rounds.  To merge and to answer, in particular, has nothing to do with
the rounds in flight, and neither has to heed gossip, though it may make the
detector suspect.
-/

namespace Roster

/-! ## Findings that are only passed on -/

/-- The finding is only passed on: it is about a member that we suspect, about one
that was found alive again, or about a probe for another host. -/
def Finding.IsPassedOn (list : MemberList) : Finding → Prop
  | .suspected target | .confirmed target => list.contains target = true
  | .refuted _ | .relayed _ _ _ _ => True
  | _ => False

def EvictionAction.PassesOn : EvictionAction → Prop
  | .suspect _ | .refuted _ | .relay _ _ _ _ => True
  | _ => False

private theorem Eviction.handle_of_passedOn (eviction : Eviction) {list : MemberList} :
    ∀ {findings : List Finding}, (∀ finding ∈ findings, finding.IsPassedOn list) →
      ∃ actions, handle findings eviction list = (actions, eviction, list) ∧
        ∀ action ∈ actions, action.PassesOn
  | [], _ => ⟨[], rfl, by simp⟩
  | finding :: rest, passedOn => by
      have first : ∃ action : EvictionAction, action.PassesOn ∧
          eviction.handleOne list finding = ([action], eviction, list) := by
        have told := passedOn finding List.mem_cons_self
        cases finding with
        | suspected target | confirmed target =>
            refine ⟨.suspect target, trivial, ?_⟩
            have member : list.contains target = true := told
            rw [handleOne, announce, if_pos member]
        | refuted target => exact ⟨.refuted target, trivial, rfl⟩
        | relayed origin sequence target alive =>
            exact ⟨.relay origin sequence target alive, trivial, rfl⟩
        | probeIndirect | dead => exact told.elim
      obtain ⟨action, passesOn, handled⟩ := first
      obtain ⟨actions, others, allPassOn⟩ :=
        handle_of_passedOn eviction fun other among =>
          passedOn other (List.mem_cons_of_mem _ among)
      refine ⟨action :: actions, ?_, ?_⟩
      · rw [handle, handled]
        simp only [others]
        rfl
      · intro other among
        rcases List.mem_cons.mp among with rfl | among
        · exact passesOn
        · exact allPassOn other among

namespace Node

open Activity Relation

/-- To settle is to drain the outbox, to queue what was in it, and to follow. -/
theorem within_settle_of {step : Node → Node → Prop}
    (drained : ∀ node : Node, step node { node with list := node.list.takeOutbox.2 })
    (queued : ∀ {node : Node} {payload : Payload} {courier : Courier},
      node.courier.broadcast payload = .ok courier → step node { node with courier })
    (followed : Within step follow) : Within step settle := by
  refine within_bind (within_get_bind fun node => ?_) fun _ => followed
  refine steps_bind (.single (drained node)) fun _ after _ => within_forM (fun _ => ?_) _ after
  exact within_get_bind fun _ => steps_lift_bind fun _ made => .single (queued made)

/-- The relation admits what a node does when it heeds gossip, merges and answers
what it is asked about its state. -/
structure Hears (step : Node → Node → Prop) : Prop where
  broadcast : ∀ {node : Node} {payload : Payload} {courier : Courier},
    node.courier.broadcast payload = .ok courier → step node { node with courier }
  send : ∀ (node : Node) (message : Message) (destination : SocketAddress) (delivery : Delivery),
    step node { node with courier := (node.courier.send message destination delivery).2 }
  rename : ∀ (node : Node) (own : Endpoint),
    step node { node with courier := node.courier.setOwn own }
  ask : ∀ {node : Node} {operation : Detector.Operation} {findings : List Finding}
      {detector : Detector},
    node.eviction.detector.operate operation = .ok (findings, detector) →
      operation.LeavesRounds →
        step node { node with eviction := { node.eviction with detector } }
  other : ∀ (node : Node) (list : MemberList) (rotation : Rotation) (own : Endpoint)
      (members : Watched Members) (landscape : Watched Landscape),
    step node { node with list, rotation, own, members, landscape }

namespace Hears

variable {step : Node → Node → Prop} (hears : Hears step)

include hears

/-! ## Sending -/

theorem within_broadcast (payload : Payload) : Within step (Node.broadcast payload) :=
  within_get_bind fun _ => steps_lift_bind fun _ queued => .single (hears.broadcast queued)

theorem within_send (message : Message) (destination : SocketAddress) (delivery : Delivery) :
    Within step (Node.send message destination delivery) :=
  within_modifyGet fun node => hears.send node message destination delivery

theorem within_post (message : Message) (destination : SocketAddress) (delivery : Delivery) :
    Within step (post message destination delivery) :=
  within_bind (hears.within_send message destination delivery) fun _ => within_pure ()

theorem within_choose (count : Nat) (excluded : List Endpoint) :
    Within step (choose count excluded) :=
  within_modifyGet fun _ => hears.other ..

theorem within_peerAddresses (count : Nat) : Within step (peerAddresses count) :=
  within_bind (hears.within_choose count []) fun _ => within_pure _

theorem within_healingPeer : Within step healingPeer := by
  refine within_bind (hears.within_peerAddresses 1) fun peers => ?_
  split
  · exact within_pure _
  · exact within_modifyGet fun _ => hears.other ..

theorem within_contact (seeds : List SocketAddress) : Within step (contact seeds) := by
  refine within_get_bind fun node => ?_
  simp only
  split
  · exact within_forM (fun seed => hears.within_post _ seed .reliable) seeds node
  · exact .refl

/-! ## Gossip and merges -/

private theorem within_passOn {action : EvictionAction} (passesOn : action.PassesOn) :
    Within step (perform action) := by
  cases action with
  | suspect target => exact within_get_bind fun node => hears.within_broadcast _ node
  | refuted target => exact hears.within_broadcast _
  | relay origin sequence target alive => exact hears.within_post _ _ _
  | probe | probeIndirect | dropped => exact passesOn.elim

/-- To act on what is only passed on takes no more than the detector was asked. -/
theorem steps_actOn_of_passedOn {start node : Node} {findings : List Finding}
    {detector : Detector} (passedOn : ∀ finding ∈ findings, finding.IsPassedOn node.list)
    (asked : ReflTransGen step start { node with eviction := { node.eviction with detector } }) :
    ReflTransGen step start ((actOn findings detector).run node).2 := by
  obtain ⟨actions, handled, passOn⟩ :=
    Eviction.handle_of_passedOn { node.eviction with detector } passedOn
  have acting :
      (actOn findings detector).run node =
        (actions.forM perform).run { node with eviction := { node.eviction with detector } } := by
    rw [actOn, run_get_bind]
    simp only [handled]
    rfl
  rw [acting]
  exact
    asked.trans
      (within_forM_of_mem (fun action among => hears.within_passOn (passOn action among)) _)

theorem within_observe (sender : Endpoint) (now : Nat) : Within step (observe sender now) := by
  refine within_get_bind fun node => hears.steps_actOn_of_passedOn (fun finding among => ?_) ?_
  · obtain ⟨target, _, rfl⟩ := List.mem_map.mp among
    trivial
  · have asked :
        node.eviction.detector.operate (.observe sender now) =
          .ok ((node.eviction.detector.observe sender now).1,
            (node.eviction.detector.observe sender now).2) :=
      rfl
    exact .single (hears.ask asked trivial)

private theorem within_keep (merged : Except MemberList.Fault MemberList.Outcome × MemberList) :
    Within step (keep merged) := by
  refine within_bind (within_modify fun _ => hears.other ..) fun _ => ?_
  split
  · rename_i own _
    refine within_bind (fun node => ?_) fun _ => hears.within_broadcast _
    have named :
        node.eviction.detector.operate (.setOwn own) =
          .ok ([], node.eviction.detector.setOwn own) :=
      rfl
    have renamed := ReflTransGen.single (hears.rename node own)
    exact (renamed.tail (hears.ask named trivial)).tail (hears.other ..)
  · exact within_pure ()

theorem within_receive (moment : Moment) (update : Update) :
    Within step (receive moment update) :=
  within_get_bind fun _ => steps_lift_bind fun merged _ => hears.within_keep merged _

theorem within_merge (moment : Moment) (batch : Batch) : Within step (merge moment batch) := by
  unfold merge
  split
  · exact within_get_bind fun _ => steps_lift_bind fun merged _ => hears.within_keep merged _
  · exact within_pure ()

/-- To heed gossip is within the relation if to suspect is. -/
theorem within_heed (moment : Moment) (payload : Payload)
    (suspects : ∀ {node : Node} {target suspector : Endpoint} {finding : Option Finding}
        {detector : Detector},
      node.eviction.detector.suspect target suspector moment.now = .ok (finding, detector) →
        step node { node with eviction := { node.eviction with detector } }) :
    Within step (heed moment payload) := by
  cases payload with
  | alive endpoint => exact hears.within_observe endpoint moment.now
  | delta update => exact hears.within_receive moment update
  | suspect target suspector =>
      refine within_get_bind fun node => ?_
      simp only
      split
      · exact hears.within_broadcast _ node
      split
      · rename_i member
        refine steps_lift_bind fun result suspected => ?_
        obtain ⟨finding, detector⟩ := result
        refine hears.steps_actOn_of_passedOn (fun reported among => ?_)
          (.single (suspects suspected))
        rcases Detector.finding_of_suspect_cases suspected among with rfl | rfl
        · exact member
        · exact member
      · exact .refl

/-! ## Requests -/

theorem within_answerPing (sequence : UInt64) (target : Endpoint) (sender : SocketAddress) :
    Within step (answerPing sequence target sender) := by
  refine within_get_bind fun node => ?_
  split
  · exact hears.within_post _ _ _ node
  · exact .refl

theorem within_relay (sequence : UInt64) (target : Endpoint) (sender : SocketAddress)
    (now : Nat) : Within step (relay sequence target sender now) := by
  unfold relay
  split
  · refine within_get_bind fun node => steps_lift_bind fun result started => ?_
    obtain ⟨relayed, detector⟩ := result
    have asked :
        node.eviction.detector.operate (.startRelay sender sequence target now) =
          .ok ([], detector) := by
      rw [Detector.operate, started]
      rfl
    exact
      steps_bind (.single (hears.ask asked trivial)) fun _ after _ =>
        hears.within_post _ _ _ after
  · exact hears.within_post _ _ _

theorem within_offer (kind : ExchangeKind) (digest : Digest) (sender : SocketAddress) :
    Within step (offer kind digest sender) := by
  refine within_get_bind fun node => ?_
  simp only
  split
  · exact hears.within_post _ _ _ node
  · exact .refl

theorem within_respond (digest : Digest) (sender : SocketAddress) :
    Within step (respond digest sender) := by
  refine within_get_bind fun node => ?_
  split
  · split
    · exact hears.within_post _ _ _ node
    · exact .refl
  · exact .refl

end Hears

/-- The relation admits what a node does whether or not anybody asks it to, reports
of helpers apart. -/
structure Admits (step : Node → Node → Prop) : Prop extends Hears step where
  tune : ∀ {node : Node} {health : Health} {clusterSize : Nat} {courier : Courier},
    node.courier.tune health clusterSize = .ok courier → step node { node with courier }
  change : ∀ {node : Node} {operation : Detector.Operation} {findings : List Finding}
      {detector : Detector},
    node.eviction.detector.operate operation = .ok (findings, detector) →
      operation.ChangesRounds →
        step node { node with eviction := { node.eviction with detector } }
  switch : ∀ (node : Node) (running : Bool),
    step node { node with eviction := { node.eviction with running } }

namespace Admits

variable {step : Node → Node → Prop} (admits : Admits step)

include admits

/-! ## Settling -/

theorem within_follow : Within step follow := by
  refine within_get_bind fun node => steps_lift_bind fun courier tuned => ?_
  have counted :
      node.eviction.detector.operate (.setClusterSize node.list.members.size) =
        .ok ([], node.eviction.detector.setClusterSize node.list.members.size) :=
    rfl
  have retained :
      (node.eviction.detector.setClusterSize node.list.members.size).operate
          (.retainMembers node.list.members.contains) =
        .ok
          ([],
            (node.eviction.detector.setClusterSize node.list.members.size).retainMembers
              node.list.members.contains) :=
    rfl
  have tuning := ReflTransGen.single (admits.tune tuned)
  exact
    ((tuning.tail (admits.ask counted trivial)).tail (admits.change retained trivial)).tail
      (admits.other ..)

theorem within_settle : Within step settle :=
  within_settle_of (fun _ => admits.other ..) admits.broadcast admits.within_follow

/-! ## Findings -/

private theorem step_forget (node : Node) (target : Endpoint) :
    step node { node with eviction := node.eviction.forget target } := by
  have forgotten :
      node.eviction.detector.operate (.forget target) =
        .ok ([], node.eviction.detector.forget target) :=
    rfl
  exact admits.change forgotten trivial

private theorem steps_handleOne (node : Node) (finding : Finding) :
    ReflTransGen step node
      { node with
        eviction := (node.eviction.handleOne node.list finding).2.1
        list := (node.eviction.handleOne node.list finding).2.2 } := by
  have announced (target : Endpoint) :
      ReflTransGen step node
        { node with eviction := (node.eviction.announce node.list target).2 } := by
    unfold Eviction.announce
    split
    · exact .refl
    · exact .single (admits.step_forget node target)
  cases finding with
  | probeIndirect | relayed | refuted => exact .refl
  | suspected target | confirmed target => exact announced target
  | dead target =>
      cases result : node.list.remove target with
      | mk outcome list =>
          have removed : step node { node with list } := admits.other ..
          simp only [Eviction.handleOne, result]
          cases outcome with
          | ok wasMember =>
              have forgotten := admits.step_forget { node with list } target
              exact (ReflTransGen.single removed).tail forgotten
          | error fault => exact .single removed

private theorem steps_handle :
    ∀ (findings : List Finding) (node : Node),
      ReflTransGen step node
        { node with
          eviction := (Eviction.handle findings node.eviction node.list).2.1
          list := (Eviction.handle findings node.eviction node.list).2.2 }
  | [], _ => .refl
  | finding :: rest, node =>
      (admits.steps_handleOne node finding).trans
        (steps_handle rest
          { node with
            eviction := (node.eviction.handleOne node.list finding).2.1
            list := (node.eviction.handleOne node.list finding).2.2 })

theorem within_perform (action : EvictionAction) : Within step (perform action) := by
  cases action with
  | probe sequence target address => exact admits.within_post _ _ _
  | probeIndirect sequence target =>
      refine within_get_bind fun node => ?_
      refine within_bind (admits.within_choose _ _) (fun helpers => ?_) node
      refine within_bind (within_modify fun node => ?_) fun _ => ?_
      · have noted :
            node.eviction.detector.operate (.setHelpers sequence helpers.length) =
              .ok ([], node.eviction.detector.setHelpers sequence helpers.length) :=
          rfl
        exact admits.change noted trivial
      · exact within_forM (fun _ => admits.within_post _ _ _) helpers
  | relay origin sequence target alive => exact admits.within_post _ _ _
  | suspect | refuted => exact admits.within_passOn trivial
  | dropped target => exact within_pure ()

/-- To act on findings takes no more than the detector was asked. -/
theorem steps_actOn {start node : Node} (findings : List Finding) {detector : Detector}
    (asked : ReflTransGen step start { node with eviction := { node.eviction with detector } }) :
    ReflTransGen step start ((actOn findings detector).run node).2 :=
  (asked.trans
      (admits.steps_handle findings
        { node with eviction := { node.eviction with detector } })).trans
    (within_forM admits.within_perform _ _)

/-- Acks are within the relation if what they make of the detector is. -/
theorem within_receiveAck (sequence : UInt64)
    (acked : ∀ node : Node,
      step node
        { node with
          eviction :=
            { node.eviction with
              detector := (node.eviction.detector.receiveAck sequence).2 } }) :
    Within step (receiveAck sequence) :=
  within_get_bind fun node => admits.steps_actOn _ (.single (acked node))

/-- Reports are within the relation if what they make of the detector is. -/
theorem within_receiveIndirectAck (sequence : UInt64) (target : Endpoint) (alive : Bool)
    (now : Nat)
    (reported : ∀ {node : Node} {findings : List Finding} {detector : Detector},
      node.eviction.detector.receiveIndirectAck sequence target alive now =
          .ok (findings, detector) →
        step node { node with eviction := { node.eviction with detector } }) :
    Within step (receiveIndirectAck sequence target alive now) :=
  within_get_bind fun _ => steps_lift_bind fun _ received =>
    admits.steps_actOn _ (.single (reported received))

/-! ## The detector's tick -/

/-- A tick of the eviction loop does nothing, or it goes on from where the passing of
time has led. -/
theorem steps_tickEviction {node : Node} {now : Nat} {actions : List EvictionAction}
    {eviction : Eviction} {list : MemberList} {rotation : Rotation}
    (ticked : node.eviction.tick now node.list node.rotation =
      .ok (actions, eviction, list, rotation)) :
    { node with eviction, list, rotation } = node ∨
      ∃ findings detector,
        node.eviction.detector.checkTimeouts now = .ok (findings, detector) ∧
          ReflTransGen step { node with eviction := { node.eviction with detector } }
            { node with eviction, list, rotation } := by
  cases running : node.eviction.running with
  | false =>
      cases (Eviction.tick_of_not_running running).symm.trans ticked
      exact Or.inl rfl
  | true =>
      obtain ⟨told, judged, asked, settled, round, _⟩ := Eviction.tick_eq_ok running ticked
      obtain ⟨findings, checked, checkedOk, handled⟩ := Eviction.settle_eq_ok settled
      refine Or.inr ⟨findings, checked, checkedOk, ?_⟩
      have handles :=
        admits.steps_handle findings
          { node with eviction := { node.eviction with detector := checked } }
      simp only [handled] at handles
      cases round with
      | early => exact handles
      | alone => exact handles.tail (admits.other ..)
      | @probe turned target address sequence begun _ _ started =>
          have probed : judged.detector.operate (.startProbe target now) = .ok ([], begun) := by
            rw [Detector.operate, started]
            rfl
          have probing :
              step { node with eviction := judged, list }
                { node with eviction := { judged with detector := begun }, list } :=
            admits.change probed trivial
          exact (handles.tail probing).tail (admits.other ..)

/-- If the passing of time is within the relation, so is a tick of the detector. -/
theorem within_watch {now : Nat}
    (timed : ∀ {node : Node} {findings : List Finding} {detector : Detector},
      node.eviction.detector.checkTimeouts now = .ok (findings, detector) →
        step node { node with eviction := { node.eviction with detector } }) :
    Within step (watch now) := by
  refine within_get_bind fun node => steps_lift_bind fun result ticked => ?_
  obtain ⟨actions, eviction, list, rotation⟩ := result
  have gone : ReflTransGen step node { node with eviction, list, rotation } := by
    rcases admits.steps_tickEviction ticked with same | ⟨_, _, checked, steps⟩
    · rw [same]
    · exact .head (timed checked) steps
  exact gone.trans (within_forM admits.within_perform actions _)

end Admits

/-- The relation admits what the detector decides. -/
structure Judges (step : Node → Node → Prop) : Prop where
  judge : ∀ {node : Node} {operation : Detector.Operation} {findings : List Finding}
      {detector : Detector},
    node.eviction.detector.operate operation = .ok (findings, detector) →
      operation.Decides →
        step node { node with eviction := { node.eviction with detector } }

namespace Judges

variable {step : Node → Node → Prop} {node : Node} (judges : Judges step)

include judges

theorem suspect {target suspector : Endpoint} {now : Nat} {finding : Option Finding}
    {detector : Detector}
    (suspected :
      node.eviction.detector.suspect target suspector now = .ok (finding, detector)) :
    step node { node with eviction := { node.eviction with detector } } := by
  have operated :
      node.eviction.detector.operate (.suspect target suspector now) =
        .ok (finding.toList, detector) := by
    rw [Detector.operate, suspected]
    rfl
  exact judges.judge operated trivial

theorem receiveAck (sequence : UInt64) (node : Node) :
    step node
      { node with
        eviction :=
          { node.eviction with
            detector := (node.eviction.detector.receiveAck sequence).2 } } := by
  have operated :
      node.eviction.detector.operate (.receiveAck sequence) =
        .ok (node.eviction.detector.receiveAck sequence) :=
    rfl
  exact judges.judge operated trivial

theorem checkTimeouts {now : Nat} {findings : List Finding} {detector : Detector}
    (checked : node.eviction.detector.checkTimeouts now = .ok (findings, detector)) :
    step node { node with eviction := { node.eviction with detector } } := by
  have operated :
      node.eviction.detector.operate (.checkTimeouts now) = .ok (findings, detector) :=
    checked
  exact judges.judge operated trivial

end Judges

/-- The relation admits what a node does on its own account, too: to heal, to
spread gossip, to ask its seeds again, and to depart. -/
structure Attends (step : Node → Node → Prop) : Prop extends Admits step where
  healing : ∀ (node : Node) (healing : Healing), step node { node with healing }
  schedule : ∀ (node : Node) (nextSpread : Nat), step node { node with nextSpread }
  spreading : ∀ (node : Node) (targets : List SocketAddress),
    step node { node with courier := node.courier.spread targets }
  retry : ∀ {node : Node} {now : Nat} {made : Option JoinStep} {joining : Joining},
    node.joining.check now = .ok (made, joining) → step node { node with joining }
  shut : ∀ node : Node, step node { node with courier := node.courier.shutdown }

namespace Attends

variable {step : Node → Node → Prop} (attends : Attends step)

include attends

/-! ## Messages -/

/-- To handle a message is within the relation if to complete a join is, or if
the message completes none, and likewise for reports of helpers. -/
theorem within_handle (judges : Judges step) (moment : Moment) (sender : SocketAddress)
    (message : Message)
    (completes :
      ∀ response request, message = .exchange .join response request →
        Within step completeJoin)
    (reports :
      ∀ sequence target alive, message = .indirectAck sequence target alive →
        Within step (receiveIndirectAck sequence target alive moment.now)) :
    Within step (handle moment sender message) := by
  cases message with
  | ping sequence target => exact attends.within_answerPing sequence target sender
  | ack sequence => exact attends.within_receiveAck sequence (judges.receiveAck sequence)
  | pingRequest sequence target => exact attends.within_relay sequence target sender moment.now
  | indirectAck sequence target alive => exact reports sequence target alive rfl
  | join digest updates =>
      exact
        within_bind (attends.within_merge moment updates) fun _ =>
          attends.within_offer .join digest sender
  | heal digest => exact attends.within_offer .heal digest sender
  | exchange kind response request =>
      refine within_bind (attends.within_merge moment response) fun _ => ?_
      cases kind with
      | join =>
          exact
            within_bind (completes response request rfl) fun _ =>
              attends.within_respond request sender
      | heal =>
          exact
            within_bind (within_modify fun node => attends.healing node _) fun _ =>
              attends.within_respond request sender
  | response updates => exact attends.within_merge moment updates
  | store update => exact attends.within_receive moment update
  | gossip => exact within_pure ()

/-! ## The tick -/

theorem within_retryJoin (now : Nat) : Within step (retryJoin now) := by
  refine within_get_bind fun node => steps_lift_bind fun result checked => ?_
  obtain ⟨made, joining⟩ := result
  refine steps_bind (.single (attends.retry checked)) fun _ after _ => ?_
  split
  · exact attends.within_contact _ after
  · exact .refl

theorem within_heal (now : Nat) : Within step (heal now) := by
  refine within_get_bind fun node => steps_lift_bind fun result _ => ?_
  obtain ⟨due, healing⟩ := result
  refine steps_bind (.single (attends.healing node healing)) fun _ after _ => ?_
  split
  · refine within_bind attends.within_healingPeer (fun peer => ?_) after
    split
    · refine within_get_bind fun node => ?_
      refine within_bind (attends.within_send _ _ _) (fun sent => ?_) node
      split
      · exact
          within_get_bind fun node =>
            steps_lift_bind fun healing _ => .single (attends.healing node healing)
      · exact within_pure ()
    · exact within_pure ()
  · exact .refl

theorem within_spread (now : Nat) : Within step (spread now) := by
  refine within_get_bind fun node => ?_
  split
  · refine steps_lift_bind fun nextSpread _ => ?_
    refine steps_bind (.single (attends.schedule node nextSpread)) fun _ after _ => ?_
    refine within_bind attends.within_settle (fun _ => within_get_bind fun node => ?_) after
    refine within_bind (attends.within_peerAddresses _) (fun targets => ?_) node
    exact within_modify fun node => attends.spreading node targets
  · exact .refl

/-- What is left of a tick once the detector has gone on. -/
theorem within_afterWatch (now : Nat) :
    Within step
      (do
        retryJoin now
        heal now
        spread now
        settle) :=
  within_bind (attends.within_retryJoin now) fun _ =>
    within_bind (attends.within_heal now) fun _ =>
      within_bind (attends.within_spread now) fun _ => attends.within_settle

theorem within_tick (judges : Judges step) (now : Nat) : Within step (tick now) :=
  within_bind (attends.within_watch judges.checkTimeouts) fun _ =>
    attends.within_afterWatch now

/-! ## The departure -/

theorem within_stopWatching (judges : Judges step) :
    Within step (modify fun node : Node => { node with eviction := node.eviction.stop }) := by
  intro node
  have abandoned :
      node.eviction.detector.operate .abandon = .ok ([], node.eviction.detector.abandon) :=
    rfl
  have abandoning := ReflTransGen.single (judges.judge abandoned trivial)
  exact abandoning.tail (attends.switch _ false)

theorem within_depart (judges : Judges step) : Within step depart := by
  refine within_bind (attends.within_stopWatching judges) fun _ => ?_
  refine within_get_bind fun node => ?_
  refine within_bind (attends.within_peerAddresses _) (fun targets => ?_) node
  refine within_get_bind fun node => steps_bind (.single (attends.other ..)) fun _ after _ => ?_
  refine within_bind (within_forM (fun update => ?_) _) (fun _ => ?_) after
  · exact within_forM (fun target => attends.within_post _ target .reliable) targets
  · exact within_modify attends.shut

end Attends

/-- The relation admits everything a node does, decisions and reports apart: to share
a join, to let requests wait and to answer them, too. -/
structure Conducts (step : Node → Node → Prop) : Prop extends Attends step where
  requests : ∀ (node : Node) (joining : Joining) (waiting : List Ticket)
      (answers : List (Ticket × Answer)),
    step node { node with joining, waiting, answers }

/-- The courier of a node that turns to an occasion: it has taken in the datagram,
if one has arrived. -/
def attending (node : Node) : Occasion → Courier
  | .event (.datagram datagram) => (node.courier.accept datagram).2
  | _ => node.courier

/-- The envelopes that a node takes in on an occasion. -/
def delivered (node : Node) : Occasion → List Envelope
  | .event (.datagram datagram) =>
      ((node.courier.accept datagram).1.map (·.envelope)).toList
  | _ => []

theorem delivered_of_accepted {node : Node} {datagram : Datagram} {inbound : Inbound}
    {courier : Courier} (accepted : node.courier.accept datagram = (some inbound, courier)) :
    node.delivered (.event (.datagram datagram)) = [inbound.envelope] := by
  rw [delivered, accepted]
  rfl

namespace Conducts

variable {step : Node → Node → Prop} (conducts : Conducts step)

include conducts

/-! ## Replies and commands -/

theorem within_answer (ticket : Ticket) (given : Answer) : Within step (answer ticket given) :=
  within_modify fun _ => conducts.requests ..

private theorem within_answerWaiting (given : Answer) : Within step (answerWaiting given) :=
  within_modify fun _ => conducts.requests ..

theorem within_completeJoin : Within step completeJoin := by
  refine within_get_bind fun node => steps_bind (.single (conducts.requests ..)) fun _ after _ => ?_
  split
  · exact
      within_bind conducts.within_settle (fun _ => conducts.within_answerWaiting .done) after
  · exact .refl

theorem within_join (ticket : Ticket) (seeds : List SocketAddress) (now : Nat) :
    Within step (join ticket seeds now) := by
  refine within_get_bind fun node => steps_lift_bind fun started _ => ?_
  obtain ⟨start, joining⟩ := started
  refine steps_bind (.single (conducts.requests ..)) fun _ after _ => ?_
  have waits :
      Within step (modify fun node : Node => { node with waiting := node.waiting ++ [ticket] }) :=
    within_modify fun _ => conducts.requests ..
  cases start with
  | contact seeds => exact within_bind waits (fun _ => conducts.within_contact seeds) after
  | coalesced => exact waits after
  | complete => exact conducts.within_answer ticket .done after
  | stopped => exact conducts.within_answer ticket .cancelled after

theorem within_changeHosting (ticket : Ticket)
    (change : MemberList → Except MemberList.Fault Bool × MemberList) :
    Within step (changeHosting ticket change) := by
  refine within_get_bind fun node => steps_bind (.single (conducts.other ..)) fun _ after _ => ?_
  refine within_bind conducts.within_settle (fun _ => ?_) after
  split
  · exact conducts.within_answer ticket .done
  · exact conducts.within_answer ticket _

theorem within_leave (judges : Judges step) : Within step leave := by
  have stopped :
      Within step
        (modify fun node : Node =>
          { node with healing := node.healing.stop, joining := node.joining.stop.2 }) :=
    fun node =>
      (ReflTransGen.single (conducts.healing node node.healing.stop)).tail (conducts.requests ..)
  exact
    within_bind stopped fun _ =>
      within_bind (conducts.within_answerWaiting .cancelled) fun _ =>
        conducts.within_depart judges

theorem within_obey (judges : Judges step) (moment : Moment) (ticket : Ticket)
    (command : Command) : Within step (obey moment ticket command) := by
  cases command with
  | join seeds => exact conducts.within_join ticket seeds moment.now
  | host agent => exact conducts.within_changeHosting ticket (·.host agent)
  | stopHosting agent => exact conducts.within_changeHosting ticket (·.stopHosting agent)
  | close =>
      exact
        within_bind (conducts.within_leave judges) fun _ => conducts.within_answer ticket .done

/-! ## Occasions -/

variable {node : Node} {moment : Moment}

private theorem steps_arrive (judges : Judges step) {datagram : Datagram}
    (reports :
      ∀ envelope ∈ node.delivered (.event (.datagram datagram)), ∀ sequence target alive,
        envelope.message = .indirectAck sequence target alive →
          Within step (receiveIndirectAck sequence target alive moment.now)) :
    ReflTransGen step { node with courier := (node.courier.accept datagram).2 }
      ((arrive moment datagram).run node).2 := by
  unfold arrive
  rw [run_get_bind]
  cases accepted : node.courier.accept datagram with
  | mk inbound courier =>
      cases inbound with
      | none => exact .refl
      | some inbound =>
          have among : inbound.envelope ∈ node.delivered (.event (.datagram datagram)) := by
            rw [delivered_of_accepted accepted]
            exact List.mem_singleton_self _
          have handled :
              Within step (handle moment datagram.sender inbound.envelope.message) :=
            conducts.within_handle judges moment datagram.sender inbound.envelope.message
              (fun _ _ _ => conducts.within_completeJoin) (reports inbound.envelope among)
          have heeded : Within step (inbound.fresh.forM (heed moment)) :=
            within_forM (fun payload => conducts.within_heed moment payload judges.suspect) _
          have taken :
              Within step
                (do
                  observe inbound.envelope.sender moment.now
                  inbound.fresh.forM (heed moment)
                  handle moment datagram.sender inbound.envelope.message
                  settle) :=
            within_bind (conducts.within_observe _ moment.now) fun _ =>
              within_bind heeded fun _ => within_bind handled fun _ => conducts.within_settle
          exact taken { node with courier }

/-- Once it has turned to an occasion, all that a node does is within the relation if
what it makes of a report is that is delivered then. -/
theorem steps_act (judges : Judges step) {occasion : Occasion}
    (reports :
      ∀ envelope ∈ node.delivered occasion, ∀ sequence target alive,
        envelope.message = .indirectAck sequence target alive →
          Within step (receiveIndirectAck sequence target alive moment.now)) :
    ReflTransGen step { node with courier := node.attending occasion }
      ((act moment occasion).run node).2 := by
  cases occasion with
  | desertion => exact conducts.within_leave judges node
  | event event =>
      cases event with
      | command ticket command => exact conducts.within_obey judges moment ticket command node
      | datagram datagram => exact conducts.steps_arrive judges reports
      | tick => exact conducts.within_tick judges moment.now node

end Conducts

end Node

end Roster
