import Roster.Node.Step
import Roster.Proofs.Activity
import Roster.Proofs.Courier
import Roster.Proofs.Detector
import Roster.Proofs.Eviction.Tick
import Roster.Proofs.MemberList.Import
import Roster.Proofs.Rotation

/-!
# The moves of a node

Whatever a node does, its member list and its detector go on by moves of a few
kinds: the detector is asked something, the list is edited or merges what has
arrived, and a merge that made the list return under a later incarnation
renames the detector at once.  The copies of the membership follow only when
the node settles.  Only to heed a suspicion is no such move, and neither is to
answer a request.
-/

namespace Roster

/-- A change of a member list by its own host. -/
inductive MemberList.Edits (list : MemberList) : MemberList → Prop where
  | host (agent : String) : Edits list (list.host agent).2
  | stopHosting (agent : String) : Edits list (list.stopHosting agent).2
  | remove (endpoint : Endpoint) : Edits list (list.remove endpoint).2
  | stop : Edits list list.stop
  | drain : Edits list list.takeOutbox.2

theorem MemberList.Edits.own_eq {before after : MemberList} (edits : before.Edits after) :
    after.own = before.own := by
  cases edits with
  | host agent => exact MemberList.own_host agent
  | stopHosting agent => exact MemberList.own_stopHosting agent
  | remove endpoint => exact MemberList.own_remove endpoint
  | stop => exact MemberList.own_stop
  | drain => rfl

namespace Node

/-- The member list, the detector and every copy of the membership stay as they
are, up to the order in which members are visited. -/
structure Steady (before after : Node) : Prop where
  list_eq : after.list = before.list
  detector_eq : after.eviction.detector = before.eviction.detector
  own_eq : after.own = before.own
  courier_keeps : before.courier.Keeps after.courier
  rotation_perm : after.rotation.members.Perm before.rotation.members
  members_eq : after.members = before.members
  landscape_eq : after.landscape = before.landscape
  answers_eq : after.answers = before.answers

namespace Steady

variable {node : Node}

theorem refl (node : Node) : Steady node node :=
  ⟨rfl, rfl, rfl, .refl _, .refl _, rfl, rfl, rfl⟩

theorem trans {first second third : Node} (left : Steady first second)
    (right : Steady second third) : Steady first third where
  list_eq := right.list_eq.trans left.list_eq
  detector_eq := right.detector_eq.trans left.detector_eq
  own_eq := right.own_eq.trans left.own_eq
  courier_keeps := left.courier_keeps.trans right.courier_keeps
  rotation_perm := right.rotation_perm.trans left.rotation_perm
  members_eq := right.members_eq.trans left.members_eq
  landscape_eq := right.landscape_eq.trans left.landscape_eq
  answers_eq := right.answers_eq.trans left.answers_eq

instance : IsPreorder Node Steady where
  refl := refl
  trans _ _ _ := trans

theorem courier {courier : Courier} (keeps : node.courier.Keeps courier) :
    Steady node { node with courier } :=
  ⟨rfl, rfl, rfl, keeps, .refl _, rfl, rfl, rfl⟩

theorem rotation {rotation : Rotation} (perm : rotation.members.Perm node.rotation.members) :
    Steady node { node with rotation } :=
  ⟨rfl, rfl, rfl, .refl _, perm, rfl, rfl, rfl⟩

/-- The loops that exchange state, and the joins that wait, are of no concern. -/
theorem loops (joining : Joining) (healing : Healing) (nextSpread : Nat)
    (waiting : List Ticket) :
    Steady node { node with joining, healing, nextSpread, waiting } :=
  ⟨rfl, rfl, rfl, .refl _, .refl _, rfl, rfl, rfl⟩

/-- It is of no concern whether the failure detector goes on. -/
theorem eviction {eviction : Eviction} (sameDetector : eviction.detector = node.eviction.detector) :
    Steady node { node with eviction } :=
  ⟨rfl, sameDetector, rfl, .refl _, .refl _, rfl, rfl, rfl⟩

end Steady

/-- What a node does to its member list, its detector and its copies of the
membership at a time. -/
inductive Move : Node → Node → Prop where
  | steady {before after : Node} (steady : Steady before after) : Move before after
  | detect {node : Node} (operation : Detector.Operation) {findings : List Finding}
      {detector : Detector} (quiet : operation.IsQuiet)
      (operated : node.eviction.detector.operate operation = .ok (findings, detector)) :
      Move node { node with eviction := { node.eviction with detector } }
  | edit {node : Node} {list : MemberList} (edits : node.list.Edits list) :
      Move node { node with list }
  | merge {node : Node} {outcome : Except MemberList.Fault MemberList.Outcome}
      {list : MemberList} (reports : node.list.Reports outcome list)
      (kept : list.own = node.list.own) :
      Move node { node with list }
  | adopt {node : Node} {changed : Bool} {list : MemberList}
      (reports : node.list.Reports (.ok { changed, reincarnated := some list.own }) list) :
      Move node
        { node with
          list
          courier := node.courier.setOwn list.own
          eviction := { node.eviction with detector := node.eviction.detector.setOwn list.own }
          own := list.own }
  | publish {node : Node} {courier : Courier} (current : List Endpoint)
      (members : Watched Members) (landscape : Watched Landscape)
      (named : courier.own = node.courier.own) :
      Move node
        { node with courier, rotation := node.rotation.refresh current, members, landscape }

abbrev Moves : Node → Node → Prop :=
  Relation.ReflTransGen Move

open Activity Relation

variable {node : Node}

/-! ## Sending -/

theorem steady_broadcast (payload : Payload) : Within Steady (broadcast payload) :=
  within_get_bind fun _ => steps_lift_bind fun _ queued =>
    ReflTransGen.single (.courier (Courier.keeps_broadcast queued))

private theorem steady_send (message : Message) (destination : SocketAddress)
    (delivery : Delivery) :
    Within Steady (send message destination delivery) :=
  within_modifyGet fun node => .courier (node.courier.keeps_send message destination delivery)

private theorem steady_post (message : Message) (destination : SocketAddress)
    (delivery : Delivery) :
    Within Steady (post message destination delivery) :=
  within_bind (steady_send message destination delivery) fun _ => within_pure ()

theorem steady_contact (seeds : List SocketAddress) : Within Steady (contact seeds) := by
  refine within_get_bind fun node => ?_
  simp only
  split
  · exact within_forM (fun seed => steady_post _ seed .reliable) seeds node
  · exact ReflTransGen.refl

theorem within_broadcast (payload : Payload) : Within Move (broadcast payload) :=
  (steady_broadcast payload).mono .steady

theorem within_send (message : Message) (destination : SocketAddress) (delivery : Delivery) :
    Within Move (send message destination delivery) :=
  (steady_send message destination delivery).mono .steady

theorem within_post (message : Message) (destination : SocketAddress) (delivery : Delivery) :
    Within Move (post message destination delivery) :=
  (steady_post message destination delivery).mono .steady

theorem within_contact (seeds : List SocketAddress) : Within Move (contact seeds) :=
  (steady_contact seeds).mono .steady

theorem within_choose (count : Nat) (excluded : List Endpoint) :
    Within Move (choose count excluded) :=
  within_modifyGet fun node =>
    .steady (.rotation (node.rotation.perm_select count (node.list.own :: excluded)))

theorem within_peerAddresses (count : Nat) : Within Move (peerAddresses count) :=
  within_bind (within_choose count []) fun _ => within_pure _

/-! ## Settling -/

theorem within_spreadEdits : Within Move spreadEdits :=
  within_get_bind fun _ =>
    steps_bind (ReflTransGen.single (.edit .drain)) fun _ after _ =>
      within_forM (fun update => within_broadcast (.delta update)) _ after

theorem within_follow : Within Move follow := by
  refine within_get_bind fun node => steps_lift_bind fun courier tuned => ?_
  have counted :
      Move node
        { node with
          eviction :=
            { node.eviction with
              detector := node.eviction.detector.setClusterSize node.list.members.size } } :=
    .detect (.setClusterSize node.list.members.size) trivial rfl
  exact
    ((ReflTransGen.single counted).tail
      (.detect (.retainMembers node.list.members.contains) trivial rfl)).tail
      (.publish node.list.members.keys _ _ (Courier.own_of_tune tuned))

theorem within_settle : Within Move settle :=
  within_bind within_spreadEdits fun _ => within_follow

/-! ## Findings -/

private theorem moves_handleOne (node : Node) (finding : Finding) :
    Moves node
      { node with
        eviction := (node.eviction.handleOne node.list finding).2.1
        list := (node.eviction.handleOne node.list finding).2.2 } := by
  have forgotten (target : Endpoint) :
      Move node { node with eviction := node.eviction.forget target } :=
    .detect (.forget target) trivial rfl
  have announced (target : Endpoint) :
      Moves node { node with eviction := (node.eviction.announce node.list target).2 } := by
    unfold Eviction.announce
    split
    · exact ReflTransGen.refl
    · exact ReflTransGen.single (forgotten target)
  cases finding with
  | probeIndirect sequence target => exact ReflTransGen.refl
  | relayed origin sequence target alive => exact ReflTransGen.refl
  | suspected target => exact announced target
  | confirmed target => exact announced target
  | refuted target => exact ReflTransGen.refl
  | dead target =>
      have removed : Move node { node with list := (node.list.remove target).2 } :=
        .edit (.remove target)
      cases result : node.list.remove target with
      | mk outcome list =>
          rw [result] at removed
          simp only [Eviction.handleOne, result]
          cases outcome with
          | ok wasMember =>
              exact (ReflTransGen.single removed).tail (.detect (.forget target) trivial rfl)
          | error fault => exact ReflTransGen.single removed

private theorem moves_handle :
    ∀ (findings : List Finding) (node : Node),
      Moves node
        { node with
          eviction := (Eviction.handle findings node.eviction node.list).2.1
          list := (Eviction.handle findings node.eviction node.list).2.2 }
  | [], _ => ReflTransGen.refl
  | finding :: rest, node =>
      (moves_handleOne node finding).trans
        (moves_handle rest
          { node with
            eviction := (node.eviction.handleOne node.list finding).2.1
            list := (node.eviction.handleOne node.list finding).2.2 })

theorem within_perform (action : EvictionAction) : Within Move (perform action) := by
  cases action with
  | probe sequence target address => exact within_post _ _ _
  | probeIndirect sequence target =>
      refine within_get_bind fun node => ?_
      refine steps_bind (within_choose _ _ node) fun helpers after _ => ?_
      refine steps_bind ?_ fun _ last _ => within_forM (fun _ => within_post _ _ _) helpers last
      exact ReflTransGen.single (.detect (.setHelpers sequence helpers.length) trivial rfl)
  | relay origin sequence target alive => exact within_post _ _ _
  | suspect target => exact within_get_bind fun node => within_broadcast _ node
  | refuted target => exact within_broadcast _
  | dropped target => exact within_pure ()

/-- Whatever the detector was asked, to act on what it found goes on by
moves. -/
theorem moves_actOn {findings : List Finding} {detector : Detector} {start : Node}
    (asked : Moves start { node with eviction := { node.eviction with detector } }) :
    Moves start ((actOn findings detector).run node).2 := by
  have handled :=
    moves_handle findings { node with eviction := { node.eviction with detector } }
  exact
    (asked.trans handled).trans
      (within_forM within_perform _ _)

theorem within_observe (sender : Endpoint) (now : Nat) : Within Move (observe sender now) :=
  within_get_bind fun _ =>
    moves_actOn (ReflTransGen.single (.detect (.observe sender now) trivial rfl))

/-! ## Merges -/

private theorem moves_keep {outcome : Except MemberList.Fault MemberList.Outcome}
    {list : MemberList}
    (reports : node.list.Reports outcome list) :
    Moves node ((keep (outcome, list)).run node).2 := by
  rcases reports with ⟨kept, nothing⟩ | ⟨changed, rfl, later⟩
  · have merged : Move node { node with list } := .merge (Or.inl ⟨kept, nothing⟩) kept
    cases outcome with
    | error fault => exact ReflTransGen.single merged
    | ok made =>
        obtain ⟨changed, reincarnated⟩ := made
        cases nothing _ rfl
        exact ReflTransGen.single merged
  · exact
      ReflTransGen.head (.adopt (Or.inr ⟨changed, rfl, later⟩))
        (within_broadcast (.alive list.own) _)

theorem within_receive (moment : Moment) (update : Update) :
    Within Move (receive moment update) :=
  within_get_bind fun _ =>
    steps_lift_bind fun _ received => moves_keep (MemberList.receive_reports received)

theorem within_merge (moment : Moment) (batch : Batch) : Within Move (merge moment batch) := by
  unfold merge
  split
  · exact
      within_get_bind fun _ =>
        steps_lift_bind fun _ merged => moves_keep (MemberList.merge_reports merged)
  · exact within_pure ()

/-! ## Reception -/

/-- To heed anything but a suspicion is to go on by moves. -/
theorem within_heed {payload : Payload} (moment : Moment)
    (quiet : ∀ target suspector, payload ≠ .suspect target suspector) :
    Within Move (heed moment payload) := by
  cases payload with
  | suspect target suspector => exact absurd rfl (quiet target suspector)
  | alive endpoint => exact within_observe endpoint moment.now
  | delta update => exact within_receive moment update

theorem within_offer (kind : ExchangeKind) (digest : Digest) (sender : SocketAddress) :
    Within Move (offer kind digest sender) := by
  refine within_get_bind fun node => ?_
  simp only
  split
  · exact within_post _ _ _ node
  · exact ReflTransGen.refl

theorem within_respond (digest : Digest) (sender : SocketAddress) :
    Within Move (respond digest sender) := by
  refine within_get_bind fun node => ?_
  cases node.list.since digest with
  | ok updates =>
      simp only
      split
      · exact within_post _ _ _ node
      · exact ReflTransGen.refl
  | error fault => exact ReflTransGen.refl

theorem within_completeHealing (peer : SocketAddress) : Within Move (completeHealing peer) :=
  within_modify fun _ => .steady (.loops _ _ _ _)

theorem within_answerPing (sequence : UInt64) (target : Endpoint) (sender : SocketAddress) :
    Within Move (answerPing sequence target sender) := by
  refine within_get_bind fun node => ?_
  split
  · exact within_post _ _ _ node
  · exact ReflTransGen.refl

theorem within_receiveAck (sequence : UInt64) : Within Move (receiveAck sequence) :=
  within_get_bind fun _ =>
    moves_actOn (ReflTransGen.single (.detect (.receiveAck sequence) trivial rfl))

theorem within_relay (sequence : UInt64) (target : Endpoint) (sender : SocketAddress)
    (now : Nat) : Within Move (relay sequence target sender now) := by
  unfold relay
  split
  · refine within_get_bind fun node => steps_lift_bind fun started startedOk => ?_
    refine steps_bind ?_ fun _ after _ => within_post _ _ _ after
    exact
      ReflTransGen.single
        (.detect (.startRelay sender sequence target now) trivial
          (by rw [Detector.operate, startedOk]; rfl))
  · exact within_post _ _ _

theorem within_receiveIndirectAck (sequence : UInt64) (target : Endpoint) (alive : Bool)
    (now : Nat) : Within Move (receiveIndirectAck sequence target alive now) :=
  within_get_bind fun _ => steps_lift_bind fun _ received =>
    moves_actOn
      (ReflTransGen.single
        (.detect (.receiveIndirectAck sequence target alive now) trivial received))

/-! ## The tick -/

private theorem perm_chooseTarget (eviction : Eviction) (list : MemberList) (rotation : Rotation) :
    (eviction.chooseTarget list rotation).2.members.Perm rotation.members := by
  unfold Eviction.chooseTarget
  split
  · exact .refl _
  · exact rotation.perm_select 1 [list.own]

private theorem moves_tickEviction {now : Nat} {actions : List EvictionAction} {eviction : Eviction}
    {list : MemberList} {rotation : Rotation}
    (ticked : node.eviction.tick now node.list node.rotation =
      .ok (actions, eviction, list, rotation)) :
    Moves node { node with eviction, list, rotation } := by
  cases running : node.eviction.running with
  | false =>
      cases (Eviction.tick_of_not_running running).symm.trans ticked
      exact ReflTransGen.refl
  | true =>
      obtain ⟨told, judged, asked, settled, round, _⟩ := Eviction.tick_eq_ok running ticked
      obtain ⟨findings, checked, checkedOk, handled⟩ := Eviction.settle_eq_ok settled
      have timed :
          Move node { node with eviction := { node.eviction with detector := checked } } :=
        .detect (.checkTimeouts now) trivial checkedOk
      have handles :=
        moves_handle findings { node with eviction := { node.eviction with detector := checked } }
      simp only [handled] at handles
      have settles := (ReflTransGen.single timed).trans handles
      have turns := perm_chooseTarget judged list node.rotation
      cases round with
      | early => exact settles
      | alone _ chosen =>
          rw [chosen] at turns
          exact settles.tail (.steady (.rotation turns))
      | @probe turned target address sequence begun _ chosen started =>
          rw [chosen] at turns
          have probed :
              Move { node with eviction := judged, list }
                { node with eviction := { judged with detector := begun }, list } :=
            .detect (.startProbe target now) trivial
              (by rw [Detector.operate, started]; rfl)
          exact (settles.tail probed).tail (.steady (.rotation turns))

theorem within_watch (now : Nat) : Within Move (watch now) := by
  refine within_get_bind fun node => steps_lift_bind fun result ticked => ?_
  obtain ⟨actions, eviction, list, rotation⟩ := result
  exact (moves_tickEviction ticked).trans (within_forM within_perform actions _)

theorem within_retryJoin (now : Nat) : Within Move (retryJoin now) := by
  refine within_get_bind fun node => steps_lift_bind fun result _ => ?_
  obtain ⟨step, joining⟩ := result
  refine steps_bind (ReflTransGen.single (.steady (.loops joining _ _ _))) fun _ after _ => ?_
  split
  · exact within_contact _ after
  · exact ReflTransGen.refl

private theorem within_anySeed : Within Move anySeed :=
  within_modifyGet fun _ => .steady (.rotation (.refl _))

theorem within_healingPeer : Within Move healingPeer := by
  refine within_bind (within_peerAddresses 1) fun peers => ?_
  split
  · exact within_pure _
  · exact within_anySeed

theorem within_heal (now : Nat) : Within Move (heal now) := by
  refine within_get_bind fun node => steps_lift_bind fun result _ => ?_
  obtain ⟨due, healing⟩ := result
  refine steps_bind (ReflTransGen.single (.steady (.loops _ healing _ _))) fun _ after _ => ?_
  split
  · refine steps_bind (within_healingPeer after) fun peer after _ => ?_
    split
    · refine within_get_bind (fun node => ?_) after
      refine steps_bind (within_send _ _ _ node) fun sent after _ => ?_
      split
      · refine within_get_bind (fun node => steps_lift_bind fun healing _ => ?_) after
        exact ReflTransGen.single (.steady (.loops _ healing _ _))
      · exact ReflTransGen.refl
    · exact ReflTransGen.refl
  · exact ReflTransGen.refl

private theorem within_spreadTo (targets : List SocketAddress) :
    Within Move
      (modify fun node : Node => { node with courier := node.courier.spread targets }) :=
  within_modify fun node => .steady (.courier (node.courier.keeps_spread targets))

theorem within_spread (now : Nat) : Within Move (spread now) := by
  refine within_get_bind fun node => ?_
  split
  · refine steps_lift_bind fun nextSpread _ => ?_
    refine steps_bind (ReflTransGen.single (.steady (.loops _ _ nextSpread _))) fun _ after _ => ?_
    refine within_bind within_settle (fun _ => within_get_bind fun node => ?_) after
    refine steps_bind (within_peerAddresses _ node) fun targets after _ => ?_
    exact within_spreadTo targets after
  · exact ReflTransGen.refl

theorem within_tick (now : Nat) : Within Move (tick now) :=
  within_bind (within_watch now) fun _ =>
    within_bind (within_retryJoin now) fun _ =>
      within_bind (within_heal now) fun _ =>
        within_bind (within_spread now) fun _ => within_settle

end Node

end Roster
