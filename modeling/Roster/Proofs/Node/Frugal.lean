import Roster.Proofs.Activity
import Roster.Proofs.Gossip.Queue
import Roster.Proofs.Health

/-!
# Nodes that settle

To settle may come upon an overflow in two places: gossip items run out of
numbers, and the number of retransmissions is a product.  A node that repeats
gossip no more often than the size of the cluster asks for, and has numbers
left for its edits, settles.  If it puts single items into its envelopes, too,
it does not matter what magnitude is measured of the cluster.
-/

namespace Roster

/-! ## Edits at a time -/

private theorem MemberList.length_outbox_write (list : MemberList) (uri : String)
    (edits : List Edit) :
    (list.write uri edits).2.outbox.length ≤ list.outbox.length + 1 := by
  unfold write
  split
  · exact Nat.le_succ _
  · cases list.store.write uri edits with
    | mk update store => cases update <;> simp

theorem MemberList.length_outbox_host (list : MemberList) (agent : String) :
    (list.host agent).2.outbox.length ≤ list.outbox.length + 1 := by
  unfold host whileRunning
  split
  · exact Nat.le_succ _
  · exact length_outbox_write _ _ _

private theorem MemberList.length_outbox_new (own : Endpoint) (tags : Tags) (replica : ReplicaId) :
    (MemberList.new own tags replica).outbox.length ≤ 1 :=
  length_outbox_write _ _ _

/-! ## Retransmissions -/

theorem Health.magnitude_lt (size : Nat) : magnitude size < Word.bound :=
  UInt64.toNat_lt _

theorem Health.retransmissions_eq_ok (health : Health) {most multiplier magnitude : Nat}
    (frugal : multiplier ≤ 1) (measured : magnitude < Word.bound)
    (scaled : max most 1 * health.ceiling < Word.bound) :
    ∃ limit, health.retransmissions most multiplier magnitude = .ok limit := by
  have one : max multiplier 1 = 1 := Nat.max_eq_right frugal
  have wanted : max multiplier 1 * max magnitude 1 < Word.bound := by
    rw [one, Nat.one_mul]
    exact Nat.max_lt.mpr ⟨measured, by decide⟩
  have fits :
      min (max multiplier 1 * max magnitude 1) (max most 1) * (health.ceiling - health.score) <
        Word.bound :=
    Nat.lt_of_le_of_lt (Nat.mul_le_mul (Nat.min_le_right _ _) (Nat.sub_le _ _)) scaled
  exact ⟨_, health.retransmissions_of_fits wanted fits⟩

/-- Who wants an item to go to one peer at most sends it to one, whatever magnitude was
measured. -/
theorem Health.retransmissions_eq_one (health : Health) {most multiplier magnitude : Nat}
    (single : most ≤ 1) (frugal : multiplier ≤ 1) (measured : magnitude < Word.bound)
    (scaled : max most 1 * health.ceiling < Word.bound) :
    health.retransmissions most multiplier magnitude = .ok 1 := by
  obtain ⟨limit, computed⟩ := health.retransmissions_eq_ok frugal measured scaled
  obtain ⟨one_le, limit_le⟩ := Health.limit_bounds computed
  rw [Nat.max_eq_right single] at limit_le
  rw [computed, Nat.le_antisymm limit_le one_le]

/-! ## Numbers of items -/

private theorem GossipQueue.enqueue_eq_ok (queue : GossipQueue) (payload : Payload)
    (fits : queue.next.toNat + 1 < Word.bound) :
    ∃ id after, queue.enqueue payload = .ok (id, after) ∧
      after.next.toNat = queue.next.toNat + 1 := by
  simp only [enqueue, Word.add_eq_ok fits, Attempt.ok_bind]
  refine ⟨_, _, rfl, ?_⟩
  rw [next_push, next_remember]
  exact UInt64.toNat_ofNat_of_lt' fits

namespace Node

open Activity

variable {node : Node} {room : Nat}

/-! ## What settles -/

/-- Where the numbers reach, items are queued one after the other. -/
private theorem broadcastAll_eq_ok :
    ∀ (updates : List Update) {node : Node},
      node.courier.queue.next.toNat + updates.length < Word.bound →
        ∃ queue : GossipQueue,
          (updates.forM fun update => broadcast (.delta update)).run node =
              (.ok (), { node with courier := { node.courier with queue } }) ∧
            queue.next.toNat = node.courier.queue.next.toNat + updates.length
  | [], node, _ => ⟨node.courier.queue, rfl, rfl⟩
  | update :: rest, node, fits => by
      rw [List.length_cons] at fits ⊢
      obtain ⟨id, queue, queued, counted⟩ :=
        node.courier.queue.enqueue_eq_ok (.delta update) (by omega)
      let middle : Node := { node with courier := { node.courier with queue } }
      have first : (broadcast (.delta update)).run node = (.ok (), middle) := by
        unfold broadcast Courier.broadcast
        rw [run_get_bind, queued]
        rfl
      have fitsLater : middle.courier.queue.next.toNat + rest.length < Word.bound := by
        have sameNext : middle.courier.queue.next.toNat = queue.next.toNat := rfl
        omega
      obtain ⟨last, others, countedLater⟩ := broadcastAll_eq_ok rest fitsLater
      have reached : last.next.toNat = queue.next.toNat + rest.length := countedLater
      exact ⟨last, (run_bind_of_ok first).trans others, by omega⟩

/-- A node that has numbers for its edits spreads them. -/
private theorem spreadEdits_eq_ok
    (fits : node.courier.queue.next.toNat + node.list.outbox.length < Word.bound) :
    ∃ queue : GossipQueue,
      spreadEdits.run node =
          (.ok (),
            { node with
              list := node.list.takeOutbox.2
              courier := { node.courier with queue } }) ∧
        queue.next.toNat = node.courier.queue.next.toNat + node.list.outbox.length := by
  let drained : Node := { node with list := node.list.takeOutbox.2 }
  have fitsDrained : drained.courier.queue.next.toNat + node.list.outbox.length < Word.bound :=
    fits
  exact broadcastAll_eq_ok node.list.outbox fitsDrained

/-- The node when all has followed the member list, at a limit of retransmissions. -/
def followed (node : Node) (limit : Nat) : Node :=
  let members := node.list.members
  { node with
    courier := { node.courier with limit, peers := members.size - 1 }
    rotation := node.rotation.refresh members.keys
    eviction :=
      { node.eviction with
        detector :=
          (node.eviction.detector.setClusterSize members.size).retainMembers members.contains }
    members := node.members.publish members
    landscape := node.landscape.publish node.list.landscape }

private theorem run_follow {limit : Nat}
    (limited :
      node.eviction.detector.health.retransmissions node.courier.perEnvelope
        node.courier.multiplier (Health.magnitude node.list.members.size) = .ok limit) :
    follow.run node = (.ok (), node.followed limit) := by
  have tuned :
      node.courier.tune node.eviction.detector.health node.list.members.size =
        .ok { node.courier with limit, peers := node.list.members.size - 1 } := by
    rw [Courier.tune, limited]
    rfl
  unfold follow
  rw [run_get_bind]
  exact run_lift_bind_of_ok tuned

/-- A node settles if it has numbers for its edits and the number of
retransmissions is a word. -/
theorem settle_eq_ok {limit : Nat}
    (fits : node.courier.queue.next.toNat + node.list.outbox.length < Word.bound)
    (limited :
      node.eviction.detector.health.retransmissions node.courier.perEnvelope
        node.courier.multiplier (Health.magnitude node.list.members.size) = .ok limit) :
    ∃ (after : Node) (queue : GossipQueue),
      settle.run node = (.ok (), after) ∧
        after.list = { node.list with outbox := [] } ∧
        after.courier =
          { node.courier with queue, limit, peers := node.list.members.size - 1 } ∧
        after.eviction.detector.health = node.eviction.detector.health ∧
        queue.next.toNat = node.courier.queue.next.toNat + node.list.outbox.length := by
  obtain ⟨queue, spread, counted⟩ := spreadEdits_eq_ok fits
  let middle : Node :=
    { node with list := node.list.takeOutbox.2, courier := { node.courier with queue } }
  have followed : follow.run middle = (.ok (), middle.followed limit) := run_follow limited
  exact ⟨_, queue, (run_bind_of_ok spread).trans followed, rfl, rfl, rfl, counted⟩

/-! ## Frugal nodes -/

/-- The node repeats gossip no more often than the size of the cluster asks for,
and has numbers for another `room` items. -/
structure Frugal (room : Nat) (node : Node) : Prop where
  multiplier_le : node.courier.multiplier ≤ 1
  scaled_lt :
    max node.courier.perEnvelope 1 * node.eviction.detector.health.ceiling < Word.bound
  next_lt : node.courier.queue.next.toNat + room < Word.bound

private theorem frugal_iff :
    node.Frugal room ↔
      node.courier.multiplier ≤ 1 ∧
        max node.courier.perEnvelope 1 * node.eviction.detector.health.ceiling < Word.bound ∧
        node.courier.queue.next.toNat + room < Word.bound :=
  ⟨fun frugal => ⟨frugal.multiplier_le, frugal.scaled_lt, frugal.next_lt⟩,
    fun ⟨multiplier_le, scaled_lt, next_lt⟩ => ⟨multiplier_le, scaled_lt, next_lt⟩⟩

instance : Decidable (node.Frugal room) :=
  decidable_of_iff' _ frugal_iff

/-- A frugal node that has room for its edits settles. -/
theorem Frugal.settle (frugal : node.Frugal (room + node.list.outbox.length)) :
    ∃ after, Node.settle.run node = (.ok (), after) ∧ after.Frugal room ∧
      after.list = { node.list with outbox := [] } := by
  have enough := frugal.next_lt
  obtain ⟨limit, limited⟩ :=
    node.eviction.detector.health.retransmissions_eq_ok frugal.multiplier_le
      (Health.magnitude_lt node.list.members.size) frugal.scaled_lt
  obtain ⟨after, queue, settled, listed, carried, healthy, counted⟩ :=
    settle_eq_ok (by omega) limited
  refine ⟨after, settled, ⟨?_, ?_, ?_⟩, listed⟩
  · rw [carried]
    exact frugal.multiplier_le
  · rw [carried, healthy]
    exact frugal.scaled_lt
  · rw [carried, counted]
    omega

/-! ## Sparing nodes -/

/-- The node is frugal, and puts no more than one item into an envelope. -/
structure Sparing (node : Node) : Prop extends node.Frugal node.list.outbox.length where
  perEnvelope_le : node.courier.perEnvelope ≤ 1

private theorem sparing_iff :
    node.Sparing ↔ node.Frugal node.list.outbox.length ∧ node.courier.perEnvelope ≤ 1 :=
  ⟨fun sparing => ⟨sparing.toFrugal, sparing.perEnvelope_le⟩,
    fun ⟨frugal, perEnvelope_le⟩ => ⟨frugal, perEnvelope_le⟩⟩

instance : Decidable node.Sparing :=
  decidable_of_iff' _ sparing_iff

/-- What a sparing node settles as. -/
def tidied (node : Node) : Node :=
  (spreadEdits.run node).2.followed 1

/-- The limit of a sparing node is one whatever magnitude is measured of its cluster, so
what it settles as can be computed. -/
theorem Sparing.run_settle (sparing : node.Sparing) :
    Node.settle.run node = (.ok (), node.tidied) := by
  have limited :=
    node.eviction.detector.health.retransmissions_eq_one sparing.perEnvelope_le
      sparing.multiplier_le (Health.magnitude_lt node.list.members.size) sparing.scaled_lt
  obtain ⟨queue, spread, _⟩ := spreadEdits_eq_ok sparing.next_lt
  let middle : Node :=
    { node with list := node.list.takeOutbox.2, courier := { node.courier with queue } }
  have followed : follow.run middle = (.ok (), middle.followed 1) := run_follow limited
  rw [tidied, spread]
  exact (run_bind_of_ok spread).trans followed

/-! ## New nodes -/

def unsettled (options : Options) (own : Endpoint) (tags : Tags) (replica : ReplicaId)
    (link : Link) (chance : Chance) (courier : Courier) : Node :=
  { options
    courier
    list := MemberList.new own tags replica
    rotation := { chance }
    eviction := Eviction.start { detector := Detector.new options.detection own }
    joining := Joining.new link.address options
    healing := Healing.new options
    own }

theorem new_eq_ok {options : Options} {own : Endpoint} {tags : Tags} {replica : ReplicaId}
    {link : Link} {chance : Chance} {courier : Courier}
    (made : Courier.new options own replica link = .ok courier)
    (settled : settle.run (unsettled options own tags replica link chance courier) =
      (.ok (), node)) :
    Node.new options own tags replica link chance = .ok node := by
  unfold unsettled at settled
  simp only [Node.new, made, Attempt.ok_bind, settled]
  rfl

/-- A node that was made has settled. -/
theorem exists_unsettled_of_new {options : Options} {own : Endpoint} {tags : Tags}
    {replica : ReplicaId} {link : Link} {chance : Chance}
    (made : Node.new options own tags replica link chance = .ok node) :
    ∃ courier, Courier.new options own replica link = .ok courier ∧
      settle.run (unsettled options own tags replica link chance courier) = (.ok (), node) := by
  unfold Node.new at made
  obtain ⟨courier, courierOk, made⟩ := Attempt.bind_eq_ok made
  obtain ⟨_, settledOk, same⟩ := Attempt.map_eq_ok made
  exact ⟨courier, courierOk, Prod.ext settledOk same⟩

def freshCourier (options : Options) (own : Endpoint) (replica : ReplicaId) (link : Link)
    (limit : Nat) : Courier :=
  { env := options.env
    own
    link
    queue := { origin := replica }
    fanout := options.gossipFanout.toNat
    perEnvelope := options.gossipPerEnvelope.toNat
    multiplier := options.retransmitMultiplier.toNat
    limit }

/-- The number of retransmissions that the options give a healthy host is a word,
for a cluster of the magnitude. -/
def Limited (options : Options) (magnitude limit : Nat) : Prop :=
  (Health.new options.healthCeiling.toNat).retransmissions options.gossipPerEnvelope.toNat
    options.retransmitMultiplier.toNat magnitude = .ok limit

theorem Limited.courier {options : Options} {limit : Nat}
    (limited : Limited options (Health.magnitude 1) limit) (own : Endpoint)
    (replica : ReplicaId) (link : Link) :
    Courier.new options own replica link =
      .ok (freshCourier options own replica link limit) := by
  unfold Limited at limited
  simp only [Courier.new, limited, Attempt.ok_bind]
  rfl

/-- A host whose options are frugal starts. -/
theorem exists_new {options : Options} (own : Endpoint) (tags : Tags) (replica : ReplicaId)
    (link : Link) (chance : Chance) (multiplier_le : options.retransmitMultiplier.toNat ≤ 1)
    (scaled_lt :
      max options.gossipPerEnvelope.toNat 1 * max options.healthCeiling.toNat 1 < Word.bound)
    (room_lt : 2 + room < Word.bound) :
    ∃ node, Node.new options own tags replica link chance = .ok node ∧ node.Frugal room ∧
      node.list = { MemberList.new own tags replica with outbox := [] } := by
  obtain ⟨limit, limited⟩ :=
    (Health.new options.healthCeiling.toNat).retransmissions_eq_ok multiplier_le
      (Health.magnitude_lt 1) scaled_lt
  let start :=
    unsettled options own tags replica link chance
      (freshCourier options own replica link limit)
  have frugal : start.Frugal (room + start.list.outbox.length) := by
    have outbox_le : start.list.outbox.length ≤ 1 :=
      MemberList.length_outbox_new own tags replica
    have first : start.courier.queue.next.toNat = 1 := rfl
    exact ⟨multiplier_le, scaled_lt, by omega⟩
  obtain ⟨node, settled, frugalNode, same⟩ := frugal.settle
  exact ⟨node, new_eq_ok (Limited.courier limited own replica link) settled, frugalNode, same⟩

/-- A host starts if the numbers of retransmissions are words, for a lone host
and for the members of its list. -/
theorem exists_new_of_limited {options : Options} {limit limitListed : Nat} (own : Endpoint)
    (tags : Tags) (replica : ReplicaId) (link : Link) (chance : Chance)
    (alone : Limited options (Health.magnitude 1) limit)
    (listed :
      Limited options (Health.magnitude (MemberList.new own tags replica).members.size)
        limitListed) :
    ∃ node, Node.new options own tags replica link chance = .ok node := by
  let start :=
    unsettled options own tags replica link chance
      (freshCourier options own replica link limit)
  have fits : start.courier.queue.next.toNat + start.list.outbox.length < Word.bound := by
    have outbox_le : start.list.outbox.length ≤ 1 :=
      MemberList.length_outbox_new own tags replica
    have first : start.courier.queue.next.toNat = 1 := rfl
    have roomy : 2 < Word.bound := by decide
    omega
  obtain ⟨node, _, settled, _⟩ := settle_eq_ok fits listed
  exact ⟨node, new_eq_ok (alone.courier own replica link) settled⟩

end Node

end Roster
