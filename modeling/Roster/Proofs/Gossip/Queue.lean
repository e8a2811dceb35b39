import Mathlib.Data.List.Nodup
import Mathlib.Data.List.TakeDrop
import Roster.Gossip.Queue
import Roster.Proofs.Attempt

/-!
# Who has a queued item

A queue that says of an address that it has an item is right about that as long
as the items offered to it really come from where they are said to come, and
those it is told have gone out really have.  It never counts an address twice.
So an item that retires before it was sent often enough is one that as many
addresses have as there are peers.
-/

namespace Roster

/-- The addresses that are said to have the item have it, and none of them is
counted twice. -/
structure Pending.Truthful (has : SocketAddress → GossipId → Prop) (item : Pending) : Prop where
  nodup : item.known.Nodup
  held : ∀ address ∈ item.known, has address item.gossip.id

theorem Pending.Truthful.learn {has : SocketAddress → GossipId → Prop} {item : Pending}
    {address : SocketAddress} (truthful : item.Truthful has) (transmits : Nat)
    (holds : has address item.gossip.id) :
    Pending.Truthful has { item with transmits, known := item.known.insert address } where
  nodup := truthful.nodup.insert
  held other member := by
    rcases List.mem_insert_iff.mp member with rfl | earlier
    · exact holds
    · exact truthful.held other earlier

namespace GossipQueue

/-- The queue is right about every item it holds. -/
def Truthful (has : SocketAddress → GossipId → Prop) (queue : GossipQueue) : Prop :=
  ∀ item ∈ queue.pending, item.Truthful has

variable {has wider : SocketAddress → GossipId → Prop} {queue after : GossipQueue}

theorem Truthful.mono (truthful : queue.Truthful has)
    (implies : ∀ address id, has address id → wider address id) : queue.Truthful wider := by
  intro item member
  have earlier := truthful item member
  exact
    { nodup := earlier.nodup
      held := fun address known => implies address item.gossip.id (earlier.held address known) }

theorem Truthful.of_subset (truthful : queue.Truthful has)
    (fewer : after.pending ⊆ queue.pending) : after.Truthful has :=
  fun item member => truthful item (fewer member)

/-! ## Queueing -/

theorem pending_remember (queue : GossipQueue) (id : GossipId) :
    (queue.remember id).pending = queue.pending := by
  unfold remember
  split <;> rfl

theorem origin_push (queue : GossipQueue) (item : Pending) :
    (queue.push item).origin = queue.origin := by
  unfold push
  simp only
  split <;> rfl

theorem next_push (queue : GossipQueue) (item : Pending) :
    (queue.push item).next = queue.next := by
  unfold push
  simp only
  split <;> rfl

theorem recent_push (queue : GossipQueue) (item : Pending) :
    (queue.push item).recent = queue.recent := by
  unfold push
  simp only
  split <;> rfl

theorem origin_remember (queue : GossipQueue) (id : GossipId) :
    (queue.remember id).origin = queue.origin := by
  unfold remember
  split <;> rfl

theorem next_remember (queue : GossipQueue) (id : GossipId) :
    (queue.remember id).next = queue.next := by
  unfold remember
  split <;> rfl

theorem mem_of_mem_push {item other : Pending} (member : other ∈ (queue.push item).pending) :
    other ∈ queue.pending ∨ other = item := by
  have whole : other ∈ queue.pending ++ [item] := by
    unfold push at member
    simp only at member
    split at member
    · exact List.mem_mergeSort.mp (List.mem_of_mem_take member)
    · exact member
  rwa [List.mem_append, List.mem_singleton] at whole

theorem Truthful.push {item : Pending} (truthful : queue.Truthful has)
    (right : item.Truthful has) : (queue.push item).Truthful has := by
  intro other member
  rcases mem_of_mem_push member with earlier | rfl
  · exact truthful other earlier
  · exact right

theorem Truthful.remember (truthful : queue.Truthful has) (id : GossipId) :
    (queue.remember id).Truthful has :=
  truthful.of_subset (by rw [pending_remember]; exact List.Subset.refl _)

theorem Truthful.enqueue {payload : Payload} {id : GossipId} (truthful : queue.Truthful has)
    (queued : queue.enqueue payload = .ok (id, after)) : after.Truthful has := by
  obtain ⟨next, _, same⟩ := Attempt.bind_eq_ok queued
  cases same
  have advanced : Truthful has { queue with next := UInt64.ofNat next } := truthful
  exact (advanced.remember _).push { nodup := List.nodup_nil, held := by simp }

/-- An item that was seen before is offered again: at most one that is queued
under its identity changes. -/
private theorem mem_of_mem_offer {gossip : Gossip} {sender : SocketAddress} {item : Pending}
    (seen : gossip.id ∈ queue.recent) (member : item ∈ (queue.offer gossip sender).2.pending) :
    item ∈ queue.pending ∨
      ∃ earlier ∈ queue.pending, earlier.gossip.id = gossip.id ∧
        item = { earlier with known := earlier.known.insert sender } := by
  have whole :=
    List.takeWhile_append_dropWhile
      (p := fun item : Pending => decide (item.gossip.id ≠ gossip.id)) (l := queue.pending)
  have first :=
    List.head?_dropWhile_not (fun item : Pending => decide (item.gossip.id ≠ gossip.id))
      queue.pending
  simp only [GossipQueue.offer, if_pos seen, List.span_eq_takeWhile_dropWhile] at member
  split at member
  · rename_i before found after cut
    obtain ⟨rfl, tail⟩ := Prod.mk.inj cut
    rw [tail] at whole first
    rw [← whole]
    rcases List.mem_append.mp member with before | rest
    · exact Or.inl (List.mem_append_left _ before)
    rcases List.mem_cons.mp rest with changed | after
    · refine Or.inr ⟨found, List.mem_append_right _ (List.mem_cons_self ..), ?_, changed⟩
      simpa using first
    · exact Or.inl (List.mem_append_right _ (List.mem_cons_of_mem _ after))
  · rename_i before cut
    obtain ⟨rfl, _⟩ := Prod.mk.inj cut
    exact Or.inl ((List.takeWhile_sublist _).subset member)

/-- Who offers an item has it. -/
theorem Truthful.offer {gossip : Gossip} {sender : SocketAddress} (truthful : queue.Truthful has)
    (holds : has sender gossip.id) : (queue.offer gossip sender).2.Truthful has := by
  by_cases seen : gossip.id ∈ queue.recent
  · intro item member
    rcases mem_of_mem_offer seen member with earlier | ⟨earlier, queued, same, rfl⟩
    · exact truthful item earlier
    · exact (truthful earlier queued).learn earlier.transmits (same ▸ holds)
  · rw [GossipQueue.offer, if_neg seen]
    refine (truthful.remember gossip.id).push ⟨List.nodup_singleton sender, ?_⟩
    intro address known
    rw [List.mem_singleton] at known
    rw [known]
    exact holds

/-! ## Sending -/

/-- Whom items have gone out to has them. -/
theorem Truthful.markSent {ids : List GossipId} {peer : SocketAddress}
    (truthful : queue.Truthful has) (holds : ∀ id ∈ ids, has peer id) :
    (queue.markSent ids peer).Truthful has := by
  intro item member
  obtain ⟨earlier, queued, rfl⟩ := List.mem_map.mp member
  split
  · rename_i charged
    exact (truthful earlier queued).learn _ (holds _ charged.1)
  · exact truthful earlier queued

theorem Truthful.retire (truthful : queue.Truthful has) (limit peers : Nat) :
    (queue.retire limit peers).Truthful has :=
  truthful.of_subset (List.filter_subset_self _)

theorem Truthful.discard (truthful : queue.Truthful has) (id : GossipId) :
    (queue.discard id).Truthful has :=
  truthful.of_subset (List.filter_subset_self _)

theorem markSent_nil (queue : GossipQueue) (peer : SocketAddress) :
    queue.markSent [] peer = queue := by
  simp [markSent]

/-! ## Retiring -/

/-- An item that retires although it was sent to fewer addresses than the limit
is known to as many addresses as there are peers. -/
theorem peers_le_of_retired {item : Pending} {limit peers : Nat}
    (queued : item ∈ queue.pending) (retired : item ∉ (queue.retire limit peers).pending)
    (early : item.transmits < max limit 1) : 0 < peers ∧ peers ≤ item.known.length := by
  have unkept : ¬ (peers = 0 ∨ item.known.length < peers) := by
    intro kept
    refine retired (List.mem_filter.mpr ⟨queued, ?_⟩)
    rw [Bool.and_eq_true, Bool.or_eq_true, beq_iff_eq, decide_eq_true_eq, decide_eq_true_eq]
    exact ⟨early, kept⟩
  omega

end GossipQueue

end Roster
