import Mathlib.Data.List.Basic
import Roster.Proofs.Gossip.Capacity

/-!
# Runs of a gossip queue

A run of a queue is what was asked of it, in any order.  An operation brings in
at most one item, which was never sent: what the host queues itself, and what is
offered and not remembered.  The queue never holds more items than its capacity.
-/

namespace Roster

def Pending.learn (item : Pending) (address : SocketAddress) : Pending :=
  { item with known := item.known.insert address }

/-- The items of the given identities go out to an address. -/
def Pending.send (ids : List GossipId) (peer : SocketAddress) (item : Pending) : Pending :=
  if item.gossip.id ∈ ids ∧ peer ∉ item.known then
    { item with transmits := item.transmits + 1, known := item.known.insert peer }
  else
    item

namespace GossipQueue

/-! ## Operations -/

inductive Operation where
  | enqueue (payload : Payload)
  | offer (gossip : Gossip) (sender : SocketAddress)
  | select (peer : SocketAddress) (most : Nat)
  | markSent (ids : List GossipId) (peer : SocketAddress)
  | retire (limit peers : Nat)
  | discard (id : GossipId)

def operate (queue : GossipQueue) : Operation → Except Overflow GossipQueue
  | .enqueue payload => (queue.enqueue payload).map (·.2)
  | .offer gossip sender => .ok (queue.offer gossip sender).2
  | .select _ _ => .ok queue
  | .markSent ids peer => .ok (queue.markSent ids peer)
  | .retire limit peers => .ok (queue.retire limit peers)
  | .discard id => .ok (queue.discard id)

/-- The item that an operation brings in. -/
def entrant? (queue : GossipQueue) : Operation → Option Pending
  | .enqueue payload =>
      some { gossip := { id := { origin := queue.origin, sequence := queue.next }, payload } }
  | .offer gossip sender =>
      if gossip.id ∈ queue.recent then none else some { gossip, known := [sender] }
  | _ => none

variable {queue after : GossipQueue} {operation : Operation} {item : Pending}
  {gossip : Gossip} {sender peer : SocketAddress} {payload : Payload} {id : GossipId}
  {most : Nat}

/-- An item that was never sent is remembered and pushed. -/
structure TakesIn (queue : GossipQueue) (item : Pending) (after : GossipQueue) : Prop where
  unsent : item.transmits = 0
  pending_eq : after.pending = (queue.push item).pending
  recent_eq : after.recent = (queue.remember item.gossip.id).recent
  origin_eq : after.origin = queue.origin
  next_le : queue.next ≤ after.next

/-- Nothing is brought in, remembered or given a number. -/
structure Rests (queue after : GossipQueue) : Prop where
  size_le : after.size ≤ queue.size
  recent_eq : after.recent = queue.recent
  origin_eq : after.origin = queue.origin
  next_eq : after.next = queue.next

private theorem pending_push_of_eq {left right : GossipQueue} (same : left.pending = right.pending)
    (item : Pending) : (left.push item).pending = (right.push item).pending := by
  rw [pending_push, pending_push, size, size, same]

theorem recent_remember (queue : GossipQueue) (id : GossipId) :
    (queue.remember id).recent =
      if id ∈ queue.recent then queue.recent else (id :: queue.recent).take memory := by
  unfold remember
  split <;> rfl

theorem eq_of_enqueue (queued : queue.enqueue payload = .ok (id, after)) :
    id = { origin := queue.origin, sequence := queue.next } ∧
      queue.next.toNat + 1 < Word.bound ∧
        after =
          ({ queue with next := UInt64.ofNat (queue.next.toNat + 1) }.remember id).push
            { gossip := { id, payload } } := by
  obtain ⟨next, advanced, same⟩ := Attempt.bind_eq_ok queued
  cases same
  by_cases fits : queue.next.toNat + 1 < Word.bound
  · rw [Word.add_eq_ok fits] at advanced
    cases advanced
    exact ⟨rfl, fits, rfl⟩
  · rw [Word.add_eq_error (Nat.le_of_not_lt fits)] at advanced
    cases advanced

theorem next_lt_of_enqueue (queued : queue.enqueue payload = .ok (id, after)) :
    queue.next < after.next := by
  obtain ⟨_, fits, rfl⟩ := eq_of_enqueue queued
  rw [next_push, next_remember, UInt64.lt_iff_toNat_lt, UInt64.toNat_ofNat_of_lt' fits]
  exact Nat.lt_succ_self _

theorem takesIn_enqueue (queued : queue.enqueue payload = .ok (id, after)) :
    queue.TakesIn { gossip := { id, payload } } after := by
  have advanced := next_lt_of_enqueue queued
  obtain ⟨_, _, rfl⟩ := eq_of_enqueue queued
  constructor
  · rfl
  · apply pending_push_of_eq
    rw [pending_remember]
  · rw [recent_push, recent_remember, recent_remember]
  · rw [origin_push, origin_remember]
  · exact UInt64.le_of_lt advanced

private theorem replaceF_eq_span (items : List Pending) (id : GossipId) (sender : SocketAddress) :
    (match items.span fun item => item.gossip.id ≠ id with
      | (before, item :: after) => before ++ item.learn sender :: after
      | (before, []) => before) =
      items.replaceF fun item => if item.gossip.id = id then some (item.learn sender) else none := by
  simp only [List.span_eq_takeWhile_dropWhile]
  induction items with
  | nil => rfl
  | cons item rest inductionHypothesis =>
      by_cases same : item.gossip.id = id
      · simp [same]
      · have passes :
            (if item.gossip.id = id then some (item.learn sender) else none) = none :=
          if_neg same
        rw [List.replaceF_cons_of_none _ passes, ← inductionHypothesis,
          List.takeWhile_cons_of_pos (by simpa using same),
          List.dropWhile_cons_of_pos (by simpa using same)]
        cases rest.dropWhile fun item => item.gossip.id ≠ id with
        | nil => rfl
        | cons found behind => rfl

/-- An item that was seen before teaches the first that is queued under its
identity who has it. -/
theorem offer_of_recent (seen : gossip.id ∈ queue.recent) (sender : SocketAddress) :
    queue.offer gossip sender =
      (false,
        { queue with
          pending :=
            queue.pending.replaceF fun item =>
              if item.gossip.id = gossip.id then some (item.learn sender) else none }) := by
  simp only [offer, if_pos seen, ← replaceF_eq_span]
  rfl

theorem offer_of_new (new : gossip.id ∉ queue.recent) (sender : SocketAddress) :
    queue.offer gossip sender =
      (true, (queue.remember gossip.id).push { gossip, known := [sender] }) := by
  rw [offer, if_neg new]

theorem fresh_iff : (queue.offer gossip sender).1 = true ↔ gossip.id ∉ queue.recent := by
  by_cases seen : gossip.id ∈ queue.recent
  · simp [offer_of_recent seen, seen]
  · simp [offer_of_new seen, seen]

theorem takesIn_offer (new : gossip.id ∉ queue.recent) (sender : SocketAddress) :
    queue.TakesIn { gossip, known := [sender] } (queue.offer gossip sender).2 := by
  rw [offer_of_new new]
  constructor
  · rfl
  · exact pending_push_of_eq (pending_remember queue gossip.id) _
  · exact recent_push _ _
  · rw [origin_push, origin_remember]
  · rw [next_push, next_remember]
    exact UInt64.le_refl queue.next

theorem pending_markSent (queue : GossipQueue) (ids : List GossipId) (peer : SocketAddress) :
    (queue.markSent ids peer).pending = queue.pending.map (Pending.send ids peer) :=
  rfl

theorem recent_markSent (queue : GossipQueue) (ids : List GossipId) (peer : SocketAddress) :
    (queue.markSent ids peer).recent = queue.recent :=
  rfl

theorem pending_discard (queue : GossipQueue) (id : GossipId) :
    (queue.discard id).pending = queue.pending.filter fun item => item.gossip.id ≠ id :=
  rfl

theorem recent_discard (queue : GossipQueue) (id : GossipId) :
    (queue.discard id).recent = queue.recent :=
  rfl

theorem entrant?_offer_eq_none_iff :
    queue.entrant? (.offer gossip sender) = none ↔ gossip.id ∈ queue.recent := by
  simp [entrant?]

/-- What is brought in is the next item of the host or what is offered and not
remembered. -/
theorem entrant_cases (enters : queue.entrant? operation = some item) :
    (∃ payload, operation = .enqueue payload ∧
        item = { gossip := { id := { origin := queue.origin, sequence := queue.next }, payload } }) ∨
      ∃ gossip sender, operation = .offer gossip sender ∧ gossip.id ∉ queue.recent ∧
        item = { gossip, known := [sender] } := by
  cases operation with
  | enqueue payload =>
      cases enters
      exact Or.inl ⟨payload, rfl, rfl⟩
  | offer gossip sender =>
      rw [entrant?] at enters
      split at enters
      · cases enters
      · rename_i new
        cases enters
        exact Or.inr ⟨gossip, sender, rfl, new, rfl⟩
  | _ => cases enters

theorem takesIn_of_entrant (enters : queue.entrant? operation = some item)
    (operated : queue.operate operation = .ok after) : queue.TakesIn item after := by
  rcases entrant_cases enters with ⟨payload, rfl, rfl⟩ | ⟨gossip, sender, rfl, new, rfl⟩
  · obtain ⟨⟨id, result⟩, queued, same⟩ := Attempt.map_eq_ok operated
    cases same
    obtain ⟨rfl, _⟩ := eq_of_enqueue queued
    exact takesIn_enqueue queued
  · cases operated
    exact takesIn_offer new sender

theorem rests_of_nothing (nothing : queue.entrant? operation = none)
    (operated : queue.operate operation = .ok after) : queue.Rests after := by
  cases operation with
  | enqueue payload => cases nothing
  | offer gossip sender =>
      cases operated
      rw [offer_of_recent (entrant?_offer_eq_none_iff.mp nothing)]
      exact ⟨Nat.le_of_eq List.length_replaceF, rfl, rfl, rfl⟩
  | select peer most =>
      cases operated
      exact ⟨Nat.le_refl _, rfl, rfl, rfl⟩
  | markSent ids peer =>
      cases operated
      exact ⟨Nat.le_of_eq (List.length_map _), rfl, rfl, rfl⟩
  | retire limit peers =>
      cases operated
      exact ⟨List.length_filter_le _ _, rfl, rfl, rfl⟩
  | discard id =>
      cases operated
      exact ⟨List.length_filter_le _ _, rfl, rfl, rfl⟩

/-! ## Runs -/

structure Occurrence where
  before : GossipQueue
  operation : Operation
  after : GossipQueue

/-- What can become of a new queue, with all that was asked of it. -/
inductive Runs (origin : ReplicaId) : List Occurrence → GossipQueue → Prop where
  | start : Runs origin [] { origin }
  | operate {history : List Occurrence} {before after : GossipQueue} {operation : Operation}
      (run : Runs origin history before) (operated : before.operate operation = .ok after) :
      Runs origin (history ++ [⟨before, operation, after⟩]) after

variable {origin : ReplicaId} {history : List Occurrence}

private theorem size_operate_le (bounded : queue.size ≤ capacity)
    (operated : queue.operate operation = .ok after) : after.size ≤ capacity := by
  cases enters : queue.entrant? operation with
  | some item =>
      rw [size, (takesIn_of_entrant enters operated).pending_eq]
      exact size_push_le queue item
  | none => exact Nat.le_trans (rests_of_nothing enters operated).size_le bounded

private theorem origin_operate (operated : queue.operate operation = .ok after) :
    after.origin = queue.origin := by
  cases enters : queue.entrant? operation with
  | some item => exact (takesIn_of_entrant enters operated).origin_eq
  | none => exact (rests_of_nothing enters operated).origin_eq

theorem Runs.size_le (run : Runs origin history queue) : queue.size ≤ capacity := by
  induction run with
  | start => exact Nat.zero_le capacity
  | operate _ operated inductionHypothesis => exact size_operate_le inductionHypothesis operated

theorem Runs.origin_eq (run : Runs origin history queue) : queue.origin = origin := by
  induction run with
  | start => rfl
  | operate _ operated inductionHypothesis =>
      rw [origin_operate operated, inductionHypothesis]

theorem Runs.offer (run : Runs origin history queue) (gossip : Gossip)
    (sender : SocketAddress) :
    Runs origin
      (history ++ [⟨queue, .offer gossip sender, (queue.offer gossip sender).2⟩])
      (queue.offer gossip sender).2 :=
  run.operate rfl

theorem Runs.markSent (run : Runs origin history queue) (ids : List GossipId)
    (peer : SocketAddress) :
    Runs origin (history ++ [⟨queue, .markSent ids peer, queue.markSent ids peer⟩])
      (queue.markSent ids peer) :=
  run.operate rfl

theorem Runs.discard (run : Runs origin history queue) (id : GossipId) :
    Runs origin (history ++ [⟨queue, .discard id, queue.discard id⟩]) (queue.discard id) :=
  run.operate rfl

def offerEach (sender : SocketAddress) (queue : GossipQueue) (items : List Gossip) :
    GossipQueue :=
  items.foldl (fun queue gossip => (queue.offer gossip sender).2) queue

theorem offerEach_singleton (sender : SocketAddress) (queue : GossipQueue) (gossip : Gossip) :
    queue.offerEach sender [gossip] = (queue.offer gossip sender).2 :=
  rfl

theorem Runs.offerEach (sender : SocketAddress) :
    ∀ (items : List Gossip) {history : List Occurrence} {queue : GossipQueue},
      Runs origin history queue →
        ∃ later,
          Runs origin (history ++ later) (queue.offerEach sender items) ∧
            later.map (·.operation) = items.map (.offer · sender)
  | [], history, queue, run => ⟨[], by rwa [List.append_nil], rfl⟩
  | gossip :: rest, history, queue, run => by
      obtain ⟨later, further, operations⟩ :=
        Runs.offerEach sender rest (run.offer gossip sender)
      rw [List.append_assoc] at further
      refine ⟨_, further, ?_⟩
      rw [List.singleton_append, List.map_cons, operations, List.map_cons]

end GossipQueue

end Roster
