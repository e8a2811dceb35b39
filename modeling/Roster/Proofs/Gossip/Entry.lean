import Mathlib.Data.List.Induction
import Roster.Proofs.Gossip.Run

/-!
# Entries of the queue

Two items may be queued under one identity, so an entry is told apart from all
others by how many items had been queued before it.  Entries are followed beside
the queue through everything that is asked of it, and without their numbers they
are its items.
-/

namespace Roster

namespace GossipQueue

/-- A queued item, and how many items had been queued before it. -/
structure Entry where
  number : Nat
  item : Pending
  deriving DecidableEq

namespace Entry

def id (entry : Entry) : GossipId :=
  entry.item.gossip.id

def change (change : Pending → Pending) (entry : Entry) : Entry :=
  { entry with item := change entry.item }

def leastSentFirst (entries : List Entry) : List Entry :=
  entries.mergeSort fun left right => left.item.transmits ≤ right.item.transmits

end Entry

/-- The entries of a queue, and how many items were queued in all. -/
structure Ledger where
  queued : Nat := 0
  entries : List Entry := []

namespace Ledger

def newest (ledger : Ledger) (item : Pending) : Entry :=
  { number := ledger.queued, item }

def enter (ledger : Ledger) (item : Pending) : Ledger :=
  let entries := ledger.entries ++ [ledger.newest item]
  { queued := ledger.queued + 1
    entries :=
      if capacity < entries.length then
        (Entry.leastSentFirst entries).take capacity
      else
        entries }

/-- What becomes of the entries by an operation that brings nothing in. -/
def carry (entries : List Entry) : Operation → List Entry
  | .offer gossip sender =>
      entries.replaceF fun entry =>
        if entry.id = gossip.id then some (entry.change (·.learn sender)) else none
  | .markSent ids peer => entries.map (Entry.change (Pending.send ids peer))
  | .retire limit peers =>
      entries.filter fun entry =>
        entry.item.transmits < max limit 1 && (peers == 0 || entry.item.known.length < peers)
  | .discard id => entries.filter fun entry => entry.id ≠ id
  | .enqueue _ | .select _ _ => entries

def follow (ledger : Ledger) (occurrence : Occurrence) : Ledger :=
  match occurrence.before.entrant? occurrence.operation with
  | some item => ledger.enter item
  | none => { ledger with entries := carry ledger.entries occurrence.operation }

def selected (ledger : Ledger) (peer : SocketAddress) (most : Nat) : List Entry :=
  (Entry.leastSentFirst (ledger.entries.filter fun entry => peer ∉ entry.item.known)).take most

def Holds (ledger : Ledger) (entry : Entry) : Prop :=
  ∃ held ∈ ledger.entries, held.number = entry.number

end Ledger

/-- The entries after all that was asked of a new queue. -/
def ledger (history : List Occurrence) : Ledger :=
  history.foldl Ledger.follow {}

theorem ledger_append_singleton (history : List Occurrence) (last : Occurrence) :
    ledger (history ++ [last]) = (ledger history).follow last := by
  rw [ledger, List.foldl_append]
  rfl

variable {queue after : GossipQueue} {operation : Operation} {item earlier later : Pending}
  {entry : Entry} {book : Ledger} {occurrence : Occurrence} {origin : ReplicaId}
  {history : List Occurrence} {peer : SocketAddress} {gossip : Gossip}

theorem follow_of_entrant
    (enters : occurrence.before.entrant? occurrence.operation = some item) :
    book.follow occurrence = book.enter item := by
  simp only [Ledger.follow, enters]

theorem follow_of_nothing (nothing : occurrence.before.entrant? occurrence.operation = none) :
    book.follow occurrence =
      { book with entries := Ledger.carry book.entries occurrence.operation } := by
  simp only [Ledger.follow, nothing]

/-! ## Entries are the items of the queue -/

private theorem map_replaceF {α β : Type} {view : α → β} {change : α → Option α}
    {viewed : β → Option β} (same : ∀ value, (change value).map view = viewed (view value)) :
    ∀ values : List α, (values.replaceF change).map view = (values.map view).replaceF viewed
  | [] => rfl
  | value :: rest => by
      have first := same value
      rw [List.map_cons, List.replaceF_cons, List.replaceF_cons, ← first]
      cases change value with
      | none => exact congrArg (view value :: ·) (map_replaceF same rest)
      | some changed => rfl

theorem map_item_leastSentFirst (entries : List Entry) :
    (Entry.leastSentFirst entries).map (·.item) = leastSentFirst (entries.map (·.item)) :=
  List.map_mergeSort fun _ _ _ _ => rfl

private theorem map_item_enter (same : book.entries.map (·.item) = queue.pending) (item : Pending) :
    (book.enter item).entries.map (·.item) = (queue.push item).pending := by
  have appended :
      (book.entries ++ [book.newest item]).map (·.item) =
        queue.pending ++ [item] := by
    rw [List.map_append, same]
    rfl
  have count : (book.entries ++ [book.newest item]).length = queue.size + 1 := by
    rw [← List.length_map (fun entry : Entry => entry.item), appended, List.length_append]
    rfl
  simp only [Ledger.enter, pending_push, count]
  split
  · rw [List.map_take, map_item_leastSentFirst, appended]
  · exact appended

private theorem map_item_follow (same : book.entries.map (·.item) = queue.pending)
    (operated : queue.operate operation = .ok after) :
    (book.follow ⟨queue, operation, after⟩).entries.map (·.item) = after.pending := by
  unfold Ledger.follow
  cases enters : queue.entrant? operation with
  | some item =>
      rw [(takesIn_of_entrant enters operated).pending_eq]
      exact map_item_enter same item
  | none =>
      cases operation with
      | enqueue payload => cases enters
      | offer gossip sender =>
          cases operated
          rw [offer_of_recent (entrant?_offer_eq_none_iff.mp enters), ← same]
          apply map_replaceF
          intro entry
          by_cases found : entry.id = gossip.id
          · rw [if_pos found, if_pos (show entry.item.gossip.id = gossip.id from found)]
            rfl
          · rw [if_neg found, if_neg (show ¬ entry.item.gossip.id = gossip.id from found)]
            rfl
      | select peer most =>
          cases operated
          exact same
      | markSent ids peer =>
          cases operated
          rw [pending_markSent, ← same]
          simp only [Ledger.carry, List.map_map]
          rfl
      | retire limit peers =>
          cases operated
          rw [retire, ← same, List.filter_map]
          rfl
      | discard id =>
          cases operated
          rw [discard, ← same, List.filter_map]
          rfl

theorem Runs.map_item_ledger (run : Runs origin history queue) :
    (ledger history).entries.map (·.item) = queue.pending := by
  induction run with
  | start => rfl
  | operate _ operated inductionHypothesis =>
      rw [ledger_append_singleton]
      exact map_item_follow inductionHypothesis operated

theorem map_gossip_selected (same : book.entries.map (·.item) = queue.pending)
    (peer : SocketAddress) (most : Nat) :
    (book.selected peer most).map (·.item.gossip) = queue.select peer most := by
  have lacking :
      (book.entries.filter fun entry => peer ∉ entry.item.known).map (·.item) =
        queue.pending.filter fun item => peer ∉ item.known := by
    rw [← same, List.filter_map]
    rfl
  rw [Ledger.selected, select, ← lacking, ← map_item_leastSentFirst, ← List.map_take,
    List.map_map]
  rfl

/-! ## Numbers tell entries apart -/

/-- Numbers are given in order, and each to one entry. -/
structure Ledger.Numbered (ledger : Ledger) : Prop where
  lt : ∀ entry ∈ ledger.entries, entry.number < ledger.queued
  nodup : (ledger.entries.map (·.number)).Nodup

private theorem map_replaceF_of_kept {α β : Type} {view : α → β} {change : α → Option α}
    (kept : ∀ value changed, change value = some changed → view changed = view value)
    (values : List α) : (values.replaceF change).map view = values.map view := by
  rcases List.exists_or_eq_self_of_replaceF change values with
    same | ⟨value, changed, front, rest, _, changes, split, replaced⟩
  · rw [same]
  · rw [replaced, split, List.map_append, List.map_append, List.map_cons, List.map_cons,
      kept value changed changes]

theorem map_number_replaceF (entries : List Entry) (id : GossipId) (sender : SocketAddress) :
    (entries.replaceF fun entry =>
        if entry.id = id then some (entry.change (·.learn sender)) else none).map (·.number) =
      entries.map (·.number) := by
  apply map_replaceF_of_kept
  intro entry changed changes
  split at changes
  · cases changes
    rfl
  · cases changes

private theorem numbers_carry (entries : List Entry) (operation : Operation) :
    ((Ledger.carry entries operation).map (·.number)).Sublist (entries.map (·.number)) := by
  cases operation with
  | enqueue payload => exact List.Sublist.refl _
  | offer gossip sender =>
      rw [Ledger.carry, map_number_replaceF]
  | select peer most => exact List.Sublist.refl _
  | markSent ids peer =>
      rw [Ledger.carry, List.map_map]
      exact List.Sublist.refl _
  | retire limit peers => exact List.filter_sublist.map _
  | discard id => exact List.filter_sublist.map _

private theorem mem_of_mem_enter (member : entry ∈ (book.enter item).entries) :
    entry ∈ book.entries ++ [book.newest item] := by
  simp only [Ledger.enter] at member
  split at member
  · exact List.mem_mergeSort.mp (List.mem_of_mem_take member)
  · exact member

theorem Ledger.Numbered.enter (numbered : book.Numbered) (item : Pending) :
    (book.enter item).Numbered := by
  have whole :
      ((book.entries ++ [book.newest item]).map (·.number)).Nodup := by
    rw [List.map_append, List.nodup_append]
    refine ⟨numbered.nodup, List.nodup_singleton _, ?_⟩
    intro number earlier last isLast same
    obtain ⟨entry, member, rfl⟩ := List.mem_map.mp earlier
    have below := numbered.lt entry member
    rw [same, List.mem_singleton.mp isLast] at below
    exact Nat.lt_irrefl _ below
  constructor
  · intro entry member
    rcases List.mem_append.mp (mem_of_mem_enter member) with earlier | last
    · exact Nat.lt_succ_of_lt (numbered.lt entry earlier)
    · rw [List.mem_singleton.mp last]
      exact Nat.lt_succ_self book.queued
  · simp only [Ledger.enter]
    split
    · have sorted :
          (Entry.leastSentFirst
              (book.entries ++ [book.newest item])).Perm _ :=
        List.mergeSort_perm _ _
      exact ((sorted.map _).nodup_iff.mpr whole).sublist ((List.take_sublist _ _).map _)
    · exact whole

theorem Ledger.Numbered.follow (numbered : book.Numbered) (occurrence : Occurrence) :
    (book.follow occurrence).Numbered := by
  unfold Ledger.follow
  split
  · exact numbered.enter _
  · have fewer := numbers_carry book.entries occurrence.operation
    constructor
    · intro entry member
      have number := fewer.subset (List.mem_map_of_mem member)
      obtain ⟨earlier, queued, same⟩ := List.mem_map.mp number
      rw [← same]
      exact numbered.lt earlier queued
    · exact numbered.nodup.sublist fewer

theorem numbered_ledger (history : List Occurrence) : (ledger history).Numbered := by
  induction history using List.reverseRecOn with
  | nil => exact ⟨fun entry member => absurd member List.not_mem_nil, List.nodup_nil⟩
  | append_singleton earlier last inductionHypothesis =>
      rw [ledger_append_singleton]
      exact inductionHypothesis.follow last

/-! ## What becomes of an entry -/

/-- What may become of an item by an operation that it outlasts. -/
def Operation.Turns (before after : Pending) : Operation → Prop
  | .offer gossip sender =>
      after = before ∨ before.gossip.id = gossip.id ∧ after = before.learn sender
  | .markSent ids peer => after = before.send ids peer
  | _ => after = before

theorem gossip_of_turns (turns : operation.Turns earlier later) :
    later.gossip = earlier.gossip := by
  cases operation with
  | offer gossip sender =>
      rcases turns with rfl | ⟨_, rfl⟩
      · rfl
      · rfl
  | markSent ids peer =>
      rw [turns, Pending.send]
      split <;> rfl
  | _ => exact congrArg Pending.gossip turns

private theorem turns_self_of_entrant (enters : queue.entrant? operation = some item)
    (unchanged : Pending) : operation.Turns unchanged unchanged := by
  rcases entrant_cases enters with ⟨payload, rfl, _⟩ | ⟨gossip, sender, rfl, _⟩
  · rfl
  · exact Or.inl rfl

/-- At most the first entry under an identity learns of an address. -/
theorem replaceF_learn_cases (entries : List Entry) (id : GossipId) (sender : SocketAddress) :
    (entries.replaceF fun entry =>
          if entry.id = id then some (entry.change (·.learn sender)) else none) = entries ∧
        (∀ entry ∈ entries, entry.id ≠ id) ∨
      ∃ front found rest, entries = front ++ found :: rest ∧ found.id = id ∧
        (∀ entry ∈ front, entry.id ≠ id) ∧
          (entries.replaceF fun entry =>
              if entry.id = id then some (entry.change (·.learn sender)) else none) =
            front ++ found.change (·.learn sender) :: rest := by
  induction entries with
  | nil => exact Or.inl ⟨rfl, fun entry member => absurd member List.not_mem_nil⟩
  | cons entry rest inductionHypothesis =>
      -- The first entry under the identity ends the search.
      by_cases named : entry.id = id
      · refine Or.inr ⟨[], entry, rest, rfl, named, by simp, ?_⟩
        exact List.replaceF_cons_of_some _ (if_pos named)
      · have passes :
            (if entry.id = id then some (entry.change (·.learn sender)) else none) = none :=
          if_neg named
        rw [List.replaceF_cons_of_none _ passes]
        rcases inductionHypothesis with ⟨same, none⟩ | ⟨front, found, behind, split, is, before, learned⟩
        · refine Or.inl ⟨by rw [same], ?_⟩
          intro other member
          rcases List.mem_cons.mp member with rfl | later
          · exact named
          · exact none other later
        · refine Or.inr ⟨entry :: front, found, behind, by rw [split]; rfl, is, ?_, by rw [learned]; rfl⟩
          intro other member
          rcases List.mem_cons.mp member with rfl | later
          · exact named
          · exact before other later

private theorem turns_of_mem_carry {entries : List Entry}
    (member : entry ∈ Ledger.carry entries operation) :
    ∃ before ∈ entries, entry.number = before.number ∧
      operation.Turns before.item entry.item := by
  cases operation with
  | enqueue payload => exact ⟨entry, member, rfl, rfl⟩
  | offer gossip sender =>
      rw [Ledger.carry] at member
      rcases replaceF_learn_cases entries gossip.id sender with
        ⟨same, _⟩ | ⟨front, found, rest, split, named, _, learned⟩
      · rw [same] at member
        exact ⟨entry, member, rfl, Or.inl rfl⟩
      · rw [learned] at member
        rw [split]
        rcases List.mem_append.mp member with before | behind
        · exact ⟨entry, List.mem_append_left _ before, rfl, Or.inl rfl⟩
        rcases List.mem_cons.mp behind with rfl | behind
        · exact ⟨found, by simp, rfl, Or.inr ⟨named, rfl⟩⟩
        · exact ⟨entry, by simp [behind], rfl, Or.inl rfl⟩
  | select peer most => exact ⟨entry, member, rfl, rfl⟩
  | markSent ids peer =>
      obtain ⟨before, queued, rfl⟩ := List.mem_map.mp member
      exact ⟨before, queued, rfl, rfl⟩
  | retire limit peers => exact ⟨entry, List.mem_of_mem_filter member, rfl, rfl⟩
  | discard id => exact ⟨entry, List.mem_of_mem_filter member, rfl, rfl⟩

/-- An entry that an operation leaves is the one it has brought in, or was there and
is what it may have turned into. -/
theorem mem_follow (member : entry ∈ (book.follow occurrence).entries) :
    (∃ item, occurrence.before.entrant? occurrence.operation = some item ∧
        entry = book.newest item) ∨
      ∃ before ∈ book.entries, entry.number = before.number ∧
        occurrence.operation.Turns before.item entry.item := by
  cases enters : occurrence.before.entrant? occurrence.operation with
  | some item =>
      rw [follow_of_entrant enters] at member
      rcases List.mem_append.mp (mem_of_mem_enter member) with before | new
      · exact Or.inr ⟨entry, before, rfl, turns_self_of_entrant enters entry.item⟩
      · exact Or.inl ⟨item, rfl, List.mem_singleton.mp new⟩
  | none =>
      rw [follow_of_nothing enters] at member
      exact Or.inr (turns_of_mem_carry member)

end GossipQueue

end Roster
