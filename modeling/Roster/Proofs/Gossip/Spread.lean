import Roster.Proofs.Gossip.Entry
import Roster.Proofs.Gossip.Room

/-!
# Gossip is neither repeated nor lost

An address that an entry came from, that it was sent to, or that offers it again
is known to have it, and the entry is not selected for it from then on.  The
transmits of an entry are the addresses it was sent to.  It goes when its identity
is discarded, when it retires, or when the queue is overfull and nothing that
stays was sent more often.
-/

namespace Roster

namespace GossipQueue

variable {queue after : GossipQueue} {operation : Operation} {item earlier later : Pending}
  {entry : Entry} {book : Ledger} {occurrence last : Occurrence} {origin : ReplicaId}
  {history : List Occurrence} {peer : SocketAddress} {gossip : Gossip}

/-! ## One operation -/

private theorem known_of_turns (turns : operation.Turns earlier later) :
    earlier.known ⊆ later.known := by
  cases operation with
  | offer gossip sender =>
      rcases turns with rfl | ⟨_, rfl⟩
      · exact List.Subset.refl _
      · exact fun address known => List.mem_insert_of_mem known
  | markSent ids peer =>
      rw [turns, Pending.send]
      split
      · exact fun address known => List.mem_insert_of_mem known
      · exact List.Subset.refl _
  | _ =>
      cases turns
      exact List.Subset.refl _

private theorem nodup_of_turns (turns : operation.Turns earlier later)
    (nodup : earlier.known.Nodup) :
    later.known.Nodup := by
  cases operation with
  | offer gossip sender =>
      rcases turns with rfl | ⟨_, rfl⟩
      · exact nodup
      · exact nodup.insert
  | markSent ids peer =>
      rw [turns, Pending.send]
      split
      · exact nodup.insert
      · exact nodup
  | _ =>
      cases turns
      exact nodup

private theorem known_send {ids : List GossipId} (among : item.gossip.id ∈ ids) :
    peer ∈ (item.send ids peer).known := by
  by_cases known : peer ∈ item.known
  · rw [Pending.send, if_neg fun sends => sends.2 known]
    exact known
  · rw [Pending.send, if_pos ⟨among, known⟩]
    exact List.mem_insert_self

/-- Only an address that lacks an item is charged for it. -/
private theorem transmits_of_turns (turns : operation.Turns earlier later) :
    later.transmits = earlier.transmits ∨
      ∃ ids peer, operation = .markSent ids peer ∧ earlier.gossip.id ∈ ids ∧
        peer ∉ earlier.known ∧ peer ∈ later.known ∧
          later.transmits = earlier.transmits + 1 := by
  cases operation with
  | offer gossip sender =>
      rcases turns with rfl | ⟨_, rfl⟩
      · exact Or.inl rfl
      · exact Or.inl rfl
  | markSent ids peer =>
      by_cases sends : earlier.gossip.id ∈ ids ∧ peer ∉ earlier.known
      · have known : peer ∈ (earlier.send ids peer).known := known_send sends.1
        refine Or.inr ⟨ids, peer, rfl, sends.1, sends.2, turns ▸ known, ?_⟩
        rw [turns, Pending.send, if_pos sends]
      · rw [turns, Pending.send, if_neg sends]
        exact Or.inl rfl
  | _ => exact Or.inl (congrArg Pending.transmits turns)

/-- If an item that is offered again is queued only once, its entry learns of the
address. -/
private theorem known_of_alone (numbered : book.Numbered)
    (offered : occurrence.operation = .offer gossip peer)
    (stale : gossip.id ∈ occurrence.before.recent) (named : entry.id = gossip.id)
    (alone : ∀ other ∈ book.entries, other.id = gossip.id → other.number = entry.number)
    (member : entry ∈ (book.follow occurrence).entries) : peer ∈ entry.item.known := by
  have nothing : occurrence.before.entrant? occurrence.operation = none := by
    rw [offered, entrant?_offer_eq_none_iff]
    exact stale
  rw [follow_of_nothing nothing, offered] at member
  simp only [Ledger.carry] at member
  rcases replaceF_learn_cases book.entries gossip.id peer with
    ⟨same, none⟩ | ⟨front, found, rest, split, first, before, learned⟩
  · rw [same] at member
    exact absurd named (none entry member)
  rw [learned] at member
  rcases List.mem_append.mp member with earlier | behind
  · exact absurd named (before entry earlier)
  rcases List.mem_cons.mp behind with rfl | behind
  · exact List.mem_insert_self
  -- Another entry under the identity would stand behind the one that learns.
  · have same : found.number = entry.number := alone found (by rw [split]; simp) first
    have apart := numbered.nodup
    rw [split, List.map_append, List.map_cons, List.nodup_append, List.nodup_cons] at apart
    exact absurd (same ▸ List.mem_map_of_mem behind) apart.2.1.1

/-! ## What has happened to an entry -/

def Happened (event : List Occurrence → Occurrence → Prop) (history : List Occurrence) : Prop :=
  ∃ earlier occurrence later, history = earlier ++ occurrence :: later ∧ event earlier occurrence

theorem Happened.append {event : List Occurrence → Occurrence → Prop}
    (happened : Happened event history) (last : Occurrence) :
    Happened event (history ++ [last]) := by
  obtain ⟨earlier, occurrence, later, rfl, is⟩ := happened
  exact ⟨earlier, occurrence, later ++ [last], by simp, is⟩

private theorem happened_append_singleton_iff {event : List Occurrence → Occurrence → Prop} :
    Happened event (history ++ [last]) ↔ Happened event history ∨ event history last := by
  constructor
  · rintro ⟨earlier, occurrence, later, split, is⟩
    rcases List.eq_nil_or_concat' later with rfl | ⟨front, other, rfl⟩
    · obtain ⟨same, ends⟩ := List.append_inj' split rfl
      cases ends
      exact Or.inr (same ▸ is)
    · rw [← List.cons_append, ← List.append_assoc] at split
      obtain ⟨same, _⟩ := List.append_inj' split rfl
      exact Or.inl ⟨earlier, occurrence, front, same, is⟩
  · rintro (happened | is)
    · exact happened.append last
    · exact ⟨history, last, [], rfl, is⟩

/-- While an entry is queued, items with its identity go out to an address. -/
def SendsTo (entry : Entry) (peer : SocketAddress) (earlier : List Occurrence)
    (occurrence : Occurrence) : Prop :=
  (ledger earlier).Holds entry ∧
    ∃ ids, occurrence.operation = .markSent ids peer ∧ entry.id ∈ ids

/-- An address has an entry's item: the entry was accepted from it, or was sent to
it, or it offers the item again while no other entry has the identity. -/
inductive Tells (entry : Entry) (peer : SocketAddress) (earlier : List Occurrence)
    (occurrence : Occurrence) : Prop where
  | accepted {gossip : Gossip} (offers : occurrence.operation = .offer gossip peer)
      (fresh : (occurrence.before.offer gossip peer).1 = true)
      (first : entry.number = (ledger earlier).queued)
  | sent (sends : SendsTo entry peer earlier occurrence)
  | repeated {gossip : Gossip} (offers : occurrence.operation = .offer gossip peer)
      (stale : (occurrence.before.offer gossip peer).1 = false)
      (holds : (ledger earlier).Holds entry) (named : entry.id = gossip.id)
      (alone : ∀ other ∈ (ledger earlier).entries,
        other.id = gossip.id → other.number = entry.number)

theorem SendsTo.of_same {before : Entry} {earlier : List Occurrence}
    (sends : SendsTo before peer earlier occurrence) (number : entry.number = before.number)
    (id : entry.id = before.id) : SendsTo entry peer earlier occurrence := by
  obtain ⟨⟨held, queued, same⟩, ids, goes, among⟩ := sends
  exact ⟨⟨held, queued, same.trans number.symm⟩, ids, goes, id ▸ among⟩

theorem Tells.of_same {before : Entry} {earlier : List Occurrence}
    (tells : Tells before peer earlier occurrence) (number : entry.number = before.number)
    (id : entry.id = before.id) : Tells entry peer earlier occurrence := by
  cases tells with
  | accepted offers fresh first => exact .accepted offers fresh (number.trans first)
  | sent sends => exact .sent (sends.of_same number id)
  | repeated offers stale holds named alone =>
      obtain ⟨held, queued, same⟩ := holds
      refine .repeated offers stale ⟨held, queued, same.trans number.symm⟩ (id.trans named) ?_
      intro other member is
      exact (alone other member is).trans number.symm

private theorem queued_follow (book : Ledger) (occurrence : Occurrence) :
    book.queued ≤ (book.follow occurrence).queued := by
  unfold Ledger.follow
  split
  · exact Nat.le_succ book.queued
  · exact Nat.le_refl book.queued

private theorem queued_ledger_append (earlier later : List Occurrence) :
    (ledger earlier).queued ≤ (ledger (earlier ++ later)).queued := by
  induction later using List.reverseRecOn with
  | nil => exact Nat.le_of_eq (by rw [List.append_nil])
  | append_singleton front last inductionHypothesis =>
      rw [← List.append_assoc, ledger_append_singleton]
      exact Nat.le_trans inductionHypothesis (queued_follow _ last)

private theorem Ledger.Holds.number_lt {earlier : List Occurrence}
    (holds : (ledger earlier).Holds entry) : entry.number < (ledger earlier).queued := by
  obtain ⟨held, queued, same⟩ := holds
  rw [← same]
  exact (numbered_ledger earlier).lt held queued

/-- What is told of an entry is told of one that has been queued. -/
private theorem number_lt_of_tells {earlier : List Occurrence}
    (tells : Tells entry peer earlier occurrence) (later : List Occurrence) :
    entry.number < (ledger (earlier ++ occurrence :: later)).queued := by
  have grown := queued_ledger_append earlier (occurrence :: later)
  cases tells with
  | @accepted gossip offers fresh first =>
      have enters :
          occurrence.before.entrant? occurrence.operation = some { gossip, known := [peer] } := by
        rw [offers, entrant?, if_neg (fresh_iff.mp fresh)]
      have admitted : (ledger (earlier ++ [occurrence])).queued = (ledger earlier).queued + 1 := by
        rw [ledger_append_singleton, follow_of_entrant enters]
        rfl
      have after := queued_ledger_append (earlier ++ [occurrence]) later
      rw [List.append_assoc, List.singleton_append] at after
      omega
  | sent sends =>
      have below := sends.1.number_lt
      omega
  | repeated offers stale holds named alone =>
      have below := holds.number_lt
      omega

/-- The account of an entry: who is known to have it, and whom it was sent to. -/
structure Accounted (history : List Occurrence) (entry : Entry) : Prop where
  nodup : entry.item.known.Nodup
  told : ∀ peer, Happened (Tells entry peer) history → peer ∈ entry.item.known
  charged : ∃ recipients : List SocketAddress,
    recipients.Nodup ∧ recipients ⊆ entry.item.known ∧
      (∀ peer ∈ recipients, Happened (SendsTo entry peer) history) ∧
        entry.item.transmits = recipients.length

private theorem accounted_newest (history : List Occurrence) (occurrence : Occurrence)
    (enters : occurrence.before.entrant? occurrence.operation = some item) :
    Accounted (history ++ [occurrence]) ((ledger history).newest item) := by
  -- Nothing can have been told of a number that was not given yet.
  have untold : ∀ peer, ¬ Happened (Tells ((ledger history).newest item) peer) history := by
    rintro peer ⟨earlier, told, later, rfl, tells⟩
    exact Nat.lt_irrefl _ (number_lt_of_tells tells later)
  have unheld : ¬ (ledger history).Holds ((ledger history).newest item) :=
    fun holds => Nat.lt_irrefl _ holds.number_lt
  have now : ∀ peer, Happened (Tells ((ledger history).newest item) peer) (history ++ [occurrence]) →
      ∃ gossip, occurrence.operation = .offer gossip peer := by
    intro peer happened
    cases (happened_append_singleton_iff.mp happened).resolve_left (untold peer) with
    | accepted offers _ _ => exact ⟨_, offers⟩
    | sent sends => exact absurd sends.1 unheld
    | repeated _ _ holds _ _ => exact absurd holds unheld
  rcases entrant_cases enters with ⟨payload, operates, rfl⟩ | ⟨gossip, sender, operates, _, rfl⟩
  · refine ⟨List.nodup_nil, fun peer happened => ?_, [], by simp [Ledger.newest]⟩
    obtain ⟨gossip, offers⟩ := now peer happened
    rw [operates] at offers
    cases offers
  · refine ⟨List.nodup_singleton sender, fun peer happened => ?_, [], by simp [Ledger.newest]⟩
    obtain ⟨other, offers⟩ := now peer happened
    rw [operates] at offers
    cases offers
    exact List.mem_singleton_self sender

theorem Accounted.follow {before : Entry} (accounted : Accounted history before)
    (queued : before ∈ (ledger history).entries) (number : entry.number = before.number)
    (turns : last.operation.Turns before.item entry.item)
    (member : entry ∈ ((ledger history).follow last).entries) :
    Accounted (history ++ [last]) entry := by
  have numbered := numbered_ledger history
  have id : entry.id = before.id := congrArg Gossip.id (gossip_of_turns turns)
  have known := known_of_turns turns
  constructor
  · exact nodup_of_turns turns accounted.nodup
  · intro peer happened
    rcases happened_append_singleton_iff.mp happened with earlier | now
    · obtain ⟨front, told, rest, split, tells⟩ := earlier
      exact known (accounted.told peer ⟨front, told, rest, split, tells.of_same number.symm id.symm⟩)
    cases now with
    | accepted offers fresh first =>
        have below := numbered.lt before queued
        omega
    | sent sends =>
        obtain ⟨_, ids, goes, among⟩ := sends
        rw [goes] at turns
        rw [id] at among
        rw [turns]
        exact known_send among
    | repeated offers stale holds named alone =>
        have seen := mt fresh_iff.mpr (Bool.eq_false_iff.mp stale)
        exact known_of_alone numbered offers (not_not.mp seen) named alone member
  · obtain ⟨recipients, nodup, among, sent, count⟩ := accounted.charged
    have sentStill : ∀ peer ∈ recipients, Happened (SendsTo entry peer) (history ++ [last]) := by
      intro peer recipient
      obtain ⟨front, told, rest, split, sends⟩ := sent peer recipient
      exact Happened.append ⟨front, told, rest, split, sends.of_same number id⟩ last
    rcases transmits_of_turns turns with same | ⟨ids, peer, goes, named, lacks, has, more⟩
    · exact ⟨recipients, nodup, List.Subset.trans among known, sentStill, same.trans count⟩
    have sends : SendsTo entry peer history last :=
      ⟨⟨before, queued, number.symm⟩, ids, goes, id ▸ named⟩
    refine ⟨peer :: recipients, List.nodup_cons.mpr ⟨fun old => lacks (among old), nodup⟩, ?_, ?_, ?_⟩
    · exact List.cons_subset.mpr ⟨has, List.Subset.trans among known⟩
    · intro address recipient
      rcases List.mem_cons.mp recipient with rfl | old
      · exact happened_append_singleton_iff.mpr (Or.inr sends)
      · exact sentStill address old
    · rw [more, count, List.length_cons]

private theorem accounted_ledger (history : List Occurrence) :
    ∀ entry ∈ (ledger history).entries, Accounted history entry := by
  induction history using List.reverseRecOn with
  | nil => exact fun entry member => absurd member List.not_mem_nil
  | append_singleton earlier last inductionHypothesis =>
      intro entry member
      rw [ledger_append_singleton] at member
      rcases mem_follow member with ⟨item, enters, rfl⟩ | ⟨before, queued, number, turns⟩
      · exact accounted_newest earlier last enters
      · exact (inductionHypothesis before queued).follow queued number turns member

/-! ## Leaving the queue -/

/-- How an entry is lost by an operation. -/
inductive Loses (book : Ledger) (occurrence : Occurrence) (entry : Entry) : Prop where
  | discarded (discards : occurrence.operation = .discard entry.id)
  | spent {limit peers : Nat} (retires : occurrence.operation = .retire limit peers)
      (enough : max limit 1 ≤ entry.item.transmits)
  | known {limit peers : Nat} (retires : occurrence.operation = .retire limit peers)
      (some : 0 < peers) (all : peers ≤ entry.item.known.length)
  | overflow {item : Pending}
      (enters : occurrence.before.entrant? occurrence.operation = some item)
      (full : capacity ≤ book.entries.length)
      (most : ∀ kept ∈ (book.follow occurrence).entries,
        kept.item.transmits ≤ entry.item.transmits)

/-- What a list that is put in order loses at its end is not below what it keeps. -/
private theorem transmits_le_of_dropped {entries : List Entry} {kept lost : Entry} {count : Nat}
    (stays : kept ∈ (Entry.leastSentFirst entries).take count) (among : lost ∈ entries)
    (goes : lost ∉ (Entry.leastSentFirst entries).take count) :
    kept.item.transmits ≤ lost.item.transmits := by
  have ordered := pairwise_leastSentFirst (entries.map (·.item))
  rw [← map_item_leastSentFirst, List.pairwise_map,
    ← List.take_append_drop count (Entry.leastSentFirst entries)] at ordered
  have behind : lost ∈ (Entry.leastSentFirst entries).drop count := by
    have whole : lost ∈ Entry.leastSentFirst entries := List.mem_mergeSort.mpr among
    rw [← List.take_append_drop count (Entry.leastSentFirst entries)] at whole
    exact (List.mem_append.mp whole).resolve_left goes
  exact (List.pairwise_append.mp ordered).2.2 kept stays lost behind

private theorem loses_of_retire {limit peers : Nat}
    (retires : occurrence.operation = .retire limit peers)
    (queued : entry ∈ book.entries)
    (gone : entry ∉ Ledger.carry book.entries (.retire limit peers)) :
    Loses book occurrence entry := by
  have unkept :
      ¬ (entry.item.transmits < max limit 1 ∧ (peers = 0 ∨ entry.item.known.length < peers)) := by
    rintro ⟨early, few⟩
    apply gone
    refine List.mem_filter.mpr ⟨queued, ?_⟩
    rw [Bool.and_eq_true, Bool.or_eq_true, beq_iff_eq, decide_eq_true_eq, decide_eq_true_eq]
    exact ⟨early, few⟩
  by_cases early : entry.item.transmits < max limit 1
  · exact .known retires (by omega) (by omega)
  · exact .spent retires (by omega)

private theorem loses_of_carry (nothing : occurrence.before.entrant? occurrence.operation = none)
    (queued : entry ∈ book.entries)
    (gone : ∀ kept ∈ (book.follow occurrence).entries, kept.number ≠ entry.number) :
    Loses book occurrence entry := by
  have unlisted :
      entry.number ∉ (Ledger.carry book.entries occurrence.operation).map (·.number) := by
    rw [follow_of_nothing nothing] at gone
    intro listed
    obtain ⟨kept, member, same⟩ := List.mem_map.mp listed
    exact gone kept member same
  have listed : entry.number ∈ book.entries.map (·.number) := List.mem_map_of_mem queued
  -- All but the last two operations leave every number where it is.
  cases operates : occurrence.operation with
  | enqueue payload =>
      rw [operates] at unlisted
      exact absurd listed unlisted
  | offer gossip sender =>
      rw [operates, Ledger.carry, map_number_replaceF] at unlisted
      exact absurd listed unlisted
  | select peer most =>
      rw [operates] at unlisted
      exact absurd listed unlisted
  | markSent ids peer =>
      rw [operates, Ledger.carry, List.map_map] at unlisted
      exact absurd listed unlisted
  | retire limit peers =>
      rw [operates] at unlisted
      exact loses_of_retire operates queued fun kept => unlisted (List.mem_map_of_mem kept)
  | discard id =>
      rw [operates] at unlisted
      by_cases named : entry.id = id
      · exact .discarded (named ▸ operates)
      · refine absurd (List.mem_map_of_mem ?_) unlisted
        exact List.mem_filter.mpr ⟨queued, decide_eq_true named⟩

private theorem loses_of_enter
    (enters : occurrence.before.entrant? occurrence.operation = some item)
    (offered : entry ∈ book.entries ++ [book.newest item])
    (gone : entry ∉ (book.enter item).entries) : Loses book occurrence entry := by
  have count : (book.entries ++ [book.newest item]).length = book.entries.length + 1 :=
    List.length_append
  by_cases overfull : capacity < (book.entries ++ [book.newest item]).length
  · have cut :
        (book.enter item).entries =
          (Entry.leastSentFirst (book.entries ++ [book.newest item])).take capacity :=
      if_pos overfull
    rw [cut] at gone
    refine .overflow enters (by omega) fun kept stays => ?_
    rw [follow_of_entrant enters, cut] at stays
    exact transmits_le_of_dropped stays offered gone
  · have whole : (book.enter item).entries = book.entries ++ [book.newest item] :=
      if_neg overfull
    rw [whole] at gone
    exact absurd offered gone

/-- An entry that was queued, or was brought in, and is not there after an operation
was lost in one of these ways. -/
private theorem loses_of_gone
    (present : entry ∈ book.entries ∨
      ∃ item, occurrence.before.entrant? occurrence.operation = some item ∧
        entry = book.newest item)
    (gone : ∀ kept ∈ (book.follow occurrence).entries, kept.number ≠ entry.number) :
    Loses book occurrence entry := by
  cases enters : occurrence.before.entrant? occurrence.operation with
  | none =>
      rcases present with queued | ⟨item, brought, _⟩
      · exact loses_of_carry enters queued gone
      · rw [enters] at brought
        cases brought
  | some item =>
      have missing : entry ∉ (book.enter item).entries := by
        rw [← follow_of_entrant enters]
        exact fun member => gone entry member rfl
      refine loses_of_enter enters ?_ missing
      rcases present with queued | ⟨_, brought, rfl⟩
      · exact List.mem_append_left _ queued
      · rw [enters] at brought
        cases brought
        exact List.mem_append_right _ (List.mem_singleton_self _)

private theorem not_mem_selected (known : peer ∈ entry.item.known) (most : Nat) :
    entry ∉ book.selected peer most := by
  intro selected
  have lacking := List.mem_mergeSort.mp (List.mem_of_mem_take selected)
  exact of_decide_eq_true (List.mem_filter.mp lacking).2 known

/-- In every run, an entry is not selected for an address from which it was accepted,
to which it was sent, or which has offered it again.  It is charged at most once for
each address it was sent to.  It is lost only when its identity is discarded, when it
retires, or when the queue is overfull and nothing that stays was sent more often. -/
theorem neither_repeated_nor_lost (run : Runs origin history queue) :
    (ledger history).entries.map (·.item) = queue.pending ∧
      ((ledger history).entries.map (·.number)).Nodup ∧
      (∀ peer most,
        ((ledger history).selected peer most).map (·.item.gossip) = queue.select peer most) ∧
      (∀ entry ∈ (ledger history).entries,
        (∀ peer, Happened (Tells entry peer) history →
          ∀ most, entry ∉ (ledger history).selected peer most) ∧
        ∃ recipients : List SocketAddress,
          recipients.Nodup ∧ (∀ peer ∈ recipients, Happened (SendsTo entry peer) history) ∧
            entry.item.transmits ≤ recipients.length) ∧
      ∀ operation after, queue.operate operation = .ok after →
        ∀ entry,
          (entry ∈ (ledger history).entries ∨
            ∃ item, queue.entrant? operation = some item ∧
              entry = (ledger history).newest item) →
          (∀ kept ∈ (ledger (history ++ [⟨queue, operation, after⟩])).entries,
            kept.number ≠ entry.number) →
          entry.item.known.Nodup ∧ Loses (ledger history) ⟨queue, operation, after⟩ entry := by
  have same := run.map_item_ledger
  refine ⟨same, (numbered_ledger history).nodup, map_gossip_selected same, ?_, ?_⟩
  · intro entry queued
    have accounted := accounted_ledger history entry queued
    obtain ⟨recipients, nodup, _, sent, count⟩ := accounted.charged
    refine ⟨fun peer happened => not_mem_selected (accounted.told peer happened), ?_⟩
    exact ⟨recipients, nodup, sent, Nat.le_of_eq count⟩
  · intro operation after operated entry present gone
    rw [ledger_append_singleton] at gone
    refine ⟨?_, loses_of_gone present gone⟩
    rcases present with queued | ⟨item, enters, rfl⟩
    · exact (accounted_ledger history entry queued).nodup
    · exact (accounted_newest history ⟨queue, operation, after⟩ enters).nodup

def neighbor : SocketAddress :=
  ⟨.v4 0x7f000001, 8003, 0⟩

/-- A rumor is accepted from one host, is sent to another, and a third one offers
it again. -/
def echo : List Occurrence :=
  let new : GossipQueue := { origin := ⟨1⟩ }
  let told := (new.offer (rumor 1) stranger).2
  let sent := told.markSent [(rumor 1).id] listener
  [⟨new, .offer (rumor 1) stranger, told⟩,
    ⟨told, .markSent [(rumor 1).id] listener, sent⟩,
    ⟨sent, .offer (rumor 1) neighbor, (sent.offer (rumor 1) neighbor).2⟩]

def echoed : Entry where
  number := 0
  item :=
    { gossip := rumor 1
      transmits := 1
      known := [neighbor, listener, stranger] }

theorem ledger_echo : (ledger echo).entries = [echoed] := by
  decide +kernel

theorem neither_repeated_nor_lost_echo :
    ∃ queue,
      Runs ⟨1⟩ echo queue ∧ queue.pending = [echoed.item] ∧
        (∀ peer ∈ [stranger, listener, neighbor], ∀ most,
          echoed ∉ (ledger echo).selected peer most) ∧
        Loses (ledger echo) ⟨queue, .retire 1 9, queue.retire 1 9⟩ echoed := by
  have run : Runs ⟨1⟩ echo _ :=
    Runs.operate (.operate (.operate .start rfl) rfl) rfl
  obtain ⟨same, _, _, accounts, losses⟩ := neither_repeated_nor_lost run
  rw [ledger_echo] at same
  have queued : echoed ∈ (ledger echo).entries := by
    rw [ledger_echo]
    exact List.mem_singleton_self echoed
  refine ⟨_, run, same.symm, ?_, ?_⟩
  · have silent := (accounts echoed queued).1
    have holds : Ledger.Holds (ledger (echo.take 1)) echoed ∧
        Ledger.Holds (ledger (echo.take 2)) echoed := by
      constructor
      · exact ⟨⟨0, { gossip := rumor 1, known := [stranger] }⟩, by decide +kernel, rfl⟩
      · exact
          ⟨⟨0, { gossip := rumor 1, transmits := 1, known := [listener, stranger] }⟩,
            by decide +kernel, rfl⟩
    intro peer among
    apply silent
    rcases List.mem_cons.mp among with rfl | among
    · exact ⟨[], _, _, rfl, .accepted rfl (by decide +kernel) rfl⟩
    rcases List.mem_cons.mp among with rfl | among
    · exact ⟨echo.take 1, _, _, rfl, .sent ⟨holds.1, _, rfl, List.mem_singleton_self _⟩⟩
    · rw [List.mem_singleton.mp among]
      refine ⟨echo.take 2, _, _, rfl, .repeated rfl (by decide +kernel) holds.2 rfl ?_⟩
      decide +kernel
  · apply (losses (.retire 1 9) _ rfl echoed (Or.inl queued) _).2
    decide +kernel

end GossipQueue

end Roster
