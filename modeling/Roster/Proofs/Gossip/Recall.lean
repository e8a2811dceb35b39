import Roster.Proofs.Gossip.Spread

/-!
# What the queue remembers

The identities that the queue remembers are those of the last items that it took
in.  So an item is only taken in again once as many others have followed it as the
queue can remember, and two entries under one identity have at least so many
between them.  While no more items have been taken in since the oldest entry, every
identity is queued once.

Nothing else keeps identities apart: an item may stay queued for longer than it is
remembered.
-/

namespace Roster

namespace GossipQueue

variable {queue after : GossipQueue} {operation : Operation} {item : Pending}
  {entry : Entry} {book : Ledger} {occurrence last : Occurrence} {origin : ReplicaId}
  {history : List Occurrence} {id : GossipId} {identities : List GossipId}

/-! ## Arrivals -/

def Occurrence.arrival? (occurrence : Occurrence) : Option GossipId :=
  (occurrence.before.entrant? occurrence.operation).map (·.gossip.id)

def arrivals (history : List Occurrence) : List GossipId :=
  history.filterMap Occurrence.arrival?

theorem arrivals_append_singleton (history : List Occurrence) (last : Occurrence) :
    arrivals (history ++ [last]) = arrivals history ++ last.arrival?.toList := by
  rw [arrivals, List.filterMap_append]
  cases arrives : last.arrival? with
  | none => simp [arrivals, arrives]
  | some id => simp [arrivals, arrives]

/-- Entries are numbered by their places among the arrivals. -/
structure Ledger.Registers (ledger : Ledger) (identities : List GossipId) : Prop where
  queued_eq : ledger.queued = identities.length
  at_number : ∀ entry ∈ ledger.entries, identities[entry.number]? = some entry.id

theorem Ledger.Registers.follow (registers : book.Registers identities)
    (occurrence : Occurrence) :
    (book.follow occurrence).Registers (identities ++ occurrence.arrival?.toList) := by
  have kept :
      ∀ before ∈ book.entries,
        (identities ++ occurrence.arrival?.toList)[before.number]? = some before.id := by
    intro before queued
    have found := registers.at_number before queued
    have short := (List.getElem?_eq_some_iff.mp found).1
    rw [List.getElem?_append_left short]
    exact found
  constructor
  · cases enters : occurrence.before.entrant? occurrence.operation with
    | some item =>
        rw [follow_of_entrant enters, Occurrence.arrival?, enters, List.length_append,
          ← registers.queued_eq]
        rfl
    | none =>
        rw [follow_of_nothing enters, Occurrence.arrival?, enters, List.length_append,
          ← registers.queued_eq]
        rfl
  · intro entry member
    rcases mem_follow member with ⟨item, enters, rfl⟩ | ⟨before, queued, number, turns⟩
    · rw [Occurrence.arrival?, enters]
      change (identities ++ [item.gossip.id])[book.queued]? = some item.gossip.id
      rw [registers.queued_eq, List.getElem?_concat_length]
    · have id : entry.id = before.id := congrArg Gossip.id (gossip_of_turns turns)
      rw [number, id]
      exact kept before queued

private theorem registers_ledger (history : List Occurrence) :
    (ledger history).Registers (arrivals history) := by
  induction history using List.reverseRecOn with
  | nil => exact ⟨rfl, fun entry member => absurd member List.not_mem_nil⟩
  | append_singleton earlier last inductionHypothesis =>
      rw [ledger_append_singleton, arrivals_append_singleton]
      exact inductionHypothesis.follow last

/-! ## Identities that arrive again -/

/-- An identity arrives again only after as many others as are remembered. -/
def Spaced (identities : List GossipId) : Prop :=
  ∀ first second id, first < second → identities[first]? = some id →
    identities[second]? = some id → first + memory < second

theorem Spaced.append (spaced : Spaced identities)
    (forgotten : id ∉ identities.reverse.take memory) : Spaced (identities ++ [id]) := by
  intro first second same before atFirst atSecond
  have bound := (List.getElem?_eq_some_iff.mp atSecond).1
  rw [List.length_append, List.length_singleton] at bound
  rw [List.getElem?_append_left (by omega)] at atFirst
  rcases Nat.lt_or_eq_of_le (Nat.le_of_lt_succ bound) with inside | atEnd
  · rw [List.getElem?_append_left inside] at atSecond
    exact spaced first second same before atFirst atSecond
  rw [atEnd, List.getElem?_concat_length] at atSecond
  cases atSecond
  by_contra near
  -- The earlier place would be among the last that are remembered.
  apply forgotten
  rw [List.take_reverse, List.mem_reverse]
  have place : identities.length - memory + (first - (identities.length - memory)) = first := by
    omega
  have found : (identities.drop (identities.length - memory))[first - (identities.length - memory)]? =
      some id := by
    rw [List.getElem?_drop, place]
    exact atFirst
  exact List.mem_of_getElem? found

/-- Whoever offers an item in the name of the host uses no number that the host has
yet to give. -/
def Occurrence.Sincere (occurrence : Occurrence) : Prop :=
  ∀ gossip sender, occurrence.operation = .offer gossip sender →
    gossip.id.origin = occurrence.before.origin →
      gossip.id.sequence < occurrence.before.next

/-- The queue remembers the last arrivals, and numbers its own items beyond all that
have arrived in its name. -/
structure Recalls (queue : GossipQueue) (identities : List GossipId) : Prop where
  recent_eq : queue.recent = identities.reverse.take memory
  issued : ∀ id ∈ identities, id.origin = queue.origin → id.sequence < queue.next

private theorem Recalls.not_mem_recent (recalls : queue.Recalls identities)
    (enters : queue.entrant? operation = some item) : item.gossip.id ∉ queue.recent := by
  rcases entrant_cases enters with ⟨payload, _, rfl⟩ | ⟨gossip, sender, _, new, rfl⟩
  · intro remembered
    rw [recalls.recent_eq] at remembered
    have arrived := List.mem_reverse.mp (List.mem_of_mem_take remembered)
    exact UInt64.lt_irrefl _ (recalls.issued _ arrived rfl)
  · exact new

/-- A number that was given, or may be used by others, is not given again. -/
private theorem sequence_lt_of_entrant (enters : queue.entrant? operation = some item)
    (operated : queue.operate operation = .ok after)
    (sincere : Occurrence.Sincere ⟨queue, operation, after⟩)
    (own : item.gossip.id.origin = queue.origin) : item.gossip.id.sequence < after.next := by
  have later := (takesIn_of_entrant enters operated).next_le
  rcases entrant_cases enters with ⟨payload, rfl, rfl⟩ | ⟨gossip, sender, rfl, _, rfl⟩
  · obtain ⟨⟨id, result⟩, queued, same⟩ := Attempt.map_eq_ok operated
    cases same
    exact next_lt_of_enqueue queued
  · exact UInt64.lt_of_lt_of_le (sincere gossip sender rfl own) later

private theorem Recalls.of_rests (recalls : queue.Recalls identities) (rests : queue.Rests after) :
    after.Recalls identities := by
  constructor
  · rw [rests.recent_eq]
    exact recalls.recent_eq
  · rw [rests.origin_eq, rests.next_eq]
    exact recalls.issued

private theorem Recalls.of_entrant (recalls : queue.Recalls identities)
    (enters : queue.entrant? operation = some item)
    (operated : queue.operate operation = .ok after)
    (sincere : Occurrence.Sincere ⟨queue, operation, after⟩) :
    after.Recalls (identities ++ [item.gossip.id]) := by
  have takesIn := takesIn_of_entrant enters operated
  constructor
  · rw [takesIn.recent_eq, recent_remember, if_neg (recalls.not_mem_recent enters),
      recalls.recent_eq, List.reverse_append]
    exact take_append_take memory [item.gossip.id] identities.reverse
  · intro id arrived own
    rw [takesIn.origin_eq] at own
    rcases List.mem_append.mp arrived with earlier | new
    · exact UInt64.lt_of_lt_of_le (recalls.issued id earlier own) takesIn.next_le
    · rw [List.mem_singleton.mp new] at own ⊢
      exact sequence_lt_of_entrant enters operated sincere own

/-- A run in which nobody else uses the numbers that the queue has yet to give. -/
theorem Runs.recalls (run : Runs origin history queue)
    (sincere : ∀ occurrence ∈ history, occurrence.Sincere) :
    queue.Recalls (arrivals history) ∧ Spaced (arrivals history) := by
  induction run with
  | start =>
      refine ⟨⟨rfl, fun id arrived => absurd arrived List.not_mem_nil⟩, ?_⟩
      intro first second id _ atFirst
      cases atFirst
  | @operate history before after operation _ operated inductionHypothesis =>
      have sincereLast : Occurrence.Sincere ⟨before, operation, after⟩ :=
        sincere _ (List.mem_append_right history (List.mem_singleton_self _))
      obtain ⟨recalls, spaced⟩ :=
        inductionHypothesis fun occurrence member =>
          sincere occurrence (List.mem_append_left _ member)
      rw [arrivals_append_singleton]
      cases enters : before.entrant? operation with
      | none =>
          rw [Occurrence.arrival?, enters, Option.map_none, Option.toList_none, List.append_nil]
          exact ⟨recalls.of_rests (rests_of_nothing enters operated), spaced⟩
      | some item =>
          rw [Occurrence.arrival?, enters, Option.map_some, Option.toList_some]
          -- What is brought in is none of the last arrivals.
          have forgotten := recalls.not_mem_recent enters
          rw [recalls.recent_eq] at forgotten
          exact ⟨recalls.of_entrant enters operated sincereLast, spaced.append forgotten⟩

/-! ## Entries under one identity -/

private theorem Ledger.Registers.far_apart {left right : Entry}
    (registers : book.Registers identities)
    (spaced : Spaced identities) (leftQueued : left ∈ book.entries)
    (rightQueued : right ∈ book.entries) (same : left.id = right.id)
    (before : left.number < right.number) : left.number + memory < right.number := by
  have atLeft := registers.at_number left leftQueued
  rw [same] at atLeft
  exact spaced left.number right.number right.id before atLeft
    (registers.at_number right rightQueued)

/-- As long as no more has been taken in since any entry than is remembered, every
identity is queued once. -/
private theorem Ledger.Registers.nodup_ids (registers : book.Registers identities)
    (numbered : book.Numbered) (spaced : Spaced identities)
    (young : ∀ entry ∈ book.entries, book.queued ≤ entry.number + 1 + memory) :
    (book.entries.map Entry.id).Nodup := by
  have apart : ∀ left ∈ book.entries, ∀ right ∈ book.entries,
      left.id = right.id → ¬ left.number < right.number := by
    intro left leftQueued right rightQueued same before
    have far := registers.far_apart spaced leftQueued rightQueued same before
    have below := numbered.lt right rightQueued
    have near := young left leftQueued
    omega
  apply List.Nodup.map_on _ (List.Nodup.of_map _ numbered.nodup)
  intro left leftQueued right rightQueued same
  apply List.inj_on_of_nodup_map numbered.nodup leftQueued rightQueued
  exact Nat.le_antisymm (Nat.le_of_not_lt (apart right rightQueued left leftQueued same.symm))
    (Nat.le_of_not_lt (apart left leftQueued right rightQueued same))

private theorem nodup_select (nodup : (queue.pending.map (·.gossip.id)).Nodup)
    (peer : SocketAddress)
    (most : Nat) : ((queue.select peer most).map (·.id)).Nodup := by
  have lacking :
      ((queue.pending.filter fun item => peer ∉ item.known).map (·.gossip.id)).Nodup :=
    nodup.sublist (List.filter_sublist.map _)
  have ordered := ((perm_leastSentFirst _).map (·.gossip.id)).nodup_iff.mpr lacking
  rw [select, List.map_map]
  exact ordered.sublist ((List.take_sublist most _).map _)

/-- In every run in which nobody else uses the numbers that the queue has yet to
give, more than 4096 items were taken in from an entry to the next one under its
identity.  As long as no entry has seen so many follow, no identity is queued twice
or selected twice. -/
theorem same_identity_far_apart (run : Runs origin history queue)
    (sincere : ∀ occurrence ∈ history, occurrence.Sincere) :
    (ledger history).entries.map (·.item) = queue.pending ∧
      (∀ left ∈ (ledger history).entries, ∀ right ∈ (ledger history).entries,
        left.id = right.id → left.number < right.number →
          left.number + 4096 < right.number) ∧
      ((∀ entry ∈ (ledger history).entries,
          (ledger history).queued ≤ entry.number + 1 + 4096) →
        (queue.pending.map (·.gossip.id)).Nodup ∧
          ∀ peer most, ((queue.select peer most).map (·.id)).Nodup) := by
  have same := run.map_item_ledger
  have registers := registers_ledger history
  have spaced := (run.recalls sincere).2
  refine ⟨same, fun left leftQueued right rightQueued => ?_, fun young => ?_⟩
  · exact registers.far_apart spaced leftQueued rightQueued
  · have nodup := registers.nodup_ids (numbered_ledger history) spaced young
    have ids : (ledger history).entries.map Entry.id = queue.pending.map (·.gossip.id) := by
      rw [← same, List.map_map]
      rfl
    rw [ids] at nodup
    exact ⟨nodup, nodup_select nodup⟩

/-! ## An item that outlasts the memory -/

private theorem Runs.origin_before (run : Runs origin history queue) :
    ∀ occurrence ∈ history, occurrence.before.origin = origin := by
  induction run with
  | start => exact fun occurrence member => absurd member List.not_mem_nil
  | operate run _ inductionHypothesis =>
      intro occurrence member
      rcases List.mem_append.mp member with earlier | last
      · exact inductionHypothesis occurrence earlier
      · rw [List.mem_singleton.mp last]
        exact run.origin_eq

/-- Whoever offers only items of other hosts uses no number of this one. -/
theorem Runs.sincere (run : Runs origin history queue)
    (foreign : ∀ gossip sender, .offer gossip sender ∈ history.map (·.operation) →
      gossip.id.origin ≠ origin) : ∀ occurrence ∈ history, occurrence.Sincere := by
  intro occurrence member gossip sender offers own
  have offered := List.mem_map_of_mem (f := (·.operation)) member
  rw [offers] at offered
  exact absurd (own.trans (run.origin_before occurrence member)) (foreign gossip sender offered)

def visitor : Gossip where
  id := { origin := ⟨98⟩, sequence := 1 }
  payload := .alive ⟨"127.0.0.1", 7000, 1⟩

/-- A new queue after that item and as many others as can be remembered. -/
def flooded : GossipQueue :=
  offerEach stranger { origin := ⟨1⟩ } (visitor :: rumors memory)

/-- There is room again, and the item comes around from another host. -/
def returned : GossipQueue :=
  (flooded.discard (rumor 1).id).offerEach listener [visitor]

private theorem visitor_id_not_mem_rumors (count : Nat) :
    visitor.id ∉ (rumors count).map (·.id) := by
  intro member
  rw [rumors, List.map_map] at member
  obtain ⟨number, _, same⟩ := List.mem_map.mp member
  have origins : (⟨99⟩ : ReplicaId) = ⟨98⟩ := congrArg GossipId.origin same
  exact absurd origins (by decide)

theorem flooded_eq :
    flooded.pending =
        (visitor :: rumors 255).map (fun gossip => { gossip, known := [stranger] }) ∧
      flooded.recent = ((rumors memory).map (·.id)).reverse := by
  have nodup : ((visitor :: rumors memory).map (·.id)).Nodup :=
    List.nodup_cons.mpr ⟨visitor_id_not_mem_rumors memory, nodup_rumors (by decide)⟩
  obtain ⟨_, pending, recent⟩ :=
    (unsent_new ⟨1⟩).offerEach stranger nodup fun gossip _ => List.not_mem_nil
  refine ⟨pending.trans ?_, recent.trans ?_⟩
  · rw [List.nil_append, ← List.map_take, capacity, List.take_succ_cons,
      take_rumors (by decide)]
  · rw [List.map_cons, List.reverse_cons, List.append_nil]
    apply List.take_left'
    rw [List.length_reverse, List.length_map, length_rumors]

theorem origin_rumor (number : Nat) : (rumor number).id.origin = ⟨99⟩ :=
  rfl

theorem runs_flooded :
    ∃ history,
      Runs ⟨1⟩ history flooded ∧
        history.map (·.operation) = (visitor :: rumors memory).map (.offer · stranger) :=
  Runs.offerEach stranger (visitor :: rumors memory) .start

private theorem runs_returned :
    ∃ history,
      Runs ⟨1⟩ history returned ∧
        ∀ gossip sender, .offer gossip sender ∈ history.map (·.operation) →
          gossip.id.origin ≠ ⟨1⟩ := by
  obtain ⟨history, run, operations⟩ := runs_flooded
  obtain ⟨later, run, last⟩ :=
    Runs.offerEach listener [visitor] (run.discard (rumor 1).id)
  refine ⟨_, run, ?_⟩
  intro gossip sender offered
  rw [List.map_append, List.map_append, operations, last] at offered
  rcases List.mem_append.mp offered with offered | final
  · rcases List.mem_append.mp offered with first | discarded
    · obtain ⟨other, among, same⟩ := List.mem_map.mp first
      cases same
      rcases List.mem_cons.mp among with rfl | rumored
      · decide
      · obtain ⟨number, _, rfl⟩ := List.mem_map.mp rumored
        rw [origin_rumor]
        decide
    · cases List.mem_singleton.mp discarded
  · cases List.mem_singleton.mp final
    decide

theorem fresh_flooded : visitor.id ∉ (flooded.discard (rumor 1).id).recent := by
  rw [recent_discard, flooded_eq.2, List.mem_reverse]
  exact visitor_id_not_mem_rumors memory

private theorem size_discard_flooded : (flooded.discard (rumor 1).id).size < capacity := by
  have full : flooded.pending.length = capacity := by
    rw [flooded_eq.1, List.length_map, List.length_cons, length_rumors]
    rfl
  have first : ({ gossip := rumor 1, known := [stranger] } : Pending) ∈ flooded.pending := by
    rw [flooded_eq.1]
    exact List.mem_map_of_mem (List.mem_cons_of_mem _ (rumor_mem_rumors (by decide)))
  rw [size, pending_discard, ← full]
  exact List.length_filter_lt_length_iff_exists.mpr ⟨_, first, by decide⟩

/-- The item is queued twice, as it came from the first host and from the other. -/
private theorem pending_returned :
    ∃ earlier, { gossip := visitor, known := [stranger] } ∈ earlier ∧
      returned.pending = earlier ++ [{ gossip := visitor, known := [listener] }] := by
  have takesIn := takesIn_offer fresh_flooded listener
  refine ⟨(flooded.discard (rumor 1).id).pending, ?_, ?_⟩
  · rw [pending_discard, flooded_eq.1, List.map_cons]
    exact List.mem_filter.mpr ⟨List.mem_cons_self, by decide⟩
  · have fits := size_discard_flooded
    rw [returned, offerEach_singleton, takesIn.pending_eq, pending_push, if_neg (by omega)]

private theorem foreign_echo (gossip : Gossip) (sender : SocketAddress)
    (offered : .offer gossip sender ∈ echo.map (·.operation)) : gossip.id.origin ≠ ⟨1⟩ := by
  simp only [echo, List.map_cons, List.map_nil, List.mem_cons, List.not_mem_nil,
    Operation.offer.injEq, reduceCtorEq, false_or, or_false] at offered
  have is : gossip = rumor 1 := offered.elim And.left And.left
  rw [is, origin_rumor]
  decide

/-- The entries of the item lie far enough apart, and a rumor that nothing has
followed is queued once. -/
theorem same_identity_far_apart_returned :
    (∃ history, Runs ⟨1⟩ history returned ∧
        ∃ left ∈ (ledger history).entries, ∃ right ∈ (ledger history).entries,
          left.id = right.id ∧ left.number + 4096 < right.number) ∧
      ∃ queue, Runs ⟨1⟩ echo queue ∧ queue.pending = [echoed.item] ∧
        (queue.pending.map (·.gossip.id)).Nodup := by
  constructor
  · obtain ⟨history, run, foreign⟩ := runs_returned
    obtain ⟨same, apart, _⟩ := same_identity_far_apart run (run.sincere foreign)
    obtain ⟨earlier, kept, pending⟩ := pending_returned
    rw [pending] at same
    obtain ⟨front, rest, split, frontSame, restSame⟩ := List.map_eq_append_iff.mp same
    obtain ⟨right, rfl, rightIs⟩ := List.map_eq_singleton_iff.mp restSame
    rw [← frontSame] at kept
    obtain ⟨left, leftFront, leftIs⟩ := List.mem_map.mp kept
    have leftQueued : left ∈ (ledger history).entries := by
      rw [split]
      exact List.mem_append_left _ leftFront
    have rightQueued : right ∈ (ledger history).entries := by
      rw [split]
      exact List.mem_append_right _ (List.mem_singleton_self right)
    have sameId : left.id = right.id := by
      rw [Entry.id, Entry.id, leftIs, rightIs]
    have different : left.number ≠ right.number := by
      have nodup := (numbered_ledger history).nodup
      rw [split, List.map_append, List.nodup_append] at nodup
      exact nodup.2.2 _ (List.mem_map_of_mem leftFront) _ (List.mem_singleton_self _)
    refine ⟨history, run, ?_⟩
    rcases Nat.lt_or_gt_of_ne different with before | before
    · exact ⟨left, leftQueued, right, rightQueued, sameId,
        apart left leftQueued right rightQueued sameId before⟩
    · exact ⟨right, rightQueued, left, leftQueued, sameId.symm,
        apart right rightQueued left leftQueued sameId.symm before⟩
  · have run : Runs ⟨1⟩ echo _ :=
      Runs.operate (.operate (.operate .start rfl) rfl) rfl
    obtain ⟨same, _, distinct⟩ := same_identity_far_apart run (run.sincere foreign_echo)
    rw [ledger_echo] at same distinct
    have count : (ledger echo).queued = 1 := by
      decide +kernel
    refine ⟨_, run, same.symm, (distinct ?_).1⟩
    intro entry _
    rw [count]
    omega

/-- An item that is queued for longer than it is remembered is accepted again when
it comes around, is queued twice, goes out twice at once, and goes back to the host
that it came around from. -/
theorem queued_twice_when_forgotten :
    (∃ history, Runs ⟨1⟩ history returned ∧
        ∀ gossip sender, .offer gossip sender ∈ history.map (·.operation) →
          gossip.id.origin ≠ ⟨1⟩) ∧
      ¬ (returned.pending.map (·.gossip.id)).Nodup ∧
        ¬ ((returned.select neighbor 256).map (·.id)).Nodup ∧
          visitor ∈ returned.select listener 256 := by
  obtain ⟨history, run, foreign⟩ := runs_returned
  obtain ⟨earlier, kept, pending⟩ := pending_returned
  let second : Pending := { gossip := visitor, known := [listener] }
  have twice : ∀ items : List Pending, { gossip := visitor, known := [stranger] } ∈ items →
      ¬ ((items ++ [second]).map (·.gossip.id)).Nodup := by
    intro items among nodup
    rw [List.map_append, List.nodup_append] at nodup
    exact nodup.2.2 visitor.id (List.mem_map_of_mem among) visitor.id (List.mem_singleton_self _) rfl
  refine ⟨⟨history, run, foreign⟩, ?_, ?_, ?_⟩
  · rw [pending]
    exact twice earlier kept
  · have lacking := (perm_select run.size_le neighbor).map (·.id)
    rw [pending, List.filter_append, List.map_map] at lacking
    intro nodup
    apply twice _ (List.mem_filter.mpr ⟨kept, ?_⟩) (lacking.nodup_iff.mp nodup)
    decide
  · have queued : { gossip := visitor, known := [stranger] } ∈ returned.pending := by
      rw [pending]
      exact List.mem_append_left _ kept
    exact mem_select queued (by decide) run.size_le

end GossipQueue

end Roster
