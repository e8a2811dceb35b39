import Roster.Proofs.Gossip.Run

/-!
# Room for a new item

An item that the queue has accepted is queued exactly if there was room for it,
and then it is selected for every address but the one that offered it.  Without
room the queue stays as it was: it is full, nothing of it was sent, and it is the
new item that goes.
-/

namespace Roster

namespace GossipQueue

variable {queue after : GossipQueue} {item : Pending} {gossip : Gossip}
  {sender peer : SocketAddress} {origin : ReplicaId} {history : List Occurrence}

/-! ## What is taken in -/

private theorem TakesIn.mem_pending (takesIn : queue.TakesIn item after)
    (bounded : queue.size ≤ capacity) (room : queue.HasRoom) : item ∈ after.pending := by
  rw [takesIn.pending_eq]
  exact mem_push_of_hasRoom bounded room takesIn.unsent

private theorem TakesIn.pending_of_not_hasRoom (takesIn : queue.TakesIn item after)
    (bounded : queue.size ≤ capacity) (crowded : ¬ queue.HasRoom) :
    after.pending = queue.pending := by
  rw [takesIn.pending_eq]
  exact pending_push_of_not_hasRoom crowded bounded takesIn.unsent

private theorem hasRoom_markSent {ids : List GossipId} (queued : item ∈ queue.pending)
    (among : item.gossip.id ∈ ids) (lacks : peer ∉ item.known) :
    (queue.markSent ids peer).HasRoom := by
  refine Or.inr ⟨Pending.send ids peer item, List.mem_map_of_mem queued, ?_⟩
  rw [Pending.send, if_pos ⟨among, lacks⟩]
  exact Nat.succ_pos item.transmits

/-- In every run, an item that is accepted is queued if there is room for it, so
that it is selected for every address other than the one that has offered it, and
without room the queue holds what it held. -/
theorem queued_of_room (run : Runs origin history queue) :
    (∀ gossip sender, (queue.offer gossip sender).1 = true →
        (queue.HasRoom →
            { gossip, known := [sender] } ∈ (queue.offer gossip sender).2.pending ∧
              ∀ peer, peer ≠ sender → ∀ most, (queue.offer gossip sender).2.size ≤ most →
                gossip ∈ (queue.offer gossip sender).2.select peer most) ∧
          (¬ queue.HasRoom → (queue.offer gossip sender).2.pending = queue.pending)) ∧
      ∀ payload id after, queue.enqueue payload = .ok (id, after) →
        (queue.HasRoom →
            { gossip := { id, payload } } ∈ after.pending ∧
              ∀ peer most, after.size ≤ most →
                { id, payload } ∈ after.select peer most) ∧
          (¬ queue.HasRoom → after.pending = queue.pending) := by
  have bounded := run.size_le
  constructor
  · intro gossip sender fresh
    have takesIn := takesIn_offer (fresh_iff.mp fresh) sender
    refine ⟨fun room => ?_, takesIn.pending_of_not_hasRoom bounded⟩
    have queued := takesIn.mem_pending bounded room
    refine ⟨queued, fun peer other most enough => ?_⟩
    exact mem_select queued (fun known => other (List.mem_singleton.mp known)) enough
  · intro payload id after enqueued
    have takesIn := takesIn_enqueue enqueued
    refine ⟨fun room => ?_, takesIn.pending_of_not_hasRoom bounded⟩
    have queued := takesIn.mem_pending bounded room
    exact ⟨queued, fun peer most enough => mem_select queued List.not_mem_nil enough⟩

/-! ## Many new items -/

private theorem take_take_append {α : Type} (count : Nat) (front rest : List α) :
    (front.take count ++ rest).take count = (front ++ rest).take count := by
  rw [List.take_append, List.take_append, List.take_take, Nat.min_self, List.length_take]
  congr 2
  omega

theorem take_append_take {α : Type} (count : Nat) (front rest : List α) :
    (front ++ rest.take count).take count = (front ++ rest).take count := by
  rw [List.take_append, List.take_append, List.take_take]
  congr 2
  omega

/-- Nothing that is queued was sent, and neither bound is passed. -/
structure Unsent (queue : GossipQueue) : Prop where
  size_le : queue.size ≤ capacity
  recent_le : queue.recent.length ≤ memory
  transmits_eq : ∀ item ∈ queue.pending, item.transmits = 0

theorem unsent_new (origin : ReplicaId) : Unsent { origin } where
  size_le := Nat.zero_le capacity
  recent_le := Nat.zero_le memory
  transmits_eq _ member := absurd member List.not_mem_nil

theorem Unsent.offer (unsent : queue.Unsent) (new : gossip.id ∉ queue.recent)
    (sender : SocketAddress) :
    (queue.offer gossip sender).2.Unsent ∧
      (queue.offer gossip sender).2.pending =
          (queue.pending ++ [({ gossip, known := [sender] } : Pending)]).take capacity ∧
        (queue.offer gossip sender).2.recent = (gossip.id :: queue.recent).take memory := by
  have takesIn := takesIn_offer new sender
  have pendingNext := takesIn.pending_eq
  rw [pending_push_of_unsent unsent.transmits_eq rfl] at pendingNext
  have recentNext := takesIn.recent_eq
  rw [recent_remember, if_neg new] at recentNext
  refine ⟨⟨?_, ?_, ?_⟩, pendingNext, recentNext⟩
  · rw [size, pendingNext]
    exact List.length_take_le capacity _
  · rw [recentNext]
    exact List.length_take_le memory _
  · intro item member
    rw [pendingNext] at member
    rcases List.mem_append.mp (List.mem_of_mem_take member) with queued | last
    · exact unsent.transmits_eq item queued
    · rw [List.mem_singleton.mp last]

/-- New items that are offered while nothing was sent are queued as long as there
is room, and the last of them are remembered. -/
theorem Unsent.offerEach (sender : SocketAddress) :
    ∀ {items : List Gossip} {queue : GossipQueue},
      queue.Unsent → (items.map (·.id)).Nodup → (∀ gossip ∈ items, gossip.id ∉ queue.recent) →
        (queue.offerEach sender items).Unsent ∧
          (queue.offerEach sender items).pending =
              (queue.pending ++
                  items.map fun gossip => ({ gossip, known := [sender] } : Pending)).take
                capacity ∧
            (queue.offerEach sender items).recent =
              ((items.map (·.id)).reverse ++ queue.recent).take memory
  | [], queue, unsent, _, _ => by
      refine ⟨unsent, ?_, ?_⟩
      · rw [List.map_nil, List.append_nil, List.take_of_length_le unsent.size_le]
        rfl
      · rw [List.map_nil, List.reverse_nil, List.nil_append,
          List.take_of_length_le unsent.recent_le]
        rfl
  | gossip :: rest, queue, unsent, nodup, new => by
      rw [List.map_cons, List.nodup_cons] at nodup
      obtain ⟨unsentNext, pendingNext, recentNext⟩ :=
        unsent.offer (new gossip (List.mem_cons_self ..)) sender
      have newNext : ∀ other ∈ rest, other.id ∉ (queue.offer gossip sender).2.recent := by
        intro other member remembered
        rw [recentNext] at remembered
        rcases List.mem_cons.mp (List.mem_of_mem_take remembered) with same | earlier
        · exact nodup.1 (same ▸ List.mem_map_of_mem member)
        · exact new other (List.mem_cons_of_mem gossip member) earlier
      obtain ⟨unsentLast, pendingLast, recentLast⟩ :=
        Unsent.offerEach sender unsentNext nodup.2 newNext
      -- To cut after every item comes to the same as to cut once at the end.
      rw [pendingNext, take_take_append, List.append_assoc, List.singleton_append] at pendingLast
      rw [recentNext, take_append_take] at recentLast
      refine ⟨unsentLast, pendingLast, ?_⟩
      rw [List.map_cons, List.reverse_cons, List.append_assoc, List.singleton_append]
      exact recentLast

def rumor (number : Nat) : Gossip where
  id := { origin := ⟨99⟩, sequence := UInt64.ofNat number }
  payload := .alive ⟨"127.0.0.1", 7000, 1⟩

def rumors (count : Nat) : List Gossip :=
  (List.range count).map fun number => rumor (number + 1)

def stranger : SocketAddress :=
  ⟨.v4 0x7f000001, 8001, 0⟩

private theorem rumor_id_inj {left right : Nat} (leftFits : left < Word.bound)
    (rightFits : right < Word.bound)
    (same : (rumor left).id = (rumor right).id) : left = right := by
  have numbers := congrArg (fun id => id.sequence.toNat) same
  simp only [rumor] at numbers
  rwa [UInt64.toNat_ofNat_of_lt' leftFits, UInt64.toNat_ofNat_of_lt' rightFits] at numbers

theorem length_rumors (count : Nat) : (rumors count).length = count := by
  rw [rumors, List.length_map, List.length_range]

theorem rumor_mem_rumors {number count : Nat} (fits : number < count) :
    rumor (number + 1) ∈ rumors count :=
  List.mem_map.mpr ⟨number, List.mem_range.mpr fits, rfl⟩

theorem take_rumors {most count : Nat} (fits : most ≤ count) :
    (rumors count).take most = rumors most := by
  rw [rumors, ← List.map_take, List.take_range, Nat.min_eq_left fits, rumors]

theorem nodup_rumors {count : Nat} (fits : count < Word.bound) :
    ((rumors count).map (·.id)).Nodup := by
  rw [rumors, List.map_map]
  apply List.Nodup.map_on _ List.nodup_range
  intro left leftMember right rightMember same
  rw [List.mem_range] at leftMember rightMember
  have next := rumor_id_inj (by omega) (by omega) same
  omega

private theorem rumor_id_not_mem_rumors {number count : Nat} (later : count < number)
    (fits : number < Word.bound) : (rumor number).id ∉ (rumors count).map (·.id) := by
  intro member
  rw [rumors, List.map_map] at member
  obtain ⟨earlier, before, same⟩ := List.mem_map.mp member
  rw [List.mem_range] at before
  have next := rumor_id_inj (by omega) fits same
  omega

/-- A new queue after the first rumors, as many as it can hold. -/
def crowded : GossipQueue :=
  offerEach stranger { origin := ⟨1⟩ } (rumors capacity)

private theorem runs_crowded :
    ∃ history,
      Runs ⟨1⟩ history crowded ∧
        history.map (·.operation) = (rumors capacity).map (.offer · stranger) :=
  Runs.offerEach stranger (rumors capacity) .start

theorem crowded_eq :
    crowded.Unsent ∧
      crowded.pending =
          (rumors capacity).map (fun gossip => { gossip, known := [stranger] }) ∧
        crowded.recent = ((rumors capacity).map (·.id)).reverse := by
  have nodup : ((rumors capacity).map (·.id)).Nodup := nodup_rumors (by decide)
  obtain ⟨unsent, pending, recent⟩ :=
    (unsent_new ⟨1⟩).offerEach stranger nodup fun gossip _ => List.not_mem_nil
  refine ⟨unsent, pending.trans ?_, recent.trans ?_⟩
  · rw [List.nil_append]
    apply List.take_of_length_le
    exact Nat.le_of_eq (by rw [List.length_map, length_rumors])
  · have count : ((rumors capacity).map (·.id)).reverse.length = capacity := by
      rw [List.length_reverse, List.length_map, length_rumors]
    rw [List.append_nil]
    exact List.take_of_length_le (Nat.le_trans (Nat.le_of_eq count) (by decide))

private theorem fresh_crowded : (rumor 257).id ∉ crowded.recent := by
  rw [crowded_eq.2.2, List.mem_reverse]
  exact rumor_id_not_mem_rumors (by decide) (by decide)

def listener : SocketAddress :=
  ⟨.v4 0x7f000001, 8002, 0⟩

def relieved : GossipQueue :=
  crowded.markSent [(rumor 1).id] listener

/-- The queue is full, but one item was sent, so the next is queued and selected. -/
theorem queued_of_room_relieved :
    (∃ history, Runs ⟨1⟩ history relieved) ∧ relieved.size = 256 ∧ relieved.HasRoom ∧
      (relieved.offer (rumor 257) stranger).1 = true ∧
        rumor 257 ∈ (relieved.offer (rumor 257) stranger).2.select listener 256 := by
  obtain ⟨history, run, _⟩ := runs_crowded
  have run : Runs ⟨1⟩ _ relieved := run.markSent [(rumor 1).id] listener
  have first : ({ gossip := rumor 1, known := [stranger] } : Pending) ∈ crowded.pending := by
    rw [crowded_eq.2.1]
    exact List.mem_map_of_mem (rumor_mem_rumors (by decide))
  have room : relieved.HasRoom :=
    hasRoom_markSent first (List.mem_singleton_self _) (by decide)
  have full : relieved.size = 256 := by
    rw [relieved, markSent, size, List.length_map, crowded_eq.2.1, List.length_map, length_rumors]
    rfl
  have fresh : (relieved.offer (rumor 257) stranger).1 = true := by
    rw [fresh_iff, relieved, recent_markSent]
    exact fresh_crowded
  have bounded : (relieved.offer (rumor 257) stranger).2.size ≤ 256 :=
    (run.offer (rumor 257) stranger).size_le
  obtain ⟨_, selected⟩ := ((queued_of_room run).1 (rumor 257) stranger fresh).1 room
  have other : listener ≠ stranger := by
    decide
  have heard := selected listener other 256 bounded
  exact ⟨⟨_, run⟩, full, room, fresh, heard⟩

/-- The queue is full and nothing of it was sent, so an item that is accepted now
is not queued and never selected. -/
theorem dropped_when_accepted :
    (∃ history,
        Runs ⟨1⟩ history crowded ∧
          history.map (·.operation) = (rumors 256).map (.offer · stranger)) ∧
      (crowded.offer (rumor 257) stranger).1 = true ∧
        (∀ item ∈ (crowded.offer (rumor 257) stranger).2.pending, item.gossip ≠ rumor 257) ∧
          ∀ peer most, rumor 257 ∉ (crowded.offer (rumor 257) stranger).2.select peer most := by
  obtain ⟨history, run, operations⟩ := runs_crowded
  obtain ⟨unsent, pending, recent⟩ := crowded_eq
  have fresh : (crowded.offer (rumor 257) stranger).1 = true := fresh_iff.mpr fresh_crowded
  have full : ¬ crowded.HasRoom := by
    rintro (room | ⟨item, queued, sent⟩)
    · rw [size, pending, List.length_map, length_rumors] at room
      exact Nat.lt_irrefl capacity room
    · rw [unsent.transmits_eq item queued] at sent
      exact Nat.lt_irrefl 0 sent
  have unchanged :=
    (takesIn_offer fresh_crowded stranger).pending_of_not_hasRoom run.size_le full
  have absent :
      ∀ item ∈ (crowded.offer (rumor 257) stranger).2.pending, item.gossip ≠ rumor 257 := by
    intro item member same
    rw [unchanged, pending] at member
    obtain ⟨gossip, queued, rfl⟩ := List.mem_map.mp member
    apply fresh_crowded
    rw [recent, List.mem_reverse, ← same]
    exact List.mem_map_of_mem queued
  refine ⟨⟨history, run, operations⟩, fresh, absent, fun peer most selected => ?_⟩
  obtain ⟨item, queued, _, same⟩ := exists_of_mem_select selected
  exact absent item queued same

end GossipQueue

end Roster
