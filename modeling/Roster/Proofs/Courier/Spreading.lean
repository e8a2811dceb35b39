import Mathlib.Data.List.Forall2
import Roster.Proofs.Courier.Packing
import Roster.Proofs.Gossip.Spread

/-!
# A round of spreading

While every item fits into a datagram by itself, packing leaves the courier as it is.
So every target of a round gets what it would get alone, whatever goes to the others and
whether it is accepted.  When all were served, an item has been sent once more to each
target that its carrier has reached, and only then may it retire.  In which order the
targets were served cannot be told from the queue.
-/

namespace Roster

/-- The item when it has reached more addresses, which it was sent to in this order. -/
def Pending.reach (item : Pending) (addresses : List SocketAddress) : Pending :=
  { item with
    transmits := item.transmits + addresses.length
    known := addresses.reverse ++ item.known }

private theorem Pending.reach_nil (item : Pending) : item.reach [] = item :=
  rfl

/-- The same item, sent as often and known to the same addresses. -/
structure Pending.Alike (left right : Pending) : Prop where
  gossip : left.gossip = right.gossip
  transmits : left.transmits = right.transmits
  known : left.known.Perm right.known

private theorem Pending.alike_reach (item : Pending) {left right : List SocketAddress}
    (reordered : left.Perm right) : (item.reach left).Alike (item.reach right) where
  gossip := rfl
  transmits := congrArg (item.transmits + ·) reordered.length_eq
  known := ((left.reverse_perm.trans reordered).trans right.reverse_perm.symm).append_right _

namespace GossipQueue

variable {left right : GossipQueue}

/-- The same items in the same order, and all else is the same. -/
structure Alike (left right : GossipQueue) : Prop where
  origin : left.origin = right.origin
  next : left.next = right.next
  pending : List.Forall₂ Pending.Alike left.pending right.pending
  recent : left.recent = right.recent

theorem Alike.refl (queue : GossipQueue) : queue.Alike queue where
  origin := rfl
  next := rfl
  pending := List.forall₂_same.mpr fun _ _ => ⟨rfl, rfl, .refl _⟩
  recent := rfl

theorem Alike.retire (alike : left.Alike right) (limit peers : Nat) :
    (left.retire limit peers).Alike (right.retire limit peers) where
  origin := alike.origin
  next := alike.next
  pending := by
    refine List.rel_filter (fun before after same => ?_) alike.pending
    simp only [same.transmits, same.known.length_eq]
  recent := alike.recent

/-- What an address lacks, in which order it goes out, and how much of it do not tell
alike queues apart. -/
theorem Alike.select_eq (alike : left.Alike right) (peer : SocketAddress) (most : Nat) :
    left.select peer most = right.select peer most := by
  let rank : Pending → Gossip × Nat := fun item => (item.gossip, item.transmits)
  have ranked : ∀ items, (leastSentFirst items).map rank =
      (items.map rank).mergeSort fun first second => first.2 ≤ second.2 :=
    fun items => List.map_mergeSort fun _ _ _ _ => rfl
  have gossips : ∀ items : List Pending, (items.take most).map (·.gossip) =
      ((items.map rank).take most).map Prod.fst := by
    intro items
    rw [← List.map_take, List.map_map]
    rfl
  have lacking : (left.pending.filter fun item => peer ∉ item.known).map rank =
      (right.pending.filter fun item => peer ∉ item.known).map rank := by
    rw [← List.forall₂_eq_eq_eq, List.forall₂_map_left_iff, List.forall₂_map_right_iff]
    have kept : List.Forall₂ Pending.Alike (left.pending.filter fun item => peer ∉ item.known)
        (right.pending.filter fun item => peer ∉ item.known) :=
      List.rel_filter (fun _ _ same => by simp only [same.known.mem_iff]) alike.pending
    exact kept.imp fun _ _ same => Prod.ext same.gossip same.transmits
  rw [select, select, gossips, gossips, ranked, ranked, lacking]

end GossipQueue

open GossipQueue (rumor stranger listener neighbor)

namespace Courier

variable {courier : Courier} {targets others : List SocketAddress} {target : SocketAddress}
  {item : Pending} {id : GossipId} {round : Round}

/-! ## Packing for one target -/

/-- The carrier that is packed for a target, unless it would carry nothing. -/
def round? (courier : Courier) (target : SocketAddress) : Option Round :=
  match (courier.pack .gossip target).1 with
  | some (payload, carried) =>
      if carried.isEmpty then none else some { destination := target, payload, carried }
  | none => none

/-- The items that the carrier for a target takes along. -/
def ration (courier : Courier) (target : SocketAddress) : List GossipId :=
  match courier.round? target with
  | some round => round.carried
  | none => []

theorem pack_of_round? (packs : courier.round? target = some round) :
    round.destination = target ∧ round.carried ≠ [] ∧
      (courier.pack .gossip target).1 = some (round.payload, round.carried) := by
  unfold round? at packs
  split at packs
  · rename_i packed
    split at packs
    · cases packs
    · rename_i carries
      cases packs
      exact ⟨rfl, mt List.isEmpty_iff.mpr carries, packed⟩
  · cases packs

private theorem exists_of_mem_ration (carries : id ∈ courier.ration target) :
    ∃ item ∈ courier.queue.pending, target ∉ item.known ∧ item.gossip.id = id := by
  unfold ration at carries
  split at carries
  · rename_i packs
    obtain ⟨front, isFront, _, ids⟩ := exists_front_of_shrink (pack_of_round? packs).2.2
    rw [ids] at carries
    obtain ⟨gossip, among, rfl⟩ := List.mem_map.mp carries
    obtain ⟨item, queued, lacks, same⟩ := GossipQueue.exists_of_mem_select (isFront.subset among)
    exact ⟨item, queued, lacks, congrArg Gossip.id same⟩
  · cases carries

/-- If identities differ, a carrier takes along only what its target lacks. -/
private theorem lacks_of_mem_ration (distinct : (courier.queue.pending.map (·.gossip.id)).Nodup)
    (queued : item ∈ courier.queue.pending) (carries : item.gossip.id ∈ courier.ration target) :
    target ∉ item.known := by
  obtain ⟨other, otherQueued, lacks, same⟩ := exists_of_mem_ration carries
  rwa [← List.inj_on_of_nodup_map distinct otherQueued queued same]

private theorem discardOversized_link (courier : Courier) (link : Link) (gossip : List Gossip) :
    ({ courier with link } : Courier).discardOversized gossip =
      { courier.discardOversized gossip with link } := by
  unfold discardOversized
  split
  · rename_i item
    have same : ({ courier with link } : Courier).fitsAlone item = courier.fitsAlone item := rfl
    rw [same]
    split
    · rfl
    · rfl
  · rfl

/-- What is packed does not depend on the link. -/
private theorem shrink_link (courier : Courier) (link : Link) (message : Message)
    (gossip : List Gossip) :
    (({ courier with link } : Courier).shrink message gossip).1 =
      (courier.shrink message gossip).1 := by
  fun_induction shrink courier message gossip with
  | case1 courier gossip payload made =>
      have made : (({ courier with link } : Courier).envelope message gossip).encode =
          .ok payload := made
      rw [shrink.eq_def, made]
  | case2 courier fault failed =>
      have failed : (({ courier with link } : Courier).envelope message []).encode =
          .error fault := failed
      rw [shrink.eq_def, failed]
  | case3 courier fault first rest failed inductionHypothesis =>
      have failed : (({ courier with link } : Courier).envelope message (first :: rest)).encode =
          .error fault := failed
      rw [shrink.eq_def, failed]
      simp only [discardOversized_link, inductionHypothesis]

private theorem round?_link (courier : Courier) (link : Link) (target : SocketAddress) :
    ({ courier with link } : Courier).round? target = courier.round? target := by
  unfold round? pack
  rw [shrink_link]

/-- What was selected goes out whole if it fits. -/
private theorem ration_of_fits
    (fits : courier.Fits .gossip (courier.queue.select target courier.perEnvelope)) :
    courier.ration target = (courier.queue.select target courier.perEnvelope).map (·.id) := by
  unfold ration round? pack
  rw [shrink.eq_def, encode_eq_ok_iff.mpr ⟨rfl, fits⟩]
  cases courier.queue.select target courier.perEnvelope with
  | nil => rfl
  | cons first rest => rfl

private theorem pack_unchanged
    (small : ∀ item ∈ courier.queue.pending, courier.Fits .gossip [item.gossip])
    (target : SocketAddress) : (courier.pack .gossip target).2 = courier := by
  rcases (sheds_shrink courier .gossip _).exists_entry with same | ⟨entry, queued, _, large, _⟩
  · exact same
  · exact absurd (small entry queued) large

private theorem packAll_eq
    (small : ∀ item ∈ courier.queue.pending, courier.Fits .gossip [item.gossip])
    (targets : List SocketAddress) :
    packAll targets courier = (targets.filterMap courier.round?, courier) := by
  induction targets with
  | nil => rfl
  | cons target rest inductionHypothesis =>
      have packs : courier.pack .gossip target = ((courier.pack .gossip target).1, courier) :=
        Prod.ext rfl (pack_unchanged small target)
      rw [packAll, packs]
      simp only [inductionHypothesis, List.filterMap_cons, round?]
      cases (courier.pack .gossip target).1 with
      | none => rfl
      | some datagram =>
          obtain ⟨payload, carried⟩ := datagram
          cases carried with
          | nil => rfl
          | cons first others => rfl

/-! ## Serving all targets -/

/-- The targets that the item of an identity reaches: their carriers take it along, and
the link accepts them. -/
def reached (courier : Courier) (targets : List SocketAddress) (id : GossipId) :
    List SocketAddress :=
  targets.filter fun target => courier.link.accepts target && id ∈ courier.ration target

/-- The queue when all targets were served and nothing has retired yet. -/
def served (courier : Courier) (targets : List SocketAddress) : GossipQueue :=
  { courier.queue with
    pending :=
      courier.queue.pending.map fun item => item.reach (courier.reached targets item.gossip.id) }

def Round.parcel (round : Round) : Parcel :=
  { destination := round.destination, delivery := .bestEffort, payload := round.payload }

def parcels (courier : Courier) (targets : List SocketAddress) : List Parcel :=
  ((targets.filter courier.link.accepts).filterMap courier.round?).map Round.parcel

/-- The courier when all targets were served and nothing has retired yet. -/
def serve (courier : Courier) (targets : List SocketAddress) : Courier :=
  { courier with
    link := { courier.link with sent := courier.link.sent ++ courier.parcels targets }
    queue := courier.served targets }

private theorem serve_nil (courier : Courier) : courier.serve [] = courier := by
  have queue : courier.served [] = courier.queue := by
    simp [served, reached, Pending.reach_nil]
  have parcels : courier.parcels [] = [] := rfl
  rw [serve, queue, parcels, List.append_nil]

private theorem reached_append_singleton (courier : Courier) (targets : List SocketAddress)
    (target : SocketAddress) (id : GossipId) :
    courier.reached (targets ++ [target]) id =
      courier.reached targets id ++
        if courier.link.accepts target && id ∈ courier.ration target then [target] else [] := by
  rw [reached, List.filter_append, List.filter_cons, List.filter_nil]
  rfl

/-- To charge another target for what its carrier took along is to reach that target as
well. -/
private theorem send_reach (distinct : (courier.queue.pending.map (·.gossip.id)).Nodup)
    (new : target ∉ targets) (accepts : courier.link.accepts target = true)
    (queued : item ∈ courier.queue.pending) :
    (item.reach (courier.reached targets item.gossip.id)).send (courier.ration target) target =
      item.reach (courier.reached (targets ++ [target]) item.gossip.id) := by
  rw [reached_append_singleton, accepts, Bool.true_and]
  by_cases carries : item.gossip.id ∈ courier.ration target
  · have lacks : target ∉ (courier.reached targets item.gossip.id).reverse ++ item.known := by
      rw [List.mem_append, List.mem_reverse, not_or]
      exact ⟨fun earlier => new (List.mem_of_mem_filter earlier),
        lacks_of_mem_ration distinct queued carries⟩
    rw [Pending.send, if_pos ⟨carries, lacks⟩, if_pos (decide_eq_true carries)]
    simp only [Pending.reach, List.insert_of_not_mem lacks, List.length_append,
      List.length_singleton, Nat.add_assoc, List.reverse_append, List.reverse_singleton,
      List.cons_append, List.nil_append]
  · rw [Pending.send, if_neg fun sends => carries sends.1, if_neg (by simpa using carries),
      List.append_nil]

private theorem markSent_served (distinct : (courier.queue.pending.map (·.gossip.id)).Nodup)
    (new : target ∉ targets) (accepts : courier.link.accepts target = true) :
    (courier.served targets).markSent (courier.ration target) target =
      courier.served (targets ++ [target]) := by
  unfold served
  rw [GossipQueue.markSent, List.map_map]
  congr 1
  exact List.map_congr_left fun item queued => send_reach distinct new accepts queued

/-- A target that nothing was packed for, or that the link refuses, changes nothing. -/
private theorem serve_of_idle
    (idle : courier.link.accepts target = false ∨ courier.round? target = none)
    (targets : List SocketAddress) : courier.serve (targets ++ [target]) = courier.serve targets := by
  have queue : courier.served (targets ++ [target]) = courier.served targets := by
    unfold served
    simp only [reached_append_singleton]
    rcases idle with refused | nothing
    · simp [refused]
    · simp [ration, nothing]
  have parcels : courier.parcels (targets ++ [target]) = courier.parcels targets := by
    unfold parcels
    rcases idle with refused | nothing
    · simp [List.filter_append, refused]
    · cases accepts : courier.link.accepts target with
      | false => simp [List.filter_append, accepts]
      | true => simp [List.filter_append, accepts, nothing]
  rw [serve, queue, parcels, ← serve]

private theorem deliver_serve (distinct : (courier.queue.pending.map (·.gossip.id)).Nodup)
    (new : target ∉ targets) (packs : courier.round? target = some round) :
    (courier.serve targets).deliver round = courier.serve (targets ++ [target]) := by
  obtain ⟨rfl, _⟩ := pack_of_round? packs
  unfold deliver dispatch Link.send
  have same : (courier.serve targets).link.accepts round.destination =
      courier.link.accepts round.destination := rfl
  simp only [same]
  cases accepts : courier.link.accepts round.destination with
  | false => exact (serve_of_idle (Or.inl accepts) targets).symm
  | true =>
      have carried : courier.ration round.destination = round.carried := by
        rw [ration, packs]
      have queue := markSent_served distinct new accepts
      have parcels : courier.parcels (targets ++ [round.destination]) =
          courier.parcels targets ++ [round.parcel] := by
        simp [parcels, List.filter_append, accepts, packs]
      rw [carried] at queue
      rw [serve.eq_def courier (targets ++ _), ← queue, parcels, ← List.append_assoc]
      rfl

/-- Every target is served in its turn as if no other had been served before. -/
private theorem foldl_deliver (distinct : (courier.queue.pending.map (·.gossip.id)).Nodup)
    (different : targets.Nodup) :
    (targets.filterMap courier.round?).foldl deliver courier = courier.serve targets := by
  induction targets using List.reverseRecOn with
  | nil => exact (serve_nil courier).symm
  | append_singleton earlier target inductionHypothesis =>
      rw [List.nodup_append] at different
      obtain ⟨before, _, apart⟩ := different
      have new : target ∉ earlier := fun among =>
        apart target among target (List.mem_singleton_self target) rfl
      rw [List.filterMap_append, List.foldl_append, inductionHypothesis before]
      cases packs : courier.round? target with
      | none =>
          rw [List.filterMap_cons_none packs]
          exact (serve_of_idle (Or.inr packs) earlier).symm
      | some round =>
          rw [List.filterMap_cons_some packs]
          exact deliver_serve distinct new packs

private theorem round?_of_empty (empty : courier.queue.pending = []) (target : SocketAddress) :
    courier.round? target = none := by
  cases packs : courier.round? target with
  | none => rfl
  | some round =>
      obtain ⟨id, among⟩ := List.exists_mem_of_ne_nil _ (pack_of_round? packs).2.1
      have carries : id ∈ courier.ration target := by
        rwa [ration, packs]
      obtain ⟨item, queued, _⟩ := exists_of_mem_ration carries
      rw [empty] at queued
      cases queued

/-- The order of the targets cannot be told from the queue. -/
private theorem alike_served (reordered : others.Perm targets) :
    (courier.served others).Alike (courier.served targets) where
  origin := rfl
  next := rfl
  pending := by
    rw [served, served, List.forall₂_map_left_iff, List.forall₂_map_right_iff]
    exact List.forall₂_same.mpr fun item _ => item.alike_reach (reordered.filter _)
  recent := rfl

private theorem retire_of_empty (empty : courier.queue.pending = []) :
    courier.retire = courier := by
  have kept : courier.queue.retire courier.limit courier.peers = courier.queue := by
    rw [GossipQueue.retire, empty, List.filter_nil, ← empty]
  rw [retire, kept]

/-- A round is what all targets are served, and then what retires. -/
private theorem spread_eq (distinct : (courier.queue.pending.map (·.gossip.id)).Nodup)
    (small : ∀ item ∈ courier.queue.pending, courier.Fits .gossip [item.gossip])
    (different : targets.Nodup) (offered : targets ≠ []) :
    courier.spread targets = (courier.serve targets).retire := by
  have delivered := foldl_deliver distinct different
  unfold spread
  split
  · rename_i idle
    rw [Bool.or_eq_true, List.isEmpty_iff, or_iff_left offered] at idle
    have empty := List.isEmpty_iff.mp idle
    -- Then there is nothing to deliver, and nothing to retire.
    rw [List.filterMap_eq_nil_iff.mpr fun target _ => round?_of_empty empty target] at delivered
    rw [← delivered, List.foldl_nil, retire_of_empty empty]
  · rw [packAll_eq small]
    exact congrArg retire delivered

/-- While identities differ and every item fits into a datagram by itself, each target is
packed for as if it were the only one, whatever the link accepts.  When all were served,
an item was sent once more to each target that its carrier has reached, and these are
known to have it.  Only then does anything retire, and the order of the targets cannot be
told from the queue. -/
theorem spread_independent (distinct : (courier.queue.pending.map (·.gossip.id)).Nodup)
    (small : ∀ item ∈ courier.queue.pending, courier.Fits .gossip [item.gossip])
    (different : targets.Nodup) :
    (∀ link, packAll targets { courier with link } =
        (targets.filterMap courier.round?, { courier with link })) ∧
      (targets = [] → courier.spread targets = courier) ∧
        (targets ≠ [] → courier.spread targets = (courier.serve targets).retire) ∧
          ∀ others, others.Perm targets →
            (courier.spread others).queue.Alike (courier.spread targets).queue := by
  have none : courier.spread [] = courier := by
    rw [spread, List.isEmpty_nil, Bool.or_true, if_pos rfl]
  refine ⟨fun link => ?_, fun empty => empty ▸ none, spread_eq distinct small different,
    fun others reordered => ?_⟩
  · have packed := packAll_eq (show ∀ item ∈ ({ courier with link } : Courier).queue.pending,
      ({ courier with link } : Courier).Fits .gossip [item.gossip] from small) targets
    rwa [funext (round?_link courier link)] at packed
  by_cases offered : targets = []
  · rw [offered, List.perm_nil] at reordered
    rw [reordered, offered]
    exact .refl _
  · have othersOffered : others ≠ [] := fun empty =>
      offered (List.nil_perm.mp (empty ▸ reordered))
    rw [spread_eq distinct small different offered,
      spread_eq distinct small (reordered.nodup_iff.mpr different) othersOffered]
    exact (alike_served reordered).retire courier.limit courier.peers

/-- A courier that has heard two rumors, sends one along at most, and lets an item retire
when it was sent once.  Its link refuses one host. -/
def brisk : Courier :=
  { clerk with
    link := clerk.link.refuse [neighbor]
    queue := ((clerk.queue.offer (rumor 1) stranger).2.offer (rumor 2) stranger).2
    limit := 1 }

def bystander : SocketAddress :=
  ⟨.v4 0x7f000001, 8004, 0⟩

private theorem pending_brisk :
    brisk.queue.pending =
      [{ gossip := rumor 1, known := [stranger] }, { gossip := rumor 2, known := [stranger] }] := by
  decide +kernel

private theorem ration_brisk (lacks : target ≠ stranger) :
    brisk.ration target = [(rumor 1).id] := by
  have selected : brisk.queue.select target 1 = [rumor 1] := by
    have all : (brisk.queue.pending.filter fun item => target ∉ item.known) =
        brisk.queue.pending := by
      simp [pending_brisk, lacks]
    rw [GossipQueue.select, all, GossipQueue.leastSentFirst, List.mergeSort_of_pairwise,
      pending_brisk]
    · rfl
    · rw [pending_brisk]
      decide
  have fits : brisk.Fits .gossip (brisk.queue.select target brisk.perEnvelope) := by
    rw [show brisk.perEnvelope = 1 from rfl, selected]
    decide +kernel
  rw [ration_of_fits fits, show brisk.perEnvelope = 1 from rfl, selected]
  rfl

private theorem reached_brisk (id : GossipId) :
    brisk.reached [neighbor, listener, bystander] id =
      if id = (rumor 1).id then [listener, bystander] else [] := by
  have others : stranger ∉ [neighbor, listener, bystander] := by
    decide
  have accepted : [neighbor, listener, bystander].filter brisk.link.accepts =
      [listener, bystander] := by
    decide
  have carried : brisk.reached [neighbor, listener, bystander] id =
      ([neighbor, listener, bystander].filter brisk.link.accepts).filter
        fun _ => id = (rumor 1).id := by
    rw [reached, List.filter_filter]
    apply List.filter_congr
    intro target among
    rw [ration_brisk fun same => others (same ▸ among), Bool.and_comm]
    simp only [List.mem_singleton]
  rw [carried, accepted]
  split
  · rename_i same
    rw [same]
    rfl
  · rename_i other
    exact List.filter_eq_nil_iff.mpr fun _ _ => by simpa using other

/-- Both hosts that can be reached get the first rumor, although it may retire when it was
sent once, and it does so when the round ends. -/
theorem spread_independent_brisk :
    brisk.served [neighbor, listener, bystander] =
        { brisk.queue with
          pending :=
            [{ gossip := rumor 1, transmits := 2, known := [bystander, listener, stranger] },
              { gossip := rumor 2, known := [stranger] }] } ∧
      (brisk.spread [neighbor, listener, bystander]).queue.pending =
        [{ gossip := rumor 2, known := [stranger] }] := by
  have small : ∀ item ∈ brisk.queue.pending, brisk.Fits .gossip [item.gossip] := by
    rw [pending_brisk]
    decide +kernel
  have distinct : (brisk.queue.pending.map (·.gossip.id)).Nodup := by
    rw [pending_brisk]
    decide
  have different : [neighbor, listener, bystander].Nodup := by
    decide
  have queue : brisk.served [neighbor, listener, bystander] =
      { brisk.queue with
        pending :=
          [{ gossip := rumor 1, transmits := 2, known := [bystander, listener, stranger] },
            { gossip := rumor 2, known := [stranger] }] } := by
    rw [served, pending_brisk]
    simp only [reached_brisk]
    rfl
  obtain ⟨_, _, serves, _⟩ := spread_independent distinct small different
  refine ⟨queue, ?_⟩
  rw [serves (List.cons_ne_nil _ _), retire, serve, queue]
  rfl

end Courier

end Roster
