import Roster.Courier
import Roster.Proofs.Gossip.Room
import Roster.Proofs.Wire.Envelope

/-!
# Packing a datagram

The gossip of an envelope is halved until its bytes fit, so what goes out is a
front part of what was selected, and a message goes out unless it is too large by
itself.  An item that is too large for the smallest of envelopes is dropped when it
is the only one left.
-/

namespace Roster

namespace GossipQueue

variable {queue : GossipQueue} {item : Pending}

private theorem pending_discard_of_nodup (nodup : (queue.pending.map (·.gossip.id)).Nodup)
    (queued : item ∈ queue.pending) :
    ∃ front rest, queue.pending = front ++ item :: rest ∧
      (queue.discard item.gossip.id).pending = front ++ rest := by
  obtain ⟨front, rest, split⟩ := List.append_of_mem queued
  rw [split, List.map_append, List.map_cons, List.nodup_append, List.nodup_cons] at nodup
  obtain ⟨_, ⟨notBehind, _⟩, apart⟩ := nodup
  refine ⟨front, rest, split, ?_⟩
  have before : ∀ other ∈ front, other.gossip.id ≠ item.gossip.id := fun other member =>
    apart _ (List.mem_map_of_mem member) _ List.mem_cons_self
  have behind : ∀ other ∈ rest, other.gossip.id ≠ item.gossip.id := fun other member same =>
    notBehind (same ▸ List.mem_map_of_mem member)
  rw [pending_discard, split, List.filter_append, List.filter_cons_of_neg (by simp),
    List.filter_eq_self.mpr fun other member => decide_eq_true (before other member),
    List.filter_eq_self.mpr fun other member => decide_eq_true (behind other member)]

end GossipQueue

open GossipQueue (rumor stranger listener)

namespace Courier

variable {courier : Courier} {message : Message} {gossip items : List Gossip} {item : Gossip}
  {payload : Bytes} {carried : List GossipId}

/-! ## Envelopes that fit -/

/-- A message fits into a datagram with these items. -/
def Fits (courier : Courier) (message : Message) (gossip : List Gossip) : Prop :=
  (courier.envelope message gossip).toBytes.length ≤ Wire.datagramLimit

/-- The bytes of the items come on top of those of the message. -/
private theorem length_envelope (courier : Courier) (message : Message) (gossip : List Gossip) :
    (courier.envelope message gossip).toBytes.length =
      (courier.envelope message []).toBytes.length +
        (gossip.flatMap Wire.Format.gossip.write).length := by
  simp only [Envelope.toBytes, envelope, Wire.Format.envelope, Wire.Format.convert,
    Wire.Format.pair, Wire.Format.list, Wire.Format.listAfter, Wire.Format.number,
    List.length_append, Wire.Format.length_littleEndian, List.flatMap_nil, List.length_nil]
  omega

theorem Fits.bare (fits : courier.Fits message gossip) : courier.Fits message [] := by
  rw [Fits, length_envelope] at fits
  exact Nat.le_trans (Nat.le_add_right _ _) fits

theorem encode_eq_ok_iff :
    (courier.envelope message gossip).encode = .ok payload ↔
      (courier.envelope message gossip).toBytes = payload ∧ courier.Fits message gossip :=
  Envelope.encode_eq_ok_iff

theorem not_fits_of_encode {fault : Envelope.TooLarge}
    (failed : (courier.envelope message gossip).encode = .error fault) :
    ¬ courier.Fits message gossip := by
  intro fits
  rw [encode_eq_ok_iff.mpr ⟨rfl, fits⟩] at failed
  cases failed

private theorem fitsAlone_eq_true_iff :
    courier.fitsAlone item = true ↔ courier.Fits .gossip [item] := by
  unfold fitsAlone
  cases made : (courier.envelope .gossip [item]).encode with
  | ok payload => exact iff_of_true rfl (encode_eq_ok_iff.mp made).2
  | error fault => exact iff_of_false Bool.false_ne_true (not_fits_of_encode made)

/-! ## Halving -/

/-- What packing drops: nothing, or what is queued under the identity of an item
that does not fit into a datagram. -/
inductive Sheds (courier : Courier) (gossip : List Gossip) : Courier → Prop where
  | nothing : Sheds courier gossip courier
  | oversized {item : Gossip} (among : item ∈ gossip) (large : ¬ courier.Fits .gossip [item]) :
      Sheds courier gossip { courier with queue := courier.queue.discard item.id }

theorem Sheds.mono {after : Courier} (sheds : courier.Sheds items after)
    (fewer : items ⊆ gossip) : courier.Sheds gossip after := by
  cases sheds with
  | nothing => exact .nothing
  | oversized among large => exact .oversized (fewer among) large

theorem discardOversized_of_large (large : ¬ courier.Fits .gossip [item]) :
    courier.discardOversized [item] =
      { courier with queue := courier.queue.discard item.id } := by
  rw [discardOversized, if_neg (mt fitsAlone_eq_true_iff.mp large)]

private theorem sheds_discardOversized (courier : Courier) (item : Gossip) :
    courier.Sheds [item] (courier.discardOversized [item]) := by
  by_cases fits : courier.Fits .gossip [item]
  · rw [discardOversized, if_pos (fitsAlone_eq_true_iff.mpr fits)]
    exact .nothing
  · rw [discardOversized_of_large fits]
    exact .oversized (List.mem_singleton_self item) fits

private theorem envelope_discardOversized (courier : Courier) (gossip : List Gossip) :
    (courier.discardOversized gossip).envelope = courier.envelope := by
  unfold discardOversized
  split
  · split
    · rfl
    · rfl
  · rfl

private theorem fits_discardOversized (gossip : List Gossip) :
    (courier.discardOversized gossip).Fits message items ↔ courier.Fits message items := by
  rw [Fits, Fits, envelope_discardOversized]

theorem shrink_nil (courier : Courier) (message : Message) :
    (courier.shrink message []).2 = courier := by
  rw [shrink]
  split
  · rfl
  · rfl

private theorem shrink_singleton_of_large (large : ¬ courier.Fits message [item]) :
    (courier.shrink message [item]).2 = courier.discardOversized [item] := by
  rw [shrink]
  split
  · rename_i made
    exact absurd (encode_eq_ok_iff.mp made).2 large
  · exact shrink_nil _ message

private theorem shrink_eq_none_iff :
    (courier.shrink message gossip).1 = none ↔ ¬ courier.Fits message [] := by
  fun_induction shrink courier message gossip with
  | case1 courier gossip payload made =>
      have fits := (encode_eq_ok_iff.mp made).2.bare
      exact iff_of_false (Option.some_ne_none _) (not_not_intro fits)
  | case2 courier fault failed => exact iff_of_true rfl (not_fits_of_encode failed)
  | case3 courier fault first rest failed inductionHypothesis =>
      rw [inductionHypothesis, fits_discardOversized]

theorem exists_front_of_shrink
    (packed : (courier.shrink message gossip).1 = some (payload, carried)) :
    ∃ front, front <+: gossip ∧
      (courier.envelope message front).encode = .ok payload ∧ carried = front.map (·.id) := by
  fun_induction shrink courier message gossip with
  | case1 courier gossip payload made =>
      cases packed
      exact ⟨gossip, List.prefix_refl gossip, made, rfl⟩
  | case2 => cases packed
  | case3 courier fault first rest failed inductionHypothesis =>
      obtain ⟨front, isFront, made, ids⟩ := inductionHypothesis packed
      rw [envelope_discardOversized] at made
      exact ⟨front, isFront.trans (List.take_prefix _ _), made, ids⟩

theorem sheds_shrink (courier : Courier) (message : Message) (gossip : List Gossip) :
    courier.Sheds gossip (courier.shrink message gossip).2 := by
  fun_induction shrink courier message gossip with
  | case1 => exact .nothing
  | case2 => exact .nothing
  | case3 courier fault first rest failed inductionHypothesis =>
      cases rest with
      | nil =>
          -- Nothing is left to halve, so what was dropped now is all that is dropped.
          rw [List.length_nil, List.take_zero, shrink_nil]
          exact sheds_discardOversized courier first
      | cons second others => exact inductionHypothesis.mono (List.take_subset _ _)

/-- A bare carrier that fits takes an item along, unless it meets one that no
datagram can carry. -/
private theorem progress_of_shrink (offered : gossip ≠ []) (fits : courier.Fits .gossip []) :
    (∃ payload carried, (courier.shrink .gossip gossip).1 = some (payload, carried) ∧
        carried ≠ []) ∨
      ∃ item ∈ gossip, ¬ courier.Fits .gossip [item] ∧
        (courier.shrink .gossip gossip).2 =
          { courier with queue := courier.queue.discard item.id } := by
  fun_induction shrink courier .gossip gossip with
  | case1 courier gossip payload made =>
      exact Or.inl ⟨payload, _, rfl, fun none => offered (List.map_eq_nil_iff.mp none)⟩
  | case2 => exact absurd rfl offered
  | case3 courier fault first rest failed inductionHypothesis =>
      have large := not_fits_of_encode failed
      cases rest with
      | nil =>
          refine Or.inr ⟨first, List.mem_singleton_self first, large, ?_⟩
          rw [List.length_nil, List.take_zero, shrink_nil]
          exact discardOversized_of_large large
      | cons second others =>
          have half : (first :: second :: others).take (((second :: others).length + 1) / 2) ≠ [] := by
            rw [List.length_cons, Ne, List.take_eq_nil_iff]
            rintro (none | none)
            · omega
            · cases none
          rcases inductionHypothesis half fits with carries | ⟨item, among, large, sheds⟩
          · exact Or.inl carries
          · exact Or.inr ⟨item, List.take_subset _ _ among, large, sheds⟩

/-! ## Packing -/

/-- What packing drops of a selection is a queued item that the destination lacks, and
no more than that one if all identities differ. -/
theorem Sheds.exists_entry {destination : SocketAddress} {most : Nat} {after : Courier}
    (sheds : courier.Sheds (courier.queue.select destination most) after) :
    after = courier ∨
      ∃ entry ∈ courier.queue.pending,
        destination ∉ entry.known ∧ ¬ courier.Fits .gossip [entry.gossip] ∧
          after = { courier with queue := courier.queue.discard entry.gossip.id } ∧
            ((courier.queue.pending.map (·.gossip.id)).Nodup →
              ∃ front rest, courier.queue.pending = front ++ entry :: rest ∧
                after.queue.pending = front ++ rest) := by
  cases sheds with
  | nothing => exact Or.inl rfl
  | oversized among large =>
      obtain ⟨entry, queued, lacks, rfl⟩ := GossipQueue.exists_of_mem_select among
      refine Or.inr ⟨entry, queued, lacks, large, rfl, fun nodup => ?_⟩
      exact GossipQueue.pending_discard_of_nodup nodup queued

/-- Whatever the courier holds, a message is packed exactly if it fits by itself.  Its
datagram fits, it yields the message with a front part of what was selected, and the
items of that part are those it is said to carry.  The queue at most loses what it
holds under the identity of one item that no datagram can carry, which is just that
item if all identities differ.  If the destination lacks anything, a bare carrier
that fits takes an item along or such an item goes. -/
theorem pack_carries_front (courier : Courier) (message : Message) (destination : SocketAddress)
    (allowed : 0 < courier.perEnvelope) :
    ((courier.pack message destination).1 = none ↔ ¬ courier.Fits message []) ∧
      (∀ payload carried, (courier.pack message destination).1 = some (payload, carried) →
        payload.length ≤ 65507 ∧
          ∃ front, front <+: courier.queue.select destination courier.perEnvelope ∧
            Envelope.decode payload = .ok (courier.envelope message front) ∧
              carried = front.map (·.id)) ∧
      ((courier.pack message destination).2 = courier ∨
        ∃ entry ∈ courier.queue.pending,
          destination ∉ entry.known ∧ ¬ courier.Fits .gossip [entry.gossip] ∧
            (courier.pack message destination).2 =
              { courier with queue := courier.queue.discard entry.gossip.id } ∧
            ((courier.queue.pending.map (·.gossip.id)).Nodup →
              ∃ front rest, courier.queue.pending = front ++ entry :: rest ∧
                (courier.pack message destination).2.queue.pending = front ++ rest)) ∧
      (message = .gossip → courier.Fits .gossip [] →
        (∃ entry ∈ courier.queue.pending, destination ∉ entry.known) →
          (∃ payload carried,
              (courier.pack message destination).1 = some (payload, carried) ∧ carried ≠ []) ∨
            ∃ entry ∈ courier.queue.pending, ¬ courier.Fits .gossip [entry.gossip] ∧
              entry ∉ (courier.pack message destination).2.queue.pending) := by
  unfold pack
  refine ⟨shrink_eq_none_iff, ?_, ?_, ?_⟩
  · intro payload carried packed
    obtain ⟨front, isFront, made, ids⟩ := exists_front_of_shrink packed
    obtain ⟨same, fits⟩ := encode_eq_ok_iff.mp made
    exact ⟨same ▸ fits, front, isFront, Envelope.decode_of_encode made, ids⟩
  · exact (sheds_shrink courier message _).exists_entry
  · rintro rfl fits ⟨entry, queued, lacks⟩
    have offered := GossipQueue.select_ne_nil queued lacks allowed
    rcases progress_of_shrink offered fits with carries | ⟨item, among, large, sheds⟩
    · exact Or.inl carries
    · obtain ⟨entry, queued, _, rfl⟩ := GossipQueue.exists_of_mem_select among
      refine Or.inr ⟨entry, queued, large, fun member => ?_⟩
      rw [sheds] at member
      exact of_decide_eq_true (List.mem_filter.mp member).2 rfl

instance (courier : Courier) (message : Message) (gossip : List Gossip) :
    Decidable (courier.Fits message gossip) :=
  inferInstanceAs (Decidable (_ ≤ _))

/-- The courier of a host that sends one item along at most. -/
def clerk : Courier where
  env := "dev"
  own := ⟨"127.0.0.1", 7000, 10⟩
  link := { address := ⟨.v4 0x7f000001, 7000, 0⟩ }
  queue := { origin := ⟨1⟩ }
  fanout := 4
  perEnvelope := 1
  multiplier := 4
  limit := 4

def informed : Courier :=
  { clerk with queue := (clerk.queue.offer (rumor 1) stranger).2 }

theorem pack_carries_front_informed :
    0 < informed.perEnvelope ∧ informed.Fits .gossip [] ∧
      ∃ payload carried, (informed.pack .gossip listener).1 = some (payload, carried) ∧
        payload.length ≤ 65507 ∧ carried ≠ [] := by
  have bare : informed.Fits .gossip [] := by
    decide +kernel
  have pending : informed.queue.pending = [{ gossip := rumor 1, known := [stranger] }] := by
    decide +kernel
  have small : informed.Fits .gossip [rumor 1] := by
    decide +kernel
  obtain ⟨_, sound, _, progress⟩ :=
    pack_carries_front informed .gossip listener (by decide)
  rw [pending] at progress
  have lacks : listener ∉ [stranger] := by
    decide
  refine ⟨by decide, bare, ?_⟩
  rcases progress rfl bare ⟨_, List.mem_singleton_self _, lacks⟩ with
    ⟨payload, carried, packed, carries⟩ | ⟨entry, queued, large, _⟩
  · exact ⟨payload, carried, packed, (sound payload carried packed).1, carries⟩
  · rw [List.mem_singleton.mp queued] at large
    exact absurd small large

/-- An item in the name of the host that it has yet to give a number to. -/
def early : Gossip where
  id := { origin := ⟨1⟩, sequence := 1 }
  payload := .alive ⟨"127.0.0.1", 7001, 10⟩

/-- The first item of the host. -/
def late (content : Bytes) : Gossip where
  id := { origin := ⟨1⟩, sequence := 1 }
  payload := .delta { uri := "membership", delta := content }

def greeting : Envelope where
  env := "dev"
  sender := ⟨"127.0.0.1", 7001, 10⟩
  message := .ack 3
  gossip := [early]

def doubled (content : Bytes) : Courier :=
  { clerk with
    queue :=
      { origin := ⟨1⟩
        next := 2
        pending := [{ gossip := early, known := [stranger] }, { gossip := late content }]
        recent := [early.id] } }

private theorem broadcast_doubled (content : Bytes) :
    (clerk.accept { payload := greeting.toBytes, sender := stranger }).2.broadcast
        (.delta { uri := "membership", delta := content }) =
      .ok (doubled content) := by
  have made : greeting.encode = .ok greeting.toBytes := by
    apply Envelope.encode_eq_ok_iff.mpr ⟨rfl, _⟩
    decide +kernel
  have heard : (clerk.accept { payload := greeting.toBytes, sender := stranger }).2 =
      { clerk with queue := (clerk.queue.offer early stranger).2 } := by
    rw [accept, Envelope.decode_of_encode made]
    rfl
  rw [heard]
  rfl

private theorem large_late {courier : Courier} {content : Bytes} (long : 65507 ≤ content.length)
    (message : Message) : ¬ courier.Fits message [late content] := by
  rw [Fits, length_envelope]
  simp only [List.flatMap_cons, late, Wire.Format.gossip, Wire.Format.convert, Wire.Format.pair,
    Wire.Format.payload, Wire.Format.update, Wire.Format.bytes, Wire.Format.variant,
    Wire.Format.number, List.length_append, Wire.Format.length_littleEndian]
  rw [Wire.datagramLimit]
  omega

private theorem pack_doubled {content : Bytes} (long : 65507 ≤ content.length) :
    ((doubled content).pack (.ack 9) stranger).2 =
      { doubled content with queue := (doubled content).queue.discard early.id } := by
  have lacking :
      ((doubled content).queue.pending.filter fun item => stranger ∉ item.known) =
        [{ gossip := late content }] :=
    rfl
  have selected : (doubled content).queue.select stranger 1 = [late content] := by
    rw [GossipQueue.select, lacking, GossipQueue.leastSentFirst, List.mergeSort_singleton]
    rfl
  have packed : (doubled content).pack (.ack 9) stranger =
      (doubled content).shrink (.ack 9) [late content] := by
    rw [← selected]
    rfl
  rw [packed, shrink_singleton_of_large (large_late long _),
    discardOversized_of_large (large_late long _)]
  rfl

/-- An item that was offered in the name of the host before the host has given its
identity to another goes with the other, although it fits along with a message. -/
theorem discards_both_doubled :
    (clerk.accept { payload := greeting.toBytes, sender := stranger }).2.broadcast
          (.delta { uri := "membership", delta := List.replicate 65507 0 }) =
        .ok (doubled (List.replicate 65507 0)) ∧
      (doubled (List.replicate 65507 0)).queue.size = 2 ∧
        (doubled (List.replicate 65507 0)).Fits .gossip [early] ∧
          ((doubled (List.replicate 65507 0)).pack (.ack 9) stranger).2.queue.size = 0 := by
  have long : 65507 ≤ (List.replicate 65507 (0 : UInt8)).length :=
    Nat.le_of_eq List.length_replicate.symm
  generalize List.replicate 65507 (0 : UInt8) = content at long ⊢
  refine ⟨broadcast_doubled content, rfl, ?_, ?_⟩
  · exact (by decide +kernel : clerk.Fits .gossip [early])
  · rw [pack_doubled long]
    rfl

end Courier

end Roster
