import Mathlib.Logic.Relation
import Roster.Proofs.Courier

/-!
# The errands of a courier

Whatever a courier is used for, apart from what arrives, it does in errands of a
few kinds.  Only one kind tells the queue that an address has items, and that
follows a parcel which the link has accepted and which carries just these.  So
the queue stays right about who has what.
-/

namespace Roster

/-- Bytes that yield an envelope which carries the item. -/
def Bytes.Bring (bytes : Bytes) (id : GossipId) : Prop :=
  ∃ envelope, Envelope.decode bytes = .ok envelope ∧ id ∈ envelope.gossip.map (·.id)

instance (bytes : Bytes) (id : GossipId) : Decidable (bytes.Bring id) :=
  match read : Envelope.decode bytes with
  | .ok envelope =>
      decidable_of_iff (id ∈ envelope.gossip.map (·.id)) (by simp [Bytes.Bring, read])
  | .error fault => .isFalse (by simp [Bytes.Bring, read])

/-- An address has an item: a datagram that came from there brought it, or a
parcel that brings it was accepted for the address. -/
def Has (received : List Datagram) (sent : List Parcel) (address : SocketAddress)
    (id : GossipId) : Prop :=
  (∃ datagram ∈ received, datagram.sender = address ∧ datagram.payload.Bring id) ∨
    ∃ parcel ∈ sent, parcel.destination = address ∧ parcel.payload.Bring id

instance (received : List Datagram) (sent : List Parcel) (address : SocketAddress)
    (id : GossipId) : Decidable (Has received sent address id) :=
  inferInstanceAs (Decidable (_ ∨ _))

theorem Has.mono {received received' : List Datagram} {sent sent' : List Parcel}
    {address : SocketAddress} {id : GossipId} (has : Has received sent address id)
    (moreReceived : received ⊆ received') (moreSent : sent ⊆ sent') :
    Has received' sent' address id := by
  rcases has with ⟨datagram, arrived, offered⟩ | ⟨parcel, left, delivered⟩
  · exact Or.inl ⟨datagram, moreReceived arrived, offered⟩
  · exact Or.inr ⟨parcel, moreSent left, delivered⟩

namespace Courier

open Relation

inductive Errand : Courier → Courier → Prop where
  | broadcast {courier after : Courier} {payload : Payload}
      (queued : courier.broadcast payload = .ok after) : Errand courier after
  | discard (courier : Courier) (id : GossipId) :
      Errand courier { courier with queue := courier.queue.discard id }
  | convey {courier : Courier} {envelope : Envelope} {parcel : Parcel}
      (made : envelope.encode = .ok parcel.payload)
      (accepted : (courier.dispatch parcel).1 = true) :
      Errand courier
        ((courier.dispatch parcel).2.charge (envelope.gossip.map (·.id)) parcel.destination)
  | retire (courier : Courier) : Errand courier courier.retire
  | tune {courier after : Courier} {health : Health} {clusterSize : Nat}
      (tuned : courier.tune health clusterSize = .ok after) : Errand courier after
  | rename (courier : Courier) (own : Endpoint) : Errand courier (courier.setOwn own)
  | close (courier : Courier) : Errand courier courier.shutdown

abbrev Errands : Courier → Courier → Prop :=
  ReflTransGen Errand

variable {courier after : Courier} {received : List Datagram} {collected : List Parcel}

/-! ## Sending by errands -/

theorem Sheds.errands {gossip : List Gossip} (sheds : courier.Sheds gossip after) :
    Errands courier after := by
  cases sheds with
  | nothing => exact .refl
  | oversized _ _ => exact .single (.discard courier _)

private theorem errands_shrink (courier : Courier) (message : Message) (gossip : List Gossip) :
    Errands courier (courier.shrink message gossip).2 :=
  (sheds_shrink courier message gossip).errands

/-- Packed bytes are those of an envelope, which carries the items they are said
to carry. -/
private theorem exists_envelope_of_shrink {message : Message} {gossip : List Gossip}
    {payload : Bytes}
    {carried : List GossipId}
    (packed : (courier.shrink message gossip).1 = some (payload, carried)) :
    ∃ envelope : Envelope,
      envelope.encode = .ok payload ∧ envelope.gossip.map (·.id) = carried := by
  obtain ⟨front, _, made, ids⟩ := exists_front_of_shrink packed
  exact ⟨courier.envelope message front, made, ids.symm⟩

private theorem errands_convey {envelope : Envelope} {destination : SocketAddress}
    {delivery : Delivery} {payload : Bytes} {carried : List GossipId}
    (made : envelope.encode = .ok payload) (carries : envelope.gossip.map (·.id) = carried)
    (accepted : (courier.dispatch { destination, delivery, payload }).1 = true) :
    Errand courier
      ((courier.dispatch { destination, delivery, payload }).2.charge carried destination) := by
  subst carries
  exact @Errand.convey courier envelope { destination, delivery, payload } made accepted

private theorem charge_nil (courier : Courier) (destination : SocketAddress) :
    courier.charge [] destination = courier := by
  rw [charge, GossipQueue.markSent_nil]

/-- The link takes a parcel or leaves it. -/
theorem dispatch_cases (courier : Courier) (parcel : Parcel) :
    courier.dispatch parcel =
        (true,
          { courier with link := { courier.link with sent := courier.link.sent ++ [parcel] } }) ∨
      courier.dispatch parcel = (false, courier) := by
  unfold dispatch Link.send
  by_cases accepts : courier.link.accepts parcel.destination = true
  · exact Or.inl (by rw [if_pos accepts])
  · exact Or.inr (by rw [if_neg accepts])

/-- The courier when it has sent a message and nothing has retired yet. -/
def posted (courier : Courier) (message : Message) (destination : SocketAddress)
    (delivery : Delivery) : Courier :=
  match courier.pack message destination with
  | (none, courier) => courier
  | (some (payload, carried), courier) =>
      match courier.dispatch { destination, delivery, payload } with
      | (false, courier) => courier
      | (true, courier) => courier.charge carried destination

theorem errands_posted (courier : Courier) (message : Message) (destination : SocketAddress)
    (delivery : Delivery) : Errands courier (courier.posted message destination delivery) := by
  have packed : Errands courier (courier.pack message destination).2 :=
    errands_shrink courier message _
  unfold posted
  cases pack : courier.pack message destination with
  | mk datagram shrunk =>
      rw [pack] at packed
      cases datagram with
      | none => exact packed
      | some datagram =>
          obtain ⟨payload, carried⟩ := datagram
          obtain ⟨envelope, made, carries⟩ :=
            exists_envelope_of_shrink (congrArg Prod.fst pack)
          rcases dispatch_cases shrunk { destination, delivery, payload } with sent | refused
          · have conveyed :
                Errand shrunk
                  ((shrunk.dispatch { destination, delivery, payload }).2.charge carried
                    destination) :=
              errands_convey made carries (by rw [sent])
            rw [sent] at conveyed
            simp only [sent]
            exact packed.tail conveyed
          · simp only [refused]
            exact packed

/-- A send ends there, or with what retires. -/
private theorem send_cases (courier : Courier) (message : Message) (destination : SocketAddress)
    (delivery : Delivery) :
    (courier.send message destination delivery).2 = courier.posted message destination delivery ∨
      (courier.send message destination delivery).2 =
        (courier.posted message destination delivery).retire := by
  unfold send posted
  cases courier.pack message destination with
  | mk datagram shrunk =>
      cases datagram with
      | none => exact Or.inl rfl
      | some datagram =>
          obtain ⟨payload, carried⟩ := datagram
          rcases dispatch_cases shrunk { destination, delivery, payload } with sent | refused
          · simp only [sent]
            split
            · rename_i nothing
              rw [List.isEmpty_iff.mp nothing, charge_nil]
              exact Or.inl rfl
            · exact Or.inr rfl
          · simp only [refused]
            exact Or.inl trivial

theorem errands_send (courier : Courier) (message : Message) (destination : SocketAddress)
    (delivery : Delivery) : Errands courier (courier.send message destination delivery).2 := by
  have posted := errands_posted courier message destination delivery
  rcases send_cases courier message destination delivery with ended | retired
  · rw [ended]
    exact posted
  · rw [retired]
    exact posted.tail (.retire _)

/-- The bytes of a round are those of an envelope that carries its items. -/
def Round.Made (round : Round) : Prop :=
  ∃ envelope : Envelope,
    envelope.encode = .ok round.payload ∧ envelope.gossip.map (·.id) = round.carried

private theorem errands_packAll :
    ∀ (targets : List SocketAddress) (courier : Courier),
      Errands courier (packAll targets courier).2 ∧
        ∀ round ∈ (packAll targets courier).1, round.Made
  | [], _ => ⟨.refl, by simp [packAll]⟩
  | destination :: rest, courier => by
      have packed : Errands courier (courier.pack .gossip destination).2 :=
        errands_shrink courier .gossip _
      obtain ⟨others, made⟩ := errands_packAll rest (courier.pack .gossip destination).2
      unfold packAll
      simp only
      split
      · rename_i payload carried packs
        split
        · exact ⟨packed.trans others, made⟩
        · refine ⟨packed.trans others, fun round member => ?_⟩
          rcases List.mem_cons.mp member with rfl | later
          · exact exists_envelope_of_shrink packs
          · exact made round later
      · exact ⟨packed.trans others, made⟩

private theorem errands_deliver {round : Round} (made : round.Made) :
    Errands courier (courier.deliver round) := by
  obtain ⟨envelope, made, carries⟩ := made
  unfold deliver
  simp only
  split
  · rename_i accepted
    exact .single (errands_convey made carries accepted)
  · rename_i refused
    rcases dispatch_cases courier
        { destination := round.destination, delivery := .bestEffort, payload := round.payload } with
      sent | same
    · exact absurd (congrArg Prod.fst sent) refused
    · rw [same]

private theorem errands_deliverAll :
    ∀ {rounds : List Round} {courier : Courier}, (∀ round ∈ rounds, round.Made) →
      Errands courier (rounds.foldl deliver courier)
  | [], _, _ => .refl
  | round :: _, _, made =>
      (errands_deliver (made round (List.mem_cons_self ..))).trans
        (errands_deliverAll fun other member => made other (List.mem_cons_of_mem _ member))

theorem errands_spread (courier : Courier) (targets : List SocketAddress) :
    Errands courier (courier.spread targets) := by
  unfold spread
  split
  · exact .refl
  · obtain ⟨packed, made⟩ := errands_packAll targets courier
    exact (packed.trans (errands_deliverAll made)).tail (.retire _)

/-! ## Who has what -/

/-- The courier's queue is right about who has its items, as far as what came in
and what went out tells: what was collected from the link, and what still lies
there. -/
def Truthful (received : List Datagram) (collected : List Parcel) (courier : Courier) : Prop :=
  courier.queue.Truthful (Has received (collected ++ courier.link.sent))

private theorem Truthful.errand (truthful : courier.Truthful received collected)
    (errand : Errand courier after) : after.Truthful received collected := by
  cases errand with
  | broadcast queued =>
      obtain ⟨result, enqueued, same⟩ := Attempt.bind_eq_ok queued
      obtain ⟨id, queue⟩ := result
      cases same
      exact GossipQueue.Truthful.enqueue truthful enqueued
  | discard id => exact GossipQueue.Truthful.discard truthful id
  | retire => exact GossipQueue.Truthful.retire truthful courier.limit courier.peers
  | tune tuned =>
      obtain ⟨limit, _, same⟩ := Attempt.bind_eq_ok tuned
      cases same
      exact truthful
  | rename => exact truthful
  | close => exact truthful
  | @convey envelope parcel made accepted =>
      rcases dispatch_cases courier parcel with sent | refused
      · rw [sent]
        change GossipQueue.Truthful (Has received (collected ++ (courier.link.sent ++ [parcel])))
          (courier.queue.markSent (envelope.gossip.map (·.id)) parcel.destination)
        have kept :
            courier.queue.Truthful
              (Has received (collected ++ (courier.link.sent ++ [parcel]))) := by
          refine GossipQueue.Truthful.mono truthful fun address id has => ?_
          refine has.mono (List.Subset.refl _) ?_
          rw [← List.append_assoc]
          exact List.subset_append_left _ _
        refine kept.markSent fun id carried => Or.inr ⟨parcel, by simp, rfl, envelope, ?_, carried⟩
        exact Envelope.decode_of_encode made
      · rw [refused] at accepted
        cases accepted

theorem Truthful.errands (truthful : courier.Truthful received collected)
    (errands : Errands courier after) : after.Truthful received collected := by
  induction errands with
  | refl => exact truthful
  | tail _ last inductionHypothesis => exact inductionHypothesis.errand last

def Unheld (courier : Courier) : Prop :=
  ∀ item ∈ courier.queue.pending, item.known = []

theorem unheld_of_new {options : Options} {own : Endpoint} {replica : ReplicaId} {link : Link}
    (made : Courier.new options own replica link = .ok courier) : courier.Unheld := by
  obtain ⟨limit, _, same⟩ := Attempt.bind_eq_ok made
  cases same
  simp [Unheld]

theorem Unheld.broadcast {payload : Payload} (unheld : courier.Unheld)
    (queued : courier.broadcast payload = .ok after) : after.Unheld := by
  obtain ⟨_, enqueued, same⟩ := Attempt.bind_eq_ok queued
  obtain ⟨_, _, pushed⟩ := Attempt.bind_eq_ok enqueued
  cases pushed
  cases same
  intro item member
  rcases GossipQueue.mem_of_mem_push member with earlier | rfl
  · rw [GossipQueue.pending_remember] at earlier
    exact unheld item earlier
  · rfl

theorem Unheld.truthful (unheld : courier.Unheld) : courier.Truthful received collected := by
  intro item queued
  have nobody := unheld item queued
  exact { nodup := by simp [nobody], held := by simp [nobody] }

/-! ## What arrives -/

theorem GossipQueue.Truthful.offerAll {has : SocketAddress → GossipId → Prop}
    {sender : SocketAddress} :
    ∀ {items : List Gossip} {queue : GossipQueue}, queue.Truthful has →
      (∀ id ∈ items.map (·.id), has sender id) →
        (Courier.offerAll sender items queue).2.Truthful has
  | [], _, truthful, _ => truthful
  | item :: _, _, truthful, offered => by
      simp only [Courier.offerAll]
      have first := offered item.id (List.mem_cons_self ..)
      refine GossipQueue.Truthful.offerAll (truthful.offer first) fun id member => ?_
      exact offered id (List.mem_cons_of_mem _ member)

/-- What came in when the courier has taken in a datagram: nothing new if it was
dropped. -/
def admitted (courier : Courier) (datagram : Datagram) : List Datagram :=
  if (courier.accept datagram).1.isSome then [datagram] else []

theorem Truthful.accept (truthful : courier.Truthful received collected) (datagram : Datagram) :
    (courier.accept datagram).2.Truthful (received ++ courier.admitted datagram) collected := by
  have kept :
      courier.Truthful (received ++ courier.admitted datagram) collected :=
    GossipQueue.Truthful.mono truthful fun address id has =>
      has.mono (List.subset_append_left _ _) (List.Subset.refl _)
  unfold Courier.accept
  cases read : Envelope.decode datagram.payload with
  | error fault => exact kept
  | ok envelope =>
      simp only
      split
      · exact kept
      · rename_i relevant
        have admits : courier.admitted datagram = [datagram] := by
          simp [admitted, Courier.accept, read, relevant]
        refine GossipQueue.Truthful.offerAll kept fun id carried => Or.inl ⟨datagram, ?_, rfl, ?_⟩
        · simp [admits]
        · exact ⟨envelope, read, carried⟩

end Courier

end Roster
