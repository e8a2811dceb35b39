import Roster.Proofs.Attempt
import Roster.Proofs.Courier.Packing

/-!
# What the courier keeps

To send, to spread and to receive moves gossip and datagrams.  The endpoint
that a courier sends under and the number of peers it counts on are set from
outside only.
-/

namespace Roster

namespace Courier

/-- The courier sends under the same endpoint and counts on as many peers. -/
structure Keeps (before after : Courier) : Prop where
  own_eq : after.own = before.own
  peers_eq : after.peers = before.peers

theorem Keeps.refl (courier : Courier) : courier.Keeps courier :=
  ⟨rfl, rfl⟩

theorem Keeps.trans {first second third : Courier} (left : first.Keeps second)
    (right : second.Keeps third) : first.Keeps third :=
  ⟨right.own_eq.trans left.own_eq, right.peers_eq.trans left.peers_eq⟩

variable {courier after : Courier}

theorem own_of_new {options : Options} {own : Endpoint} {replica : ReplicaId} {link : Link}
    (made : Courier.new options own replica link = .ok courier) : courier.own = own := by
  obtain ⟨limit, _, same⟩ := Attempt.bind_eq_ok made
  cases same
  rfl

theorem own_of_tune {health : Health} {clusterSize : Nat}
    (tuned : courier.tune health clusterSize = .ok after) : after.own = courier.own := by
  obtain ⟨limit, _, same⟩ := Attempt.bind_eq_ok tuned
  cases same
  rfl

theorem peers_of_tune {health : Health} {clusterSize : Nat}
    (tuned : courier.tune health clusterSize = .ok after) : after.peers = clusterSize - 1 := by
  obtain ⟨limit, _, same⟩ := Attempt.bind_eq_ok tuned
  cases same
  rfl

theorem keeps_broadcast {payload : Payload} (queued : courier.broadcast payload = .ok after) :
    courier.Keeps after := by
  obtain ⟨_, _, same⟩ := Attempt.bind_eq_ok queued
  cases same
  exact ⟨rfl, rfl⟩

/-! ## Sending -/

theorem Sheds.keeps {gossip : List Gossip} (sheds : courier.Sheds gossip after) :
    courier.Keeps after := by
  cases sheds with
  | nothing => exact .refl courier
  | oversized _ _ => exact ⟨rfl, rfl⟩

private theorem keeps_shrink (courier : Courier) (message : Message) (gossip : List Gossip) :
    courier.Keeps (courier.shrink message gossip).2 :=
  (sheds_shrink courier message gossip).keeps

private theorem keeps_pack (courier : Courier) (message : Message) (destination : SocketAddress) :
    courier.Keeps (courier.pack message destination).2 :=
  keeps_shrink courier message _

private theorem keeps_dispatch (courier : Courier) (parcel : Parcel) :
    courier.Keeps (courier.dispatch parcel).2 :=
  ⟨rfl, rfl⟩

theorem keeps_send (courier : Courier) (message : Message) (destination : SocketAddress)
    (delivery : Delivery) : courier.Keeps (courier.send message destination delivery).2 := by
  have packed := keeps_pack courier message destination
  unfold send
  cases pack : courier.pack message destination with
  | mk datagram shrunk =>
      rw [pack] at packed
      cases datagram with
      | none => exact packed
      | some datagram =>
          obtain ⟨payload, carried⟩ := datagram
          have dispatched :=
            packed.trans (keeps_dispatch shrunk { destination, delivery, payload })
          simp only
          cases dispatch : shrunk.dispatch { destination, delivery, payload } with
          | mk accepted sent =>
              rw [dispatch] at dispatched
              cases accepted with
              | false => exact dispatched
              | true =>
                  simp only
                  split
                  · exact dispatched
                  · exact ⟨dispatched.own_eq, dispatched.peers_eq⟩

private theorem keeps_packAll :
    ∀ (targets : List SocketAddress) (courier : Courier),
      courier.Keeps (packAll targets courier).2
  | [], courier => .refl courier
  | destination :: rest, courier => by
      have packed :=
        (keeps_pack courier .gossip destination).trans
          (keeps_packAll rest (courier.pack .gossip destination).2)
      unfold packAll
      simp only
      split
      · split
        · exact packed
        · exact packed
      · exact packed

private theorem keeps_deliver (courier : Courier) (round : Round) :
    courier.Keeps (courier.deliver round) := by
  unfold deliver
  simp only
  split
  · exact ⟨rfl, rfl⟩
  · exact ⟨rfl, rfl⟩

private theorem keeps_deliverAll :
    ∀ (rounds : List Round) (courier : Courier), courier.Keeps (rounds.foldl deliver courier)
  | [], courier => .refl courier
  | round :: rest, courier =>
      (keeps_deliver courier round).trans (keeps_deliverAll rest (courier.deliver round))

theorem keeps_spread (courier : Courier) (targets : List SocketAddress) :
    courier.Keeps (courier.spread targets) := by
  unfold spread
  split
  · exact .refl courier
  · have delivered :=
      (keeps_packAll targets courier).trans
        (keeps_deliverAll (packAll targets courier).1 (packAll targets courier).2)
    exact ⟨delivered.own_eq, delivered.peers_eq⟩

/-! ## Receiving -/

theorem keeps_accept (courier : Courier) (datagram : Datagram) :
    courier.Keeps (courier.accept datagram).2 := by
  unfold accept
  split
  · exact .refl courier
  · split
    · exact .refl courier
    · exact ⟨rfl, rfl⟩

end Courier

end Roster
