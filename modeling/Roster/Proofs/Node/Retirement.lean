import Roster.Proofs.Courier.Errand
import Roster.Proofs.Node.Conduct
import Roster.Proofs.Node.Refutation

/-!
# Items that retire early

A node uses its courier for errands and for what arrives.  So in all that a node
does its courier is right about who has an item, and an item that retires before
it was sent often enough is one that as many addresses have as the node counts
peers.  These need not be the addresses of the peers: whoever offers an item
counts, member or not.
-/

namespace Roster

namespace Node

open Activity Relation

/-! ## What a node uses its courier for -/

/-- The courier goes on by errands. -/
abbrev Serves (before after : Node) : Prop :=
  before.courier.Errands after.courier

instance : IsPreorder Node Serves where
  refl _ := .refl
  trans _ _ _ := .trans

variable {node after : Node}

theorem Serves.conducts : Conducts Serves where
  broadcast queued := .single (.broadcast queued)
  send node message destination delivery := node.courier.errands_send message destination delivery
  rename node own := .single (.rename node.courier own)
  ask _ _ := .refl
  other _ _ _ _ _ _ := .refl
  tune tuned := .single (.tune tuned)
  change _ _ := .refl
  switch _ _ := .refl
  healing _ _ := .refl
  schedule _ _ := .refl
  spreading node targets := node.courier.errands_spread targets
  retry _ := .refl
  shut node := .single (.close node.courier)
  requests _ _ _ _ := .refl

theorem Serves.judges : Judges Serves where
  judge _ _ := .refl

/-- Once it has turned to an occasion, a node uses its courier for errands
only. -/
private theorem errands_act (node : Node) (moment : Moment) (occasion : Occasion) :
    (node.attending occasion).Errands ((act moment occasion).run node).2.courier := by
  have serves :
      Serves { node with courier := node.attending occasion }
        ((act moment occasion).run node).2 :=
    step_of_steps <|
      Serves.conducts.steps_act Serves.judges fun _ _ sequence target alive _ =>
        Serves.conducts.within_receiveIndirectAck sequence target alive moment.now
          fun _ => .refl
  exact serves

/-! ## The traffic of a node -/

/-- What comes in when a node turns to an occasion. -/
def admitted (node : Node) : Occasion → List Datagram
  | .event (.datagram datagram) => node.courier.admitted datagram
  | _ => []

/-- As long as nobody was known to have any item, nobody is. -/
abbrev Withholds (before after : Node) : Prop :=
  before.courier.Unheld → after.courier.Unheld

private theorem steps_withhold {before : Node} (steps : ReflTransGen Withholds before after) :
    Withholds before after := by
  induction steps with
  | refl => exact id
  | tail _ last inductionHypothesis => exact last ∘ inductionHypothesis

private theorem withholds_settle : Within Withholds settle := by
  refine within_settle_of (fun _ => id) (fun queued unheld => unheld.broadcast queued) ?_
  refine within_get_bind fun node => steps_lift_bind fun courier tuned => ?_
  obtain ⟨limit, _, same⟩ := Attempt.bind_eq_ok tuned
  cases same
  exact .single id

private theorem unheld_of_settle {outcome : Except Overflow Unit} (unheld : node.courier.Unheld)
    (settled : settle.run node = (outcome, after)) : after.courier.Unheld := by
  have withheld := steps_withhold (withholds_settle node) unheld
  rw [settled] at withheld
  exact withheld

/-- The traffic of a node since a time when nobody was known to have any item of
its queue: the datagrams it has taken in, and the parcels the network has
collected from its link.  Meanwhile the link may change, and the envelopes that
are observed may be taken. -/
inductive Traffic : Node → List Datagram → List Parcel → Prop where
  | start {node : Node} (unheld : node.courier.Unheld) : Traffic node [] []
  | act {node : Node} {received : List Datagram} {collected : List Parcel} (moment : Moment)
      (occasion : Occasion) (traffic : Traffic node received collected) :
      Traffic ((Node.act moment occasion).run node).2 (received ++ node.admitted occasion)
        collected
  | collect {node : Node} {received : List Datagram} {collected : List Parcel} (link : Link)
      (emptied : link.sent = []) (traffic : Traffic node received collected) :
      Traffic { node with courier := { node.courier with link } } received
        (collected ++ node.courier.link.sent)
  | watch {node : Node} {received : List Datagram} {collected : List Parcel}
      (observed : Option (List Envelope)) (traffic : Traffic node received collected) :
      Traffic { node with courier := { node.courier with observed } } received collected

/-- It begins when the node is made. -/
theorem traffic_new {options : Options} {own : Endpoint} {tags : Tags} {replica : ReplicaId}
    {link : Link} {chance : Chance}
    (made : Node.new options own tags replica link chance = .ok node) : Traffic node [] [] := by
  obtain ⟨courier, courierOk, settled⟩ := exists_unsettled_of_new made
  exact .start (unheld_of_settle (Courier.unheld_of_new courierOk) settled)

variable {received : List Datagram} {collected : List Parcel}

private theorem truthful_attending (truthful : node.courier.Truthful received collected)
    (occasion : Occasion) :
    (node.attending occasion).Truthful (received ++ node.admitted occasion) collected := by
  cases occasion with
  | desertion => simpa [admitted, attending] using truthful
  | event event =>
      cases event with
      | command ticket command => simpa [admitted, attending] using truthful
      | datagram datagram => exact truthful.accept datagram
      | tick => simpa [admitted, attending] using truthful

theorem Traffic.truthful (traffic : Traffic node received collected) :
    node.courier.Truthful received collected := by
  induction traffic with
  | start unheld => exact unheld.truthful
  | act moment occasion _ inductionHypothesis =>
      exact (truthful_attending inductionHypothesis occasion).errands (errands_act _ _ _)
  | collect link emptied _ inductionHypothesis =>
      unfold Courier.Truthful at *
      simpa [emptied] using inductionHypothesis
  | watch observed _ inductionHypothesis => exact inductionHypothesis

/-! ## What retires early -/

/-- On every occasion a node uses its courier for errands, and whenever in the
course of errands an item retires that was sent to fewer addresses than the
limit, at least as many addresses as the courier counts peers have the item.  So
all others have it as long as those are their addresses and they are no more. -/
theorem holders_of_retired_early (traffic : Traffic node received collected)
    (moment : Moment) (occasion : Occasion) :
    (node.attending occasion).Errands ((act moment occasion).run node).2.courier ∧
      ∀ courier, (node.attending occasion).Errands courier →
        ∀ item ∈ courier.queue.pending, item ∉ courier.retire.queue.pending →
          item.transmits < max courier.limit 1 →
            0 < courier.peers ∧ item.known.Nodup ∧ courier.peers ≤ item.known.length ∧
              (∀ address ∈ item.known,
                Has (received ++ node.admitted occasion) (collected ++ courier.link.sent) address
                  item.gossip.id) ∧
                ∀ others : List SocketAddress, item.known ⊆ others →
                  others.length ≤ courier.peers → ∀ address ∈ others,
                    Has (received ++ node.admitted occasion) (collected ++ courier.link.sent)
                      address item.gossip.id := by
  refine ⟨errands_act node moment occasion, ?_⟩
  intro courier errands item queued retired early
  have truthful := (truthful_attending traffic.truthful occasion).errands errands item queued
  obtain ⟨some, enough⟩ := GossipQueue.peers_le_of_retired queued retired early
  refine ⟨some, truthful.nodup, enough, truthful.held, ?_⟩
  intro others known few address other
  have all : item.known.Perm others :=
    (List.subperm_of_subset truthful.nodup known).perm_of_length_le
      (Nat.le_trans few enough)
  exact truthful.held address (all.mem_iff.mpr other)

/-! ## A node with one peer -/

def greeting : Gossip :=
  { id := { origin := ⟨9⟩, sequence := 1 }, payload := .alive passerby }

/-- The passerby brings it along with a ping. -/
def inquiry : Datagram :=
  mail passerby (.ping 1 newcomer.own) [greeting]

/-- The courier of the node when it has answered the ping and nothing has retired yet. -/
def replying : Courier :=
  (acquainted.attending (.event (.datagram inquiry))).posted (.ack 1)
    ⟨.v4 0x0a000009, 9, 0⟩ .bestEffort

def unsent : Pending :=
  { gossip := greeting, known := [⟨.v4 0x0a000009, 9, 0⟩] }

private theorem traffic_acquainted : Traffic acquainted [introduction watched ⟨2⟩] [] := by
  have joined :=
    (traffic_new new_newcomer).act dawn (.event (.datagram (introduction watched ⟨2⟩)))
  have stepped :
      (act dawn (.event (.datagram (introduction watched ⟨2⟩)))).run newcomer =
        (.ok (), acquainted) :=
    run_foreseen foresee_introduction
  have accepted : (newcomer.courier.accept (introduction watched ⟨2⟩)).1.isSome = true := by
    decide +kernel
  have admits :
      newcomer.admitted (.event (.datagram (introduction watched ⟨2⟩))) =
        [introduction watched ⟨2⟩] :=
    if_pos accepted
  rwa [stepped, admits] at joined

private theorem errands_replying :
    (acquainted.attending (.event (.datagram inquiry))).Errands replying :=
  Courier.errands_posted _ _ _ _

private theorem retired_replying :
    unsent ∈ replying.queue.pending ∧ unsent ∉ replying.retire.queue.pending ∧
      unsent.transmits < max replying.limit 1 := by
  decide +kernel

/-- As many addresses have the item as the node counts peers. -/
theorem holders_of_retired_early_replying :
    unsent.known.length = replying.peers ∧
      ∀ address ∈ unsent.known,
        Has ([introduction watched ⟨2⟩] ++ acquainted.admitted (.event (.datagram inquiry)))
          ([] ++ replying.link.sent) address greeting.id := by
  obtain ⟨queued, retired, early⟩ := retired_replying
  have holders :=
    (holders_of_retired_early traffic_acquainted dawn (.event (.datagram inquiry))).2 replying
      errands_replying unsent queued retired early
  obtain ⟨_, _, _, held, _⟩ := holders
  exact ⟨by decide +kernel, held⟩

/-- When the ping has been answered the item retires, though it was not sent at all and the
watched host, the only other member, does not have it.  It is gone before the node
settles. -/
theorem retired_before_member_has_it :
    Reachable acquainted ∧ Traffic acquainted [introduction watched ⟨2⟩] [] ∧
      (acquainted.attending (.event (.datagram inquiry))).Errands replying ∧
      unsent ∈ replying.queue.pending ∧ unsent ∉ replying.retire.queue.pending ∧
      unsent.transmits < max replying.limit 1 ∧
      acquainted.list.members.contains watched = true ∧ watched ≠ acquainted.list.own ∧
      watched.socketAddress? = some ⟨.v4 0x0a000002, 2, 0⟩ ∧
      ¬ Has ([introduction watched ⟨2⟩] ++ acquainted.admitted (.event (.datagram inquiry)))
        ([] ++ replying.link.sent) ⟨.v4 0x0a000002, 2, 0⟩ greeting.id ∧
      ((attend dawn inquiry).run acquainted).2.courier.queue.pending = [] ∧
      ((attend dawn inquiry).run acquainted).2.courier.link.sent = replying.link.sent := by
  obtain ⟨queued, retired, early⟩ := retired_replying
  refine ⟨reachable_acquainted, traffic_acquainted, errands_replying, queued, retired, early, ?_⟩
  decide +kernel

end Node

end Roster
