import Roster.Proofs.Node.Conduct
import Roster.Proofs.Node.Newcomer

/-!
# What refutes a suspicion

A node keeps no record of refutations.  Word from a suspected member answers
the suspicions that were heeded before, and none that is heeded after it: then
the node suspects the member until it hears of it again.
-/

namespace Roster

namespace Node

/-! ## Settling -/

/-- The members and the endpoint stay as they are, and so do the suspicions of
members; those of others may be dropped. -/
structure Tidies (before after : Node) : Prop where
  members_eq : after.list.members = before.list.members
  own_eq : after.list.own = before.list.own
  detectorOwn_eq : after.eviction.detector.own = before.eviction.detector.own
  suspicion_eq : ∀ target,
    after.eviction.detector.suspicions.get? target =
        before.eviction.detector.suspicions.get? target ∨
      before.list.members.contains target = false ∧
        after.eviction.detector.suspicions.get? target = none

namespace Tidies

variable {before after : Node}

theorem refl (node : Node) : Tidies node node :=
  ⟨rfl, rfl, rfl, fun _ => Or.inl rfl⟩

theorem trans {first second third : Node} (left : Tidies first second)
    (right : Tidies second third) : Tidies first third where
  members_eq := right.members_eq.trans left.members_eq
  own_eq := right.own_eq.trans left.own_eq
  detectorOwn_eq := right.detectorOwn_eq.trans left.detectorOwn_eq
  suspicion_eq target := by
    rcases right.suspicion_eq target with same | ⟨stranger, dropped⟩
    · rw [same]
      exact left.suspicion_eq target
    · exact Or.inr ⟨left.members_eq ▸ stranger, dropped⟩

instance : IsPreorder Node Tidies where
  refl := refl
  trans _ _ _ := trans

/-- To settle is to tidy up. -/
theorem settle (node : Node) : Tidies node (Node.settle.run node).2 := by
  refine Activity.step_of_steps (within_settle_of (fun _ => ?_) (fun _ => ?_) ?_ node)
  · exact ⟨rfl, rfl, rfl, fun _ => Or.inl rfl⟩
  · exact ⟨rfl, rfl, rfl, fun _ => Or.inl rfl⟩
  · refine Activity.within_get_bind fun node => Activity.steps_lift_bind fun courier _ => ?_
    refine Relation.ReflTransGen.single ⟨rfl, rfl, rfl, fun target => ?_⟩
    have retained :=
      node.eviction.detector.suspicions.get?_filter
        (fun target _ => node.list.members.contains target) target
    cases member : node.list.members.contains target with
    | true =>
        refine Or.inl (retained.trans ?_)
        cases node.eviction.detector.suspicions.get? target <;> simp [member]
    | false =>
        refine Or.inr ⟨rfl, retained.trans ?_⟩
        cases node.eviction.detector.suspicions.get? target <;> simp [member]

theorem blames (tidies : Tidies before after) {target suspector : Endpoint}
    (blamed : before.eviction.detector.Blames target suspector)
    (member : before.list.members.contains target = true) :
    after.eviction.detector.Blames target suspector := by
  obtain ⟨suspicion, found, among⟩ := blamed
  rcases tidies.suspicion_eq target with same | ⟨stranger, _⟩
  · exact ⟨suspicion, same.trans found, among⟩
  · rw [member] at stranger
    cases stranger

end Tidies

theorem Lives.settled {own : Endpoint} {node : Node} (listed : node.list.own = own)
    (named : node.eviction.detector.own = own)
    (unsuspecting : node.eviction.detector.suspicions = SortedMap.empty) :
    Lives own (Node.settle.run node).2 [] := by
  have tidies := Tidies.settle node
  refine .start (tidies.own_eq.trans listed) (tidies.detectorOwn_eq.trans named) ?_
  refine SortedMap.ext_get? fun target => ?_
  rcases tidies.suspicion_eq target with unchanged | ⟨_, dropped⟩
  · rw [unchanged, unsuspecting]
  · rw [dropped, SortedMap.get?_empty]

/-- A new node begins its life. -/
theorem Lives.new {options : Options} {own : Endpoint} {tags : Tags} {replica : ReplicaId}
    {link : Link} {chance : Chance} {node : Node}
    (made : Node.new options own tags replica link chance = .ok node) : Lives own node [] := by
  obtain ⟨courier, _, settled⟩ := exists_unsettled_of_new made
  have lives :
      Lives own (Node.settle.run (unsettled options own tags replica link chance courier)).2 [] :=
    .settled (MemberList.own_new own tags replica) rfl rfl
  rwa [settled] at lives

/-! ## To heed a suspicion -/

private theorem eviction_broadcast (node : Node) (payload : Payload) :
    ((broadcast payload).run node).2.eviction = node.eviction := by
  unfold broadcast
  rw [Activity.run_get_bind]
  cases node.courier.broadcast payload <;> rfl

/-- To heed a suspicion by another host makes the node suspect a member because
of it, whatever it has heeded before; only suspicions of the own host are
denied. -/
private theorem blames_heedSuspicion_iff {node after : Node} {target suspector : Endpoint}
    {now : Nat}
    (named : node.eviction.detector.own = node.list.own)
    (foreign : suspector.sameHost node.list.own = false)
    (heeded : (heedSuspicion target suspector now).run node = (.ok (), after)) :
    after.eviction.detector.Blames target suspector ↔
      node.eviction.detector.Blames target suspector ∨
        node.list.contains target = true ∧
          ¬ (target.sameHost node.list.own = true ∧
            target.incarnation ≤ node.list.own.incarnation) := by
  unfold heedSuspicion at heeded
  rw [Activity.run_get_bind] at heeded
  simp only at heeded
  split at heeded
  · rename_i denied
    have sameEviction : after.eviction = node.eviction := by
      rw [← eviction_broadcast node (.alive node.list.own), heeded]
    have ownTarget := (Bool.and_eq_true_iff.mp denied)
    rw [sameEviction]
    simp only [ownTarget.1, of_decide_eq_true ownTarget.2, and_self, not_true, and_false,
      or_false]
  rename_i undenied
  have otherHost :
      ¬ (target.sameHost node.list.own = true ∧
        target.incarnation ≤ node.list.own.incarnation) := by
    simpa using undenied
  split at heeded
  · rename_i member
    have foreignDetector : suspector ≠ node.eviction.detector.own := by
      rintro rfl
      rw [named, Endpoint.sameHost_iff.mpr ⟨rfl, rfl⟩] at foreign
      cases foreign
    have foreignTarget : target ≠ node.eviction.detector.own := by
      rintro rfl
      rw [named] at otherHost
      exact otherHost ⟨Endpoint.sameHost_iff.mpr ⟨rfl, rfl⟩, UInt64.le_refl _⟩
    cases suspected : node.eviction.detector.suspect target suspector now with
    | error overflow =>
        rw [suspected] at heeded
        cases heeded
    | ok result =>
        obtain ⟨finding, detector⟩ := result
        cases Detector.finding_of_suspect foreignDetector suspected
        rw [suspected] at heeded
        cases heeded
        have blames :
            detector.Blames target suspector ↔
              node.eviction.detector.Blames target suspector ∨
                target ≠ node.eviction.detector.own ∧ target = target ∧ suspector = suspector :=
          Detector.blames_suspect_iff suspected
        simpa [foreignTarget, member, otherHost] using blames
  · rename_i stranger
    cases heeded
    simp [stranger]

/-- A member that is suspected when a datagram was attended to is suspected when
it has arrived. -/
private theorem blames_step {node : Node} {moment : Moment} {datagram : Datagram}
    {target suspector : Endpoint}
    (accepted : ((attend moment datagram).run node).1 = .ok true)
    (blamed : ((attend moment datagram).run node).2.eviction.detector.Blames target suspector)
    (member : ((attend moment datagram).run node).2.list.members.contains target = true) :
    ((step moment (.datagram datagram)).run node).2.eviction.detector.Blames target
      suspector := by
  cases attended : (attend moment datagram).run node with
  | mk outcome after =>
      rw [attended] at accepted blamed member
      cases accepted
      rw [step, arrive_eq, Activity.run_bind_of_ok attended]
      exact (Tidies.settle after).blames blamed member

/-! ## Suspicions that fit -/

private theorem SuspicionTiming.shortest_lt (options : DetectorOptions) (size : Nat) :
    (SuspicionTiming.measured options).shortest size < Word.bound :=
  UInt64.toNat_lt _

theorem SuspicionTiming.timeout_lt (options : DetectorOptions) (size suspectors : Nat) :
    (SuspicionTiming.measured options).timeout size suspectors < Word.bound :=
  UInt64.toNat_lt _

/-- Suspicions take as long as they did. -/
abbrev SameTiming (before after : Node) : Prop :=
  after.eviction.detector.timing = before.eviction.detector.timing

instance : IsPreorder Node SameTiming where
  refl _ := rfl
  trans _ _ _ first second := second.trans first

theorem SameTiming.conducts : Conducts SameTiming where
  broadcast _ := rfl
  send _ _ _ _ := rfl
  rename _ _ := rfl
  ask operated _ := (Detector.bounds_of_operate operated).2
  other _ _ _ _ _ _ := rfl
  tune _ := rfl
  change operated _ := (Detector.bounds_of_operate operated).2
  switch _ _ := rfl
  healing _ _ := rfl
  schedule _ _ := rfl
  spreading _ _ := rfl
  retry _ := rfl
  shut _ := rfl
  requests _ _ _ _ := rfl

theorem SameTiming.judges : Judges SameTiming where
  judge operated _ := (Detector.bounds_of_operate operated).2

private theorem timing_step (node : Node) (moment : Moment) (event : Event) :
    ((step moment event).run node).2.eviction.detector.timing =
      node.eviction.detector.timing := by
  have same :
      SameTiming { node with courier := node.attending (.event event) }
        ((act moment (.event event)).run node).2 :=
    Activity.step_of_steps <|
      SameTiming.conducts.steps_act SameTiming.judges fun _ _ sequence target alive _ =>
        SameTiming.conducts.within_receiveIndirectAck sequence target alive moment.now
          fun {node findings detector} received => by
            have operated :
                node.eviction.detector.operate
                    (.receiveIndirectAck sequence target alive moment.now) =
                  .ok (findings, detector) :=
              received
            exact (Detector.bounds_of_operate operated).2
  exact same

/-- Suspicions of a reachable node take as long as was measured. -/
private theorem Reachable.exists_measured {node : Node} (reachable : Reachable node) :
    ∃ options, node.eviction.detector.timing = SuspicionTiming.measured options := by
  induction reachable with
  | @start options own tags replica link chance node made =>
      obtain ⟨courier, _, settled⟩ := exists_unsettled_of_new made
      have same : SameTiming (unsettled options own tags replica link chance courier) node :=
        Activity.Within.of_run SameTiming.conducts.within_settle settled
      exact ⟨options.detection, same⟩
  | @step node after moment event _ _ stepped inductionHypothesis =>
      have same := timing_step node moment event
      rw [stepped] at same
      rwa [same]
  | relink _ _ inductionHypothesis => exact inductionHypothesis
  | watch _ _ inductionHypothesis => exact inductionHypothesis

/-- The node may come to suspect the target because of the suspector: they are not of its
own, and nobody suspects the target yet. -/
def MayBlame (node : Node) (target suspector : Endpoint) : Prop :=
  node.eviction.detector.own = node.list.own ∧ target.sameHost node.list.own = false ∧
    suspector.sameHost node.list.own = false ∧ node.list.contains target = true ∧
    node.eviction.detector.isSuspected target = false

instance (node : Node) (target suspector : Endpoint) : Decidable (node.MayBlame target suspector) :=
  inferInstanceAs (Decidable (_ ∧ _))

/-- At the very beginning a suspicion fits, however long it takes. -/
private theorem exists_heedSuspicion {node : Node} {target suspector : Endpoint}
    {options : DetectorOptions}
    (measured : node.eviction.detector.timing = SuspicionTiming.measured options)
    (mayBlame : node.MayBlame target suspector) :
    ∃ after, (heedSuspicion target suspector 0).run node = (.ok (), after) ∧
      after.eviction.detector.Blames target suspector ∧ after.list = node.list := by
  obtain ⟨named, elsewhere, foreign, member, unsuspected⟩ := mayBlame
  have foreignSuspector : suspector ≠ node.eviction.detector.own := by
    rintro rfl
    rw [named, Endpoint.sameHost_iff.mpr ⟨rfl, rfl⟩] at foreign
    cases foreign
  have foreignTarget : target ≠ node.eviction.detector.own := by
    rintro rfl
    rw [named, Endpoint.sameHost_iff.mpr ⟨rfl, rfl⟩] at elsewhere
    cases elsewhere
  have nobody : node.eviction.detector.suspicions.get? target = none :=
    SortedMap.contains_eq_false_iff.mp unsuspected
  have shortest :
      Word.add 0 (node.eviction.detector.timing.shortest node.eviction.detector.clusterSize) =
        .ok (0 + node.eviction.detector.timing.shortest node.eviction.detector.clusterSize) := by
    refine Word.add_eq_ok ?_
    rw [measured, Nat.zero_add]
    exact SuspicionTiming.shortest_lt options _
  have timeout :
      Word.add 0 (node.eviction.detector.suspicionTimeout 1) =
        .ok (0 + node.eviction.detector.suspicionTimeout 1) := by
    refine Word.add_eq_ok ?_
    rw [Detector.suspicionTimeout, measured, Nat.zero_add]
    exact SuspicionTiming.timeout_lt options _ _
  have suspected : ∃ detector,
      node.eviction.detector.suspect target suspector 0 = .ok (none, detector) := by
    unfold Detector.suspect Detector.suspicionDeadline
    simp only [if_neg foreignTarget, nobody, shortest, timeout, foreignSuspector]
    exact ⟨_, rfl⟩
  obtain ⟨detector, suspected⟩ := suspected
  let after : Node := { node with eviction := { node.eviction with detector } }
  have heeded : (heedSuspicion target suspector 0).run node = (.ok (), after) := by
    unfold heedSuspicion
    rw [Activity.run_get_bind]
    simp only [elsewhere, member, Bool.false_and, Bool.false_eq_true, if_false, if_true]
    exact Activity.run_lift_bind_of_ok suspected
  refine ⟨after, heeded, ?_, rfl⟩
  exact (blames_heedSuspicion_iff named foreign heeded).mpr (Or.inr ⟨member, by simp [elsewhere]⟩)

/-! ## A datagram that tells of a suspicion -/

/-- A node that can heed all but the last of some items begins to heed them all. -/
private theorem heeded_concat {moment : Moment} {middle : Node} {last : Payload} :
    ∀ {front : List Payload} {node : Node},
      (front.forM (heed moment)).run node = (.ok (), middle) →
        heeded moment (front ++ [last]) node = front ++ [last]
  | [], node, _ => by
      rw [List.nil_append, heeded]
      cases (heed moment last).run node with
      | mk outcome after => cases outcome <;> rfl
  | first :: rest, node, done => by
      obtain ⟨_, _, firstOk, restOk⟩ := Activity.run_bind_eq_ok done
      rw [List.cons_append, heeded, firstOk]
      exact congrArg (List.cons first) (heeded_concat restOk)

/-- A node that takes in a datagram and heeds some items at the very beginning. -/
def heeding (datagram : Datagram) (items : List Payload) (node : Node) :
    Except Overflow Unit × Node :=
  (items.forM (heed dawn)).run { node with courier := (node.courier.accept datagram).2 }

/-- A datagram carries nothing but gossip, and one item tells of a suspicion.  The node heeds
what comes before that, and may blame the target then. -/
structure Persuades (datagram : Datagram) (front : List Payload) (target suspector : Endpoint)
    (rest : List Payload) (node : Node) : Prop where
  tells :
    (node.courier.accept datagram).1.map
        (fun inbound => (inbound.envelope.message, inbound.tidings)) =
      some (.gossip, front ++ [.suspect target suspector] ++ rest)
  heeded : (node.heeding datagram front).1 = .ok ()
  mayBlame : (node.heeding datagram front).2.MayBlame target suspector
  member : (node.heeding datagram front).2.list.members.contains target = true

section Persuaded

variable {node : Node} {datagram : Datagram} {front rest : List Payload}
  {target suspector : Endpoint}

private theorem persuades_iff :
    node.Persuades datagram front target suspector rest ↔
      (node.courier.accept datagram).1.map
            (fun inbound => (inbound.envelope.message, inbound.tidings)) =
          some (.gossip, front ++ [.suspect target suspector] ++ rest) ∧
        (node.heeding datagram front).1 = .ok () ∧
        (node.heeding datagram front).2.MayBlame target suspector ∧
        (node.heeding datagram front).2.list.members.contains target = true :=
  ⟨fun ⟨tells, heeded, mayBlame, member⟩ => ⟨tells, heeded, mayBlame, member⟩,
    fun ⟨tells, heeded, mayBlame, member⟩ => ⟨tells, heeded, mayBlame, member⟩⟩

instance : Decidable (node.Persuades datagram front target suspector rest) :=
  decidable_of_iff' _ persuades_iff

namespace Persuades

/-- The node heeds the suspicion, too. -/
private theorem exists_heeding (reachable : Reachable node)
    (persuades : node.Persuades datagram front target suspector rest) :
    ∃ after, node.heeding datagram (front ++ [.suspect target suspector]) = (.ok (), after) ∧
      after.eviction.detector.Blames target suspector ∧
      after.list.members.contains target = true := by
  let taken : Node := { node with courier := (node.courier.accept datagram).2 }
  have sameTiming : SameTiming taken (node.heeding datagram front).2 :=
    Activity.step_of_steps <|
      Activity.within_forM
        (fun payload =>
          SameTiming.conducts.within_heed dawn payload SameTiming.judges.suspect) front taken
  obtain ⟨options, measured⟩ := reachable.exists_measured
  obtain ⟨after, suspects, blamed, sameList⟩ :=
    exists_heedSuspicion (sameTiming.trans measured) persuades.mayBlame
  have begun : (front.forM (heed dawn)).run taken = (.ok (), (node.heeding datagram front).2) :=
    Prod.ext persuades.heeded rfl
  refine ⟨after, ?_, blamed, sameList ▸ persuades.member⟩
  exact (Activity.run_forM_append_of_ok begun).trans (Activity.run_forM_of_ok suspects)

private theorem exists_accepted (persuades : node.Persuades datagram front target suspector rest) :
    ∃ inbound courier, node.courier.accept datagram = (some inbound, courier) ∧
      inbound.envelope.message = .gossip ∧
      inbound.tidings = front ++ [.suspect target suspector] ++ rest := by
  obtain ⟨inbound, accepted, told⟩ := Option.map_eq_some_iff.mp persuades.tells
  exact ⟨inbound, _, Prod.ext accepted rfl, (Prod.mk.inj told).1, (Prod.mk.inj told).2⟩

/-- If the suspicion comes last, the node blames the target once it has settled. -/
theorem blames (reachable : Reachable node)
    (persuades : node.Persuades datagram front target suspector []) :
    node.hears dawn (.datagram datagram) = front ++ [.suspect target suspector] ∧
      ((step dawn (.datagram datagram)).run node).2.eviction.detector.Blames target
        suspector := by
  obtain ⟨inbound, courier, accepted, gossips, tidings⟩ := persuades.exists_accepted
  obtain ⟨after, heeded, blamed, member⟩ := persuades.exists_heeding reachable
  rw [List.append_nil] at tidings
  rw [heeding, accepted] at heeded
  have begun := persuades.heeded
  rw [heeding, accepted] at begun
  have attended : (attend dawn datagram).run node = (.ok true, after) := by
    rw [run_attend_of_accepted accepted, tidings, gossips, Activity.run_bind_of_ok heeded]
    rfl
  constructor
  · rw [hears_of_accepted accepted, tidings]
    exact heeded_concat (Prod.ext begun rfl)
  · exact blames_step (by rw [attended]) (by rwa [attended]) (by rwa [attended])

/-- What comes after the suspicion is heeded after it. -/
theorem hears (reachable : Reachable node) {last : Payload}
    (persuades : node.Persuades datagram front target suspector [last]) :
    node.hears dawn (.datagram datagram) = front ++ [.suspect target suspector] ++ [last] := by
  obtain ⟨inbound, courier, accepted, _, tidings⟩ := persuades.exists_accepted
  obtain ⟨after, heeded, _⟩ := persuades.exists_heeding reachable
  rw [heeding, accepted] at heeded
  rw [hears_of_accepted accepted, tidings]
  exact heeded_concat heeded

end Persuades

end Persuaded

/-! ## The order of suspicion and refutation -/

/-- Once a suspicion was refuted after it was heeded last, the node does not
suspect the target because of it, whichever envelopes brought the two. -/
theorem refuted_suspicion_gone {node : Node} {heard before after : List Payload}
    {own target suspector refuting : Endpoint} (lives : Lives own node heard)
    (foreign : suspector.sameHost own = false)
    (order : heard = before ++ .alive refuting :: after) (refutes : refuting.Refutes target)
    (silent : .suspect target suspector ∉ after) :
    ¬ node.eviction.detector.Blames target suspector := by
  intro blamed
  have outstanding := lives.accounts.outstanding foreign blamed
  rw [order] at outstanding
  exact not_outstanding refutes silent outstanding

def accusation : Gossip :=
  { id := { origin := ⟨3⟩, sequence := 2 }, payload := .suspect watched accuser }

def refutation : Gossip :=
  { id := { origin := ⟨2⟩, sequence := 2 }, payload := .alive watched }

/-- A node that knows the watched member, once the accuser has gossiped some items. -/
def told (items : List Gossip) : Node :=
  ((step dawn (.datagram (mail accuser .gossip items))).run acquainted).2

private theorem lives_acquainted :
    Lives newcomer.own acquainted [.alive watched, .alive watched] := by
  have own : newcomer.own = ⟨"10.0.0.1", 1, 5⟩ := by
    decide +kernel
  have joined :=
    (Lives.new new_newcomer).step dawn (.datagram (introduction watched ⟨2⟩))
  have heard :
      newcomer.hears dawn (.datagram (introduction watched ⟨2⟩)) =
        [.alive watched, .alive watched] := by
    decide +kernel
  rw [run_foreseen foresee_introduction, heard] at joined
  rwa [own]

private theorem lives_told (items : List Gossip) :
    Lives newcomer.own (told items)
      ([.alive watched, .alive watched] ++
        acquainted.hears dawn (.datagram (mail accuser .gossip items))) :=
  lives_acquainted.step dawn _

private theorem blames_told {items : List Gossip} {front : List Payload}
    (persuades :
      acquainted.Persuades (mail accuser .gossip items) front watched accuser []) :
    (told items).eviction.detector.Blames watched accuser := by
  unfold told
  exact (persuades.blames reachable_acquainted).2

/-- The node heeds the suspicion and then the answer, in one envelope. -/
theorem refuted_suspicion_gone_told :
    (told [accusation]).eviction.detector.Blames watched accuser ∧
      ¬ (told [accusation, refutation]).eviction.detector.Blames watched accuser := by
  have persuades :
      acquainted.Persuades (mail accuser .gossip [accusation]) [.alive accuser] watched accuser
        [] := by
    decide +kernel
  have answered :
      acquainted.Persuades (mail accuser .gossip [accusation, refutation]) [.alive accuser] watched
        accuser [.alive watched] := by
    decide +kernel
  have foreign : accuser.sameHost newcomer.own = false := by
    decide +kernel
  have order :
      [.alive watched, .alive watched] ++
          acquainted.hears dawn (.datagram (mail accuser .gossip [accusation, refutation])) =
        [.alive watched, .alive watched, .alive accuser, .suspect watched accuser] ++
          .alive watched :: [] := by
    rw [answered.hears reachable_acquainted]
    rfl
  refine ⟨blames_told persuades, ?_⟩
  exact refuted_suspicion_gone (lives_told _) foreign order ⟨by decide, by decide⟩ (by simp)

/-- A suspicion that is heeded after the word that answers it makes the node suspect the
member. -/
theorem belated_suspicion_stands :
    Reachable acquainted ∧
      Lives newcomer.own (told [refutation, accusation])
        [.alive watched, .alive watched, .alive accuser, .alive watched,
          .suspect watched accuser] ∧
      acquainted.list.contains watched = true ∧
      accuser.sameHost newcomer.own = false ∧ watched.Refutes watched ∧
      (told [refutation, accusation]).eviction.detector.Blames watched accuser := by
  have persuades :
      acquainted.Persuades (mail accuser .gossip [refutation, accusation])
        [.alive accuser, .alive watched] watched accuser [] := by
    decide +kernel
  have lives := lives_told [refutation, accusation]
  rw [(persuades.blames reachable_acquainted).1] at lives
  have blamed := blames_told persuades
  refine ⟨reachable_acquainted, lives, by decide +kernel, by decide +kernel, ?_, blamed⟩
  exact ⟨by decide, by decide⟩

end Node

end Roster
