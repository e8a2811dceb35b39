import Roster.Proofs.Node.Rounds

/-!
# Rounds that end early

Every failure that a node counts for a round was reported to it.  So a round that has
ended before its time, though its target is suspected, was answered, or at least as
many failures were reported as helpers were asked.  These need not come from the
helpers: reports are counted whoever sends them, and however often they arrive.
-/

namespace Roster

/-- The message ends a round: it is the ack, or the report that the target is alive,
or the report of the last failure that the round needs. -/
def Message.Ends (message : Message) (sequence : UInt64) (probe : Probe) : Prop :=
  message = .ack sequence ∨ message = .indirectAck sequence probe.target true ∨
    message = .indirectAck sequence probe.target false ∧ 0 < probe.helpers ∧
      probe.helpers ≤ probe.nacks + 1

namespace Detector

variable {detector after : Detector} {sequence number : UInt64} {target : Endpoint}
  {probe : Probe} {now : Nat} {findings : List Finding}

/-- A report that does not end a round leaves it in flight. -/
private theorem inFlight_receiveIndirectAck {alive : Bool} (drawn : sequence < detector.next)
    (found : detector.probes.get? sequence = some probe)
    (survives : ¬ (Message.indirectAck number target alive).Ends sequence probe)
    (received :
      detector.receiveIndirectAck number target alive now = .ok (findings, after)) :
    after.InFlight sequence probe.target := by
  obtain ⟨sameNext, rfl | ⟨reported, foundReported, rfl, result⟩⟩ :=
    probes_of_receiveIndirectAck received
  · exact ⟨drawn, probe, found, rfl⟩
  refine ⟨sameNext ▸ drawn, ?_⟩
  by_cases same : sequence = number
  · subst same
    rw [found] at foundReported
    cases foundReported
    rcases result with ⟨rfl, _⟩ | ⟨rfl, some, enough, _⟩ | ⟨rfl, counted⟩
    · exact absurd (Or.inr (Or.inl rfl)) survives
    · exact absurd (Or.inr (Or.inr ⟨rfl, some, enough⟩)) survives
    · refine ⟨{ probe with nacks := probe.nacks + 1 }, ?_, rfl⟩
      rw [counted, SortedMap.get?_insert, if_pos rfl]
  · refine ⟨probe, ?_, rfl⟩
    rcases result with ⟨_, erased⟩ | ⟨_, _, _, erased⟩ | ⟨_, counted⟩
    · rwa [erased, SortedMap.get?_erase, if_neg same]
    · rwa [erased, SortedMap.get?_erase, if_neg same]
    · rwa [counted, SortedMap.get?_insert, if_neg same]

end Detector

namespace Node

open Activity Relation

variable {before node after : Node} {sequence : UInt64} {target : Endpoint} {probe : Probe}
  {moment : Moment} {occasion : Occasion} {received : List Envelope}

/-! ## What leaves a round in flight -/

abbrev InFlight (sequence : UInt64) (target : Endpoint) (node : Node) : Prop :=
  node.eviction.detector.InFlight sequence target

abbrev Lasts (sequence : UInt64) (target : Endpoint) (node : Node) : Prop :=
  node.eviction.detector.Lasts sequence target

/-- Whatever round lasted lasts. -/
def Spares (before after : Node) : Prop :=
  ∀ sequence target, before.Lasts sequence target → after.Lasts sequence target

instance : IsPreorder Node Spares where
  refl _ _ _ := id
  trans _ _ _ first second sequence target := second sequence target ∘ first sequence target

theorem Spares.conducts : Conducts Spares where
  broadcast _ _ _ := id
  send _ _ _ _ _ _ := id
  rename _ _ _ _ := id
  ask operated leaves _ _ lasts := lasts.leave leaves operated
  other _ _ _ _ _ _ _ _ := id
  tune _ _ _ := id
  change operated changes _ _ lasts := lasts.change changes operated
  switch _ _ _ _ := id
  healing _ _ _ _ := id
  schedule _ _ _ _ := id
  spreading _ _ _ _ := id
  retry _ _ _ := id
  shut _ _ _ := id
  requests _ _ _ _ _ _ := id

theorem Spares.lasts {α : Type} {activity : Activity α} (spares : Within Spares activity)
    (lasts : node.Lasts sequence target) : (activity.run node).2.Lasts sequence target :=
  step_of_steps (spares node) sequence target lasts

theorem SameRounds.inFlight {α : Type} {activity : Activity α} (same : Within SameRounds activity)
    (inFlight : node.InFlight sequence target) :
    (activity.run node).2.InFlight sequence target :=
  inFlight.of_sameRounds (step_of_steps (same node))

/-- To act on findings ends no round whose target stays suspected. -/
private theorem lasts_actOn {findings : List Finding} {detector : Detector}
    (lasts : detector.Lasts sequence target) :
    ((actOn findings detector).run node).2.Lasts sequence target := by
  have spares :
      Spares { node with eviction := { node.eviction with detector } }
        ((actOn findings detector).run node).2 :=
    step_of_steps (Spares.conducts.steps_actOn findings .refl)
  exact spares sequence target lasts

/-! ## Occasions and a round -/

/-- A message that does not end a round leaves it in flight as long as its target is
suspected. -/
private theorem lasts_handle (moment : Moment) (sender : SocketAddress) {message : Message}
    (drawn : sequence < node.eviction.detector.next)
    (found : node.eviction.detector.probes.get? sequence = some probe)
    (survives : ¬ message.Ends sequence probe) :
    ((handle moment sender message).run node).2.Lasts sequence probe.target := by
  have inFlight : node.InFlight sequence probe.target :=
    ⟨drawn, probe, found, rfl⟩
  have hears := SameRounds.hears
  cases message with
  | ping number target =>
      exact Or.inl (SameRounds.inFlight (hears.within_answerPing number target sender) inFlight)
  | ack number =>
      have other : sequence ≠ number := fun same => survives (Or.inl (same ▸ rfl))
      exact lasts_actOn (Or.inl (inFlight.receiveAck other))
  | pingRequest number target =>
      exact
        Or.inl (SameRounds.inFlight (hears.within_relay number target sender moment.now) inFlight)
  | indirectAck number target alive =>
      change ((receiveIndirectAck number target alive moment.now).run node).2.Lasts _ _
      unfold receiveIndirectAck
      rw [run_get_bind]
      cases received :
          node.eviction.detector.receiveIndirectAck number target alive moment.now with
      | error overflow => exact Or.inl inFlight
      | ok result =>
          obtain ⟨findings, detector⟩ := result
          exact
            lasts_actOn
              (Or.inl (Detector.inFlight_receiveIndirectAck drawn found survives received))
  | join digest updates =>
      exact
        Or.inl <|
          SameRounds.inFlight
            (within_bind (hears.within_merge moment updates) fun _ =>
              hears.within_offer .join digest sender)
            inFlight
  | heal digest =>
      exact Or.inl (SameRounds.inFlight (hears.within_offer .heal digest sender) inFlight)
  | exchange kind response request =>
      have merging := hears.within_merge moment response
      have conducts := Spares.conducts
      refine
        holds_bind (Lasts sequence probe.target) (Or.inl (SameRounds.inFlight merging inFlight))
          fun _ _ _ merged => Spares.lasts ?_ merged
      cases kind with
      | join =>
          exact
            within_bind conducts.within_completeJoin fun _ =>
              conducts.within_respond request sender
      | heal =>
          exact
            within_bind (within_modify fun node => conducts.healing node _) fun _ =>
              conducts.within_respond request sender
  | response updates =>
      exact Or.inl (SameRounds.inFlight (hears.within_merge moment updates) inFlight)
  | store update =>
      exact Or.inl (SameRounds.inFlight (hears.within_receive moment update) inFlight)
  | gossip => exact Or.inl inFlight

/-- If the message of a datagram does not end a round, the round lasts when the datagram
arrives. -/
private theorem lasts_arrive {datagram : Datagram} (drawn : sequence < node.eviction.detector.next)
    (found : node.eviction.detector.probes.get? sequence = some probe)
    (survives :
      ∀ envelope ∈ node.delivered (.event (.datagram datagram)),
        ¬ envelope.message.Ends sequence probe) :
    ((arrive moment datagram).run node).2.Lasts sequence probe.target := by
  have inFlight (courier : Courier) : { node with courier }.InFlight sequence probe.target :=
    ⟨drawn, probe, found, rfl⟩
  refine
    holds_arrive (Lasts sequence probe.target) (fun courier _ => Or.inl (inFlight courier))
      (fun inbound courier accepted => ?_)
      fun _ lasts => Spares.lasts Spares.conducts.within_settle lasts
  have heeding := within_forM (SameRounds.within_heed moment) inbound.tidings
  refine ⟨Or.inl (SameRounds.inFlight heeding (inFlight courier)), fun heeded heededOk => ?_⟩
  -- To heed what the envelope carries leaves the rounds as they are, so the message
  -- finds the very probe that it was to end.
  have same : SameRounds { node with courier } heeded := Within.of_run heeding heededOk
  have survives : ¬ inbound.envelope.message.Ends sequence probe := by
    refine survives inbound.envelope ?_
    rw [delivered_of_accepted accepted]
    exact List.mem_singleton_self _
  exact
    lasts_handle moment datagram.sender (UInt64.lt_of_lt_of_le drawn same.next_le)
      (same.probes_eq ▸ found) survives

/-- Before the end of a round the tick of the detector leaves it in flight as long as
its target is suspected. -/
private theorem lasts_watch (drawn : sequence < node.eviction.detector.next)
    (found : node.eviction.detector.probes.get? sequence = some probe)
    (early : moment.now < probe.roundDeadline) :
    ((watch moment.now).run node).2.Lasts sequence probe.target := by
  have inFlight : node.InFlight sequence probe.target := ⟨drawn, probe, found, rfl⟩
  unfold watch
  rw [run_get_bind]
  cases ticked : node.eviction.tick moment.now node.list node.rotation with
  | error overflow => exact Or.inl inFlight
  | ok result =>
      obtain ⟨actions, eviction, list, rotation⟩ := result
      have gone : { node with eviction, list, rotation }.Lasts sequence probe.target := by
        rcases Spares.conducts.steps_tickEviction ticked with same | ⟨_, _, checked, steps⟩
        · rw [same]
          exact Or.inl inFlight
        · exact
            step_of_steps steps sequence probe.target
              (Detector.lasts_of_checkTimeouts drawn found early checked)
      have performed :
          ((actions.forM perform).run { node with eviction, list, rotation }).2.Lasts sequence
            probe.target :=
        Spares.lasts (within_forM Spares.conducts.within_perform actions) gone
      exact performed

def Occasion.Leaves : Occasion → Prop
  | .desertion | .event (.command _ .close) => True
  | _ => False

/-- Before its end a round lasts on every occasion but the departure, unless a message
ends it. -/
private theorem lasts_act (drawn : sequence < node.eviction.detector.next)
    (found : node.eviction.detector.probes.get? sequence = some probe)
    (early : moment.now < probe.roundDeadline) (stays : ¬ occasion.Leaves)
    (survives :
      ∀ envelope ∈ node.delivered occasion, ¬ envelope.message.Ends sequence probe) :
    ((act moment occasion).run node).2.Lasts sequence probe.target := by
  have lasts : node.Lasts sequence probe.target := Or.inl ⟨drawn, probe, found, rfl⟩
  have conducts := Spares.conducts
  cases occasion with
  | desertion => exact absurd trivial stays
  | event event =>
      cases event with
      | datagram datagram => exact lasts_arrive drawn found survives
      | tick =>
          exact
            holds_bind (Lasts sequence probe.target) (lasts_watch drawn found early)
              fun _ _ _ gone => Spares.lasts (conducts.within_afterWatch moment.now) gone
      | command ticket command =>
          cases command with
          | join seeds => exact Spares.lasts (conducts.within_join ticket seeds moment.now) lasts
          | host agent =>
              exact Spares.lasts (conducts.within_changeHosting ticket (·.host agent)) lasts
          | stopHosting agent =>
              exact Spares.lasts (conducts.within_changeHosting ticket (·.stopHosting agent)) lasts
          | close => exact absurd trivial stays

/-! ## Failures that were reported -/

/-- How many envelopes report that a probe for a round of the target has failed. -/
def failures (received : List Envelope) (sequence : UInt64) (target : Endpoint) : Nat :=
  received.countP fun envelope => envelope.message = .indirectAck sequence target false

/-- Every round in flight has a number that was drawn, and no more failures are counted
for it than were reported. -/
def Tallied (received : List Envelope) (node : Node) : Prop :=
  ∀ sequence probe, node.eviction.detector.probes.get? sequence = some probe →
    sequence < node.eviction.detector.next ∧
      probe.nacks ≤ failures received sequence probe.target

abbrev CountsNone (before after : Node) : Prop :=
  before.eviction.detector.CountsNone after.eviction.detector

instance : IsPreorder Node CountsNone where
  refl _ := .refl _
  trans _ _ _ := .trans

theorem CountsNone.conducts : Conducts CountsNone where
  broadcast _ := .refl _
  send _ _ _ _ := .refl _
  rename _ _ := .refl _
  ask operated leaves := .of_sameRounds (.operate leaves operated)
  other _ _ _ _ _ _ := .refl _
  tune _ := .refl _
  change operated changes := .change changes operated
  switch _ _ := .refl _
  healing _ _ := .refl _
  schedule _ _ := .refl _
  spreading _ _ := .refl _
  retry _ := .refl _
  shut _ := .refl _
  requests _ _ _ _ := .refl _

theorem CountsNone.judges : Judges CountsNone where
  judge operated decides := .decide decides operated

namespace Tallied

theorem append (tallied : node.Tallied received) (more : List Envelope) :
    node.Tallied (received ++ more) := by
  intro sequence probe found
  obtain ⟨drawn, counted⟩ := tallied sequence probe found
  refine ⟨drawn, Nat.le_trans counted ?_⟩
  rw [failures, failures, List.countP_append]
  exact Nat.le_add_right _ _

theorem of_countsNone (tallied : node.Tallied received) (none : CountsNone node after) :
    after.Tallied received := by
  intro sequence probe found
  rcases none.counted sequence probe found with
    ⟨drawn, none⟩ | ⟨earlier, foundEarlier, sameTarget, sameCount⟩
  · exact ⟨drawn, none ▸ Nat.zero_le _⟩
  · obtain ⟨drawn, counted⟩ := tallied sequence earlier foundEarlier
    rw [sameTarget, sameCount] at counted
    exact ⟨UInt64.lt_of_lt_of_le drawn none.next_le, counted⟩

theorem within {α : Type} {activity : Activity α} (tallied : node.Tallied received)
    (none : Within CountsNone activity) : (activity.run node).2.Tallied received :=
  tallied.of_countsNone (step_of_steps (none node))

/-- What a node counts for a report is that it was delivered. -/
theorem receiveIndirectAck {number : UInt64} {alive : Bool} {envelope : Envelope}
    (tallied : node.Tallied received) (now : Nat)
    (message : envelope.message = .indirectAck number target alive) :
    ((Node.receiveIndirectAck number target alive now).run node).2.Tallied
      (received ++ [envelope]) := by
  unfold Node.receiveIndirectAck
  rw [run_get_bind]
  cases reported : node.eviction.detector.receiveIndirectAck number target alive now with
  | error overflow => exact tallied.append [envelope]
  | ok result =>
      obtain ⟨findings, detector⟩ := result
      have counted :
          { node with eviction := { node.eviction with detector } }.Tallied
            (received ++ [envelope]) := by
        intro sequence probe found
        have next : detector.next = node.eviction.detector.next :=
          (Detector.probes_of_receiveIndirectAck reported).1
        obtain ⟨earlier, foundEarlier, sameTarget, count⟩ :=
          Detector.counted_receiveIndirectAck reported found
        obtain ⟨drawn, counted⟩ := tallied sequence earlier foundEarlier
        refine ⟨next ▸ drawn, ?_⟩
        rw [sameTarget] at counted
        rw [failures, List.countP_append]
        rcases count with same | ⟨more, rfl, rfl, rfl⟩
        · rw [same]
          exact Nat.le_add_right_of_le counted
        · have one : failures [envelope] sequence probe.target = 1 := by
            simp [failures, message]
          rw [more]
          exact Nat.add_le_add counted (Nat.le_of_eq one.symm)
      exact
        counted.of_countsNone
          (step_of_steps (CountsNone.conducts.steps_actOn findings .refl))

theorem arrive (tallied : node.Tallied received) (moment : Moment) (datagram : Datagram) :
    ((Node.arrive moment datagram).run node).2.Tallied
      (received ++ node.delivered (.event (.datagram datagram))) := by
  refine
    holds_arrive (Tallied (received ++ node.delivered (.event (.datagram datagram))))
      (fun courier _ => tallied.append _) (fun inbound courier accepted => ?_)
      fun _ tallied => tallied.within CountsNone.conducts.within_settle
  rw [delivered_of_accepted accepted]
  have taken : { node with courier }.Tallied received := tallied
  have heeding : Within CountsNone (inbound.tidings.forM (heed moment)) :=
    within_forM
      (fun payload =>
        CountsNone.conducts.within_heed moment payload CountsNone.judges.suspect) _
  refine ⟨(taken.within heeding).append _, fun heeded heededOk => ?_⟩
  have told : heeded.Tallied received :=
    taken.of_countsNone (Within.of_run heeding heededOk)
  -- A report is the only message that may count, and it counts once.
  by_cases report :
      ∃ number target alive, inbound.envelope.message = .indirectAck number target alive
  · obtain ⟨number, target, alive, message⟩ := report
    rw [message]
    exact told.receiveIndirectAck moment.now message
  · have handling :=
      CountsNone.conducts.within_handle CountsNone.judges moment datagram.sender
        inbound.envelope.message (fun _ _ _ => CountsNone.conducts.within_completeJoin)
        fun number target alive message => absurd ⟨number, target, alive, message⟩ report
    exact (told.within handling).append _

/-- On every occasion no more failures are counted than are reported. -/
theorem act (tallied : node.Tallied received) (moment : Moment) (occasion : Occasion) :
    ((Node.act moment occasion).run node).2.Tallied (received ++ node.delivered occasion) := by
  have conducts := CountsNone.conducts
  have judges := CountsNone.judges
  cases occasion with
  | desertion => exact (tallied.within (conducts.within_leave judges)).append []
  | event event =>
      cases event with
      | datagram datagram => exact tallied.arrive moment datagram
      | command ticket command =>
          exact (tallied.within (conducts.within_obey judges moment ticket command)).append []
      | tick => exact (tallied.within (conducts.within_tick judges moment.now)).append []

end Tallied

/-- What a node has received since a time when no failure was counted for any of its
rounds.  Meanwhile the link may change as the network does, and the envelopes that are
observed may be taken. -/
inductive Receives : Node → List Envelope → Prop where
  | start {node : Node}
      (uncounted : ∀ sequence probe,
        node.eviction.detector.probes.get? sequence = some probe →
          sequence < node.eviction.detector.next ∧ probe.nacks = 0) :
      Receives node []
  | act {node : Node} {received : List Envelope} (moment : Moment) (occasion : Occasion)
      (receives : Receives node received) :
      Receives ((Node.act moment occasion).run node).2 (received ++ node.delivered occasion)
  | relink {node : Node} {received : List Envelope} (link : Link)
      (receives : Receives node received) :
      Receives { node with courier := { node.courier with link } } received
  | watch {node : Node} {received : List Envelope} (observed : Option (List Envelope))
      (receives : Receives node received) :
      Receives { node with courier := { node.courier with observed } } received

/-- It begins when the node is made. -/
theorem receives_new {options : Options} {own : Endpoint} {tags : Tags}
    {replica : ReplicaId} {link : Link} {chance : Chance}
    (made : Node.new options own tags replica link chance = .ok node) : Receives node [] := by
  obtain ⟨courier, _, settled⟩ := exists_unsettled_of_new made
  have none :
      CountsNone (unsettled options own tags replica link chance courier) node :=
    Within.of_run CountsNone.conducts.within_settle settled
  refine .start fun sequence probe found => ?_
  rcases none.counted sequence probe found with fresh | ⟨_, foundEarlier, _⟩
  · exact fresh
  · cases foundEarlier

theorem Receives.tallied (receives : Receives node received) : node.Tallied received := by
  induction receives with
  | start uncounted =>
      intro sequence probe found
      obtain ⟨drawn, none⟩ := uncounted sequence probe found
      exact ⟨drawn, none ▸ Nat.zero_le _⟩
  | act moment occasion _ inductionHypothesis => exact inductionHypothesis.act moment occasion
  | relink link _ inductionHypothesis => exact inductionHypothesis
  | watch observed _ inductionHypothesis => exact inductionHypothesis

/-! ## Rounds that end early -/

/-- A round that has ended before its time, though the node has not left and the target
is suspected, was ended by an envelope that has just been delivered: the ack, the report
that the target is alive, or the report of a failure.  In the last case at least as many
failures were reported in all as helpers were asked, and there were some. -/
theorem failures_of_early_end (receives : Receives node received)
    (found : node.eviction.detector.probes.get? sequence = some probe)
    (early : moment.now < probe.roundDeadline) (stays : ¬ occasion.Leaves)
    (acted : ((act moment occasion).run node).2 = after)
    (ended : after.eviction.detector.probes.get? sequence = none)
    (suspected : after.eviction.detector.isSuspected probe.target = true) :
    ∃ envelope ∈ node.delivered occasion,
      envelope.message = .ack sequence ∨
        envelope.message = .indirectAck sequence probe.target true ∨
          envelope.message = .indirectAck sequence probe.target false ∧ 0 < probe.helpers ∧
            probe.helpers ≤
              failures (received ++ node.delivered occasion) sequence probe.target := by
  obtain ⟨drawn, counted⟩ := receives.tallied sequence probe found
  by_cases told : ∃ envelope ∈ node.delivered occasion, envelope.message.Ends sequence probe
  · obtain ⟨envelope, among, ack | alive | ⟨failed, some, enough⟩⟩ := told
    · exact ⟨envelope, among, Or.inl ack⟩
    · exact ⟨envelope, among, Or.inr (Or.inl alive)⟩
    · refine ⟨envelope, among, Or.inr (Or.inr ⟨failed, some, Nat.le_trans enough ?_⟩)⟩
      have more : 0 < failures (node.delivered occasion) sequence probe.target :=
        List.countP_pos_iff.mpr ⟨envelope, among, decide_eq_true failed⟩
      rw [failures, List.countP_append]
      exact Nat.add_le_add counted more
  -- Unless it was told to end, the round is still in flight, for its target is suspected.
  · have lasts : after.Lasts sequence probe.target := by
      rw [← acted]
      exact
        lasts_act drawn found early stays fun envelope among ends =>
          told ⟨envelope, among, ends⟩
    rcases lasts with ⟨_, later, foundLater, _⟩ | unsuspected
    · rw [ended] at foundLater
      cases foundLater
    · rw [suspected] at unsuspected
      cases unsuspected

/-! ## A round with one helper -/

/-- Steps that can be computed deliver what they were seen to deliver. -/
theorem Receives.foreseeAll :
    ∀ {events : List (Moment × Event)} {node : Node} {received more : List Envelope},
      Receives node received → Node.foreseeAll events node = some (after, more) →
        Receives after (received ++ more)
  | [], _, received, _, receives, foreseen => by
      cases foreseen
      rwa [List.append_nil]
  | (moment, event) :: rest, node, received, _, receives, foreseen => by
      obtain ⟨middle, others, first, seen, rfl⟩ := foreseeAll_eq_some foreseen
      have stepped := receives.act moment (.event event)
      have ran : (Node.act moment (.event event)).run node = (.ok (), middle) := first
      rw [ran] at stepped
      rw [← List.append_assoc]
      exact stepped.foreseeAll seen

/-- The watched host joins and does not answer a ping, so that the accuser, who has joined
meanwhile, is asked to help. -/
def appeal : List (Moment × Event) :=
  [(dawn, .datagram (introduction watched ⟨2⟩)), (dawn, .tick),
    (clock 100, .datagram (introduction accuser ⟨3⟩)), (clock 500, .tick)]

def asker : Node :=
  ((Node.foreseeAll appeal timed).map (·.1)).getD timed

def introductions : List Envelope :=
  ((Node.foreseeAll appeal timed).map (·.2)).getD []

def inquired : Probe :=
  { target := watched
    directDeadline := 500
    roundDeadline := 1000
    indirect := true
    helpers := 1 }

private theorem receives_asker : Receives asker introductions := by
  have started : Receives timed [] :=
    .start fun sequence probe found => by
      obtain ⟨drawn, none⟩ := (receives_new new_newcomer).tallied sequence probe found
      exact ⟨drawn, Nat.le_zero.mp none⟩
  have seen : (Node.foreseeAll appeal timed).isSome = true := by
    decide +kernel
  obtain ⟨⟨after, received⟩, foreseen⟩ := Option.isSome_iff_exists.mp seen
  rw [asker, introductions, foreseen]
  exact started.foreseeAll foreseen

/-- A host reports that its probe of the watched member has failed. -/
def regret (sender : Endpoint) : Datagram :=
  mail sender (.indirectAck 1 watched false) []

/-- The report ends the round, and the node suspects the watched member. -/
def EndedBy (sender : Endpoint) : Prop :=
  let after := asker.foreseen (clock 600) (.datagram (regret sender))
  (asker.foresee (clock 600) (.datagram (regret sender))).isSome = true ∧
    after.eviction.detector.probes.get? 1 = none ∧
    after.eviction.detector.isSuspected watched = true ∧
    after.eviction.detector.Blames watched asker.list.own

instance (sender : Endpoint) : Decidable (EndedBy sender) :=
  inferInstanceAs (Decidable (_ ∧ _))

/-- The accuser, who was asked, reports the one failure that it takes. -/
theorem failures_of_early_end_prober :
    Receives asker introductions ∧ asker.eviction.detector.probes.get? 1 = some inquired ∧
      (clock 600).now < inquired.roundDeadline ∧
      ¬ (Occasion.event (.datagram (regret accuser))).Leaves ∧
      ∃ after, ((act (clock 600) (.event (.datagram (regret accuser)))).run asker).2 = after ∧
        after.eviction.detector.probes.get? 1 = none ∧
        after.eviction.detector.isSuspected inquired.target = true ∧
        ∃ envelope ∈ asker.delivered (.event (.datagram (regret accuser))),
          envelope.message = .ack 1 ∨
            envelope.message = .indirectAck 1 inquired.target true ∨
              envelope.message = .indirectAck 1 inquired.target false ∧ 0 < inquired.helpers ∧
                inquired.helpers ≤
                  failures (introductions ++ asker.delivered (.event (.datagram (regret accuser))))
                    1 inquired.target := by
  have computed :
      asker.eviction.detector.probes.get? 1 = some inquired ∧ EndedBy accuser := by
    decide +kernel
  obtain ⟨found, seen, ended, suspected, _⟩ := computed
  have acted :
      ((act (clock 600) (.event (.datagram (regret accuser)))).run asker).2 =
        asker.foreseen (clock 600) (.datagram (regret accuser)) :=
    congrArg Prod.snd (run_foreseen seen)
  exact
    ⟨receives_asker, found, by decide, id, _, acted, ended, suspected,
      failures_of_early_end receives_asker found (by decide) id acted ended suspected⟩

/-- A host that is no member, so that it was not asked, reports a failure.  This ends
the round before its time, and the node suspects the watched member, though nobody
else has reported anything. -/
theorem early_end_without_helper :
    Receives asker introductions ∧ failures introductions 1 watched = 0 ∧
      asker.eviction.detector.probes.get? 1 = some inquired ∧
      inquired.helpers = 1 ∧ (clock 600).now < inquired.roundDeadline ∧
      asker.list.members.contains passerby = false ∧
      (asker.delivered (.event (.datagram (regret passerby)))).map
          (fun envelope => (envelope.sender, envelope.message)) =
        [(passerby, .indirectAck 1 watched false)] ∧
      ¬ asker.eviction.detector.Blames watched asker.list.own ∧
      ∃ after,
        (act (clock 600) (.event (.datagram (regret passerby)))).run asker = (.ok (), after) ∧
          after.eviction.detector.probes.get? 1 = none ∧
          after.eviction.detector.Blames watched asker.list.own := by
  have computed :
      EndedBy passerby ∧ failures introductions 1 watched = 0 ∧
        asker.eviction.detector.probes.get? 1 = some inquired ∧
        asker.list.members.contains passerby = false ∧
        (asker.delivered (.event (.datagram (regret passerby)))).map
            (fun envelope => (envelope.sender, envelope.message)) =
          [(passerby, .indirectAck 1 watched false)] ∧
        ¬ asker.eviction.detector.Blames watched asker.list.own := by
    decide +kernel
  obtain ⟨⟨seen, ended, _, blamed⟩, unreported, found, stranger, told, unblamed⟩ := computed
  exact
    ⟨receives_asker, unreported, found, rfl, by decide, stranger, told, unblamed, _,
      run_foreseen seen, ended, blamed⟩

end Node

end Roster
