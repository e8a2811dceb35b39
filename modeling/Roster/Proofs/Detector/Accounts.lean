import Roster.Proofs.Detector.Books

/-!
# Accounts of rounds and relays

Rounds and relays take their numbers from one sequence, so no number is handed
out twice.  A round that is answered or fails changes the health once, whatever
arrives under its number later, and a relay is answered at most once, with what
its origin had asked for.
-/

namespace Roster

universe u

/-! ## Accounts -/

/-- What has been entered under numbers, what of it was settled, and what is
pending: only what was entered is pending or settled, nothing is both, and
nothing is settled twice. -/
structure Account {α : Type u} (entered : List (UInt64 × α)) (settled : List UInt64)
    (pending : UInt64 → Option α) : Prop where
  entered_of_pending : ∀ {number item}, pending number = some item → (number, item) ∈ entered
  unsettled_of_pending : ∀ {number item}, pending number = some item → number ∉ settled
  entered_of_settled : ∀ {number}, number ∈ settled → number ∈ entered.map Prod.fst
  nodup_settled : settled.Nodup

section Accounts

variable {α : Type u} {entered added : List (UInt64 × α)} {settled closing : List UInt64}
  {pending after : UInt64 → Option α}

theorem Account.nothing (none : ∀ number, pending number = none) :
    Account [] [] pending where
  entered_of_pending found := by
    rw [none] at found
    cases found
  unsettled_of_pending _ := List.not_mem_nil
  entered_of_settled among := absurd among List.not_mem_nil
  nodup_settled := List.nodup_nil

/-- An account goes on if only what is pending is settled, once, and what is
pending then was so before and is not settled, or is added under a new number. -/
theorem Account.step (account : Account entered settled pending)
    (nodup : closing.Nodup) (closed : ∀ number ∈ closing, ∃ item, pending number = some item)
    (new : ∀ number ∈ added.map Prod.fst, number ∉ entered.map Prod.fst)
    (kept : ∀ number item, after number = some item →
      pending number = some item ∧ number ∉ closing ∨ (number, item) ∈ added) :
    Account (entered ++ added) (settled ++ closing) after where
  entered_of_pending {number item} found := by
    rcases kept number item found with ⟨before, _⟩ | among
    · exact List.mem_append_left _ (account.entered_of_pending before)
    · exact List.mem_append_right _ among
  unsettled_of_pending {number item} found settles := by
    rcases kept number item found with ⟨before, unclosed⟩ | among
    · rcases List.mem_append.mp settles with earlier | now
      · exact account.unsettled_of_pending before earlier
      · exact unclosed now
    · apply new number (List.mem_map_of_mem among)
      rcases List.mem_append.mp settles with earlier | now
      · exact account.entered_of_settled earlier
      · obtain ⟨standing, before⟩ := closed number now
        exact List.mem_map_of_mem (account.entered_of_pending before)
  entered_of_settled {number} settles := by
    rw [List.map_append]
    apply List.mem_append_left
    rcases List.mem_append.mp settles with earlier | now
    · exact account.entered_of_settled earlier
    · obtain ⟨item, found⟩ := closed number now
      exact List.mem_map_of_mem (account.entered_of_pending found)
  nodup_settled := by
    refine List.nodup_append.mpr ⟨account.nodup_settled, nodup, ?_⟩
    rintro number earlier _ now rfl
    obtain ⟨item, found⟩ := closed number now
    exact account.unsettled_of_pending found earlier

end Accounts

namespace Detector

variable {detector after : Detector} {target : Endpoint} {now : Nat} {operation : Operation}
  {findings : List Finding} {number : UInt64} {history : List Occurrence}
  {options : DetectorOptions}

/-! ## Numbers -/

def numbersBegun (detector : Detector) (operation : Operation) : List UInt64 :=
  (detector.roundsBegun operation).map Prod.fst ++ (detector.relaysBegun operation).map Prod.fst

private theorem next_le_of_operate (operated : detector.operate operation = .ok (findings, after)) :
    detector.next ≤ after.next := by
  cases operation with
  | setOwn | setClusterSize | observe | startRelay =>
      exact (SameRounds.operate (by trivial) operated).next_le
  | startProbe | setHelpers | forget | retainMembers =>
      exact (CountsNone.change (by trivial) operated).next_le
  | suspect | receiveAck | checkTimeouts | abandon =>
      exact (CountsNone.decide (by trivial) operated).next_le
  | receiveIndirectAck =>
      exact UInt64.le_of_eq (probes_of_receiveIndirectAck operated).1.symm

/-- The number that an operation hands out, if it does so, is the next one, and it is
used up. -/
private theorem numbersBegun_of_operate
    (operated : detector.operate operation = .ok (findings, after)) :
    detector.numbersBegun operation = [] ∨
      detector.numbersBegun operation = [detector.next] ∧ detector.next < after.next := by
  cases operation with
  | startProbe target now =>
      obtain ⟨⟨number, begun⟩, started, same⟩ := Attempt.map_eq_ok operated
      cases same
      obtain ⟨rfl, later, _⟩ := startProbe_eq_ok started
      refine Or.inr ⟨?_, later⟩
      rw [numbersBegun, roundsBegun, started]
      rfl
  | startRelay origin asked target now =>
      obtain ⟨⟨number, begun⟩, started, same⟩ := Attempt.map_eq_ok operated
      cases same
      obtain ⟨rfl, later, _⟩ := startRelay_eq_ok started
      refine Or.inr ⟨?_, later⟩
      rw [numbersBegun, relaysBegun, started]
      rfl
  | _ => exact Or.inl rfl

/-! ## Accounts of a run -/

namespace Occurrence

/-- The rounds that began, by number and target. -/
def roundsBegun (occurrence : Occurrence) : List (UInt64 × Endpoint) :=
  occurrence.before.roundsBegun occurrence.operation

/-- The relays that began, by number and request. -/
def relaysBegun (occurrence : Occurrence) :
    List (UInt64 × SocketAddress × UInt64 × Endpoint) :=
  occurrence.before.relaysBegun occurrence.operation

/-- The rounds that ended with a result, by number, and whether they ended well. -/
def roundsEnded (occurrence : Occurrence) : List (UInt64 × Bool) :=
  occurrence.before.roundsEnded occurrence.operation

/-- The relays that were answered, by number, and whether they reached their targets. -/
def relaysAnswered (occurrence : Occurrence) : List (UInt64 × Relay × Bool) :=
  occurrence.before.relaysAnswered occurrence.operation

end Occurrence

def numbersOf (history : List Occurrence) : List UInt64 :=
  (history.flatMap Occurrence.roundsBegun).map Prod.fst ++
    (history.flatMap Occurrence.relaysBegun).map Prod.fst

/-- The books after a run: each number was handed out once and is below the next one,
the accounts of rounds and relays are right, and the health is what the rounds
that ended have made of it. -/
structure Accounted (initial : Health) (history : List Occurrence) (detector : Detector) :
    Prop where
  drawn : ∀ number ∈ numbersOf history, number < detector.next
  fresh : (numbersOf history).Nodup
  rounds : Account (history.flatMap Occurrence.roundsBegun)
    ((history.flatMap Occurrence.roundsEnded).map Prod.fst) detector.pendingRound
  relays : Account (history.flatMap Occurrence.relaysBegun)
    ((history.flatMap Occurrence.relaysAnswered).map Prod.fst) detector.pendingRelay
  health : detector.health = (history.flatMap Occurrence.roundsEnded).foldl judge initial

private theorem numbersOf_append (history : List Occurrence) (occurrence : Occurrence) :
    (numbersOf (history ++ [occurrence])).Perm
      (numbersOf history ++ occurrence.before.numbersBegun occurrence.operation) := by
  simp only [numbersOf, numbersBegun, List.flatMap_append, List.flatMap_singleton,
    List.map_append, List.append_assoc]
  exact (List.perm_append_comm_assoc _ _ _).append_left _

namespace Accounted

variable {initial : Health}

/-- The next number is new, so whatever an operation begins is so. -/
private theorem not_mem_of_begun (accounted : Accounted initial history detector)
    (operated : detector.operate operation = .ok (findings, after))
    (begun : number ∈ detector.numbersBegun operation) : number ∉ numbersOf history := by
  rcases numbersBegun_of_operate operated with nothing | ⟨single, _⟩
  · rw [nothing] at begun
    cases begun
  · rw [single] at begun
    intro earlier
    have below := accounted.drawn number earlier
    rw [List.mem_singleton.mp begun] at below
    exact UInt64.lt_irrefl _ below

theorem operate (accounted : Accounted initial history detector)
    (operated : detector.operate operation = .ok (findings, after)) :
    Accounted initial (history ++ [⟨detector, operation, findings, after⟩]) after := by
  have books := Books.operate operated
  have numbers := numbersOf_append history ⟨detector, operation, findings, after⟩
  have new (tested : UInt64) (begun : tested ∈ detector.numbersBegun operation) :
      tested ∉ numbersOf history :=
    accounted.not_mem_of_begun operated begun
  refine ⟨fun tested among => ?_, ?_, ?_, ?_, ?_⟩
  · rcases List.mem_append.mp (numbers.mem_iff.mp among) with earlier | begun
    · exact UInt64.lt_of_lt_of_le (accounted.drawn tested earlier) (next_le_of_operate operated)
    · rcases numbersBegun_of_operate operated with nothing | ⟨single, later⟩
      · rw [nothing] at begun
        cases begun
      · rw [single] at begun
        rwa [List.mem_singleton.mp begun]
  · refine numbers.nodup_iff.mpr (List.nodup_append.mpr ⟨accounted.fresh, ?_, ?_⟩)
    · rcases numbersBegun_of_operate operated with nothing | ⟨single, _⟩
      · rw [nothing]
        exact List.nodup_nil
      · rw [single]
        exact List.nodup_singleton _
    · rintro tested earlier _ begun rfl
      exact new tested begun earlier
  · rw [List.flatMap_append, List.flatMap_append, List.flatMap_singleton, List.flatMap_singleton,
      List.map_append]
    refine accounted.rounds.step (nodup_roundsEnded detector operation)
      (fun _ ended => pendingRound_of_roundsEnded ended) (fun tested begun earlier => ?_)
      fun _ _ found => books.rounds found
    exact new tested (List.mem_append_left _ begun) (List.mem_append_left _ earlier)
  · rw [List.flatMap_append, List.flatMap_append, List.flatMap_singleton, List.flatMap_singleton,
      List.map_append]
    refine accounted.relays.step (nodup_relaysAnswered detector operation)
      (fun tested answered => ?_) (fun tested begun earlier => ?_) fun _ _ found =>
        books.relays found
    · obtain ⟨⟨_, relay, alive⟩, among, rfl⟩ := List.mem_map.mp answered
      exact ⟨relay.request, pendingRelay_of_relaysAnswered among⟩
    · exact new tested (List.mem_append_right _ begun) (List.mem_append_right _ earlier)
  · rw [List.flatMap_append, List.flatMap_singleton, List.foldl_append, ← accounted.health]
    exact books.health

theorem start (options : DetectorOptions) (own : Endpoint) (timing : SuspicionTiming) :
    Accounted (Health.new options.healthCeiling) []
      { Detector.new options own with timing } where
  drawn _ among := absurd among List.not_mem_nil
  fresh := List.nodup_nil
  rounds := .nothing fun _ => rfl
  relays := .nothing fun _ => rfl
  health := rfl

/-- A number of a round was not handed out for a relay. -/
theorem apart (accounted : Accounted initial history detector) {target : Endpoint}
    {request : SocketAddress × UInt64 × Endpoint}
    (round : (number, target) ∈ history.flatMap Occurrence.roundsBegun) :
    (number, request) ∉ history.flatMap Occurrence.relaysBegun := by
  intro relay
  exact (List.nodup_append.mp accounted.fresh).2.2 number (List.mem_map_of_mem round) number
    (List.mem_map_of_mem relay) rfl

end Accounted

theorem Runs.accounted {own : Endpoint} {timing : SuspicionTiming}
    (run : Runs { Detector.new options own with timing } history detector) :
    Accounted (Health.new options.healthCeiling) history detector := by
  induction run with
  | start => exact .start options own timing
  | operate _ operated inductionHypothesis => exact inductionHypothesis.operate operated

/-! ## Once and no more -/

private theorem score_judged (ended : List (UInt64 × Bool)) (health : Health) :
    (ended.foldl judge health).score =
        (ended.map Prod.snd).foldl
          (fun score well => if well then score - 1 else min (score + 1) (health.ceiling - 1))
          health.score ∧
      (ended.foldl judge health).ceiling = health.ceiling := by
  induction ended generalizing health with
  | nil => exact ⟨rfl, rfl⟩
  | cons first rest inductionHypothesis =>
      have sameCeiling : (judge health first).ceiling = health.ceiling := by
        unfold judge
        split <;> rfl
      have judged :
          (judge health first).score =
            if first.2 then health.score - 1 else min (health.score + 1) (health.ceiling - 1) := by
        unfold judge
        split <;> rfl
      obtain ⟨score, ceiling⟩ := inductionHypothesis (judge health first)
      rw [sameCeiling, judged] at score
      exact ⟨score, ceiling.trans sameCeiling⟩

/-- Nothing that arrives under a number without a round in flight changes the health. -/
private theorem ignored_of_not_pending (vacant : detector.pendingRound number = none) :
    (detector.receiveAck number).2.health = detector.health ∧
      ∀ target alive now,
        detector.receiveIndirectAck number target alive now = .ok ([], detector) := by
  have unprobed : detector.probes.get? number = none := Option.map_eq_none_iff.mp vacant
  constructor
  · have absent : ¬ detector.probes.contains number = true := by
      rw [SortedMap.contains_eq_false_iff.mpr unprobed]
      exact Bool.false_ne_true
    rw [Detector.receiveAck, if_neg absent]
    split <;> rfl
  · intro target alive now
    unfold Detector.receiveIndirectAck
    rw [unprobed]
    rfl

/-- What holds of the rounds and relays of a run: numbers are handed out once, rounds
end once and the health follows from how they end, whatever arrives under a number
that is unknown, has ended or is a relay's, and relays are answered once, with what
their origins have asked for. -/
structure ExactlyOnce (options : DetectorOptions) (history : List Occurrence)
    (detector : Detector) : Prop where
  fresh : (numbersOf history).Nodup
  pendingRounds : ∀ {number target}, detector.pendingRound number = some target →
    (number, target) ∈ history.flatMap Occurrence.roundsBegun ∧
      number ∉ (history.flatMap Occurrence.roundsEnded).map Prod.fst ∧
      detector.pendingRelay number = none
  pendingRelays : ∀ {number request}, detector.pendingRelay number = some request →
    (number, request) ∈ history.flatMap Occurrence.relaysBegun ∧
      number ∉ (history.flatMap Occurrence.relaysAnswered).map Prod.fst ∧
      detector.pendingRound number = none
  endedOnce : ((history.flatMap Occurrence.roundsEnded).map Prod.fst).Nodup
  endedRounds : ∀ {number}, number ∈ (history.flatMap Occurrence.roundsEnded).map Prod.fst →
    number ∈ (history.flatMap Occurrence.roundsBegun).map Prod.fst
  endedWell : ∀ {occurrence number}, occurrence ∈ history →
    ((number, true) ∈ occurrence.roundsEnded ↔
      ∃ target, occurrence.before.pendingRound number = some target ∧
        (occurrence.operation = .receiveAck number ∨
          ∃ now, occurrence.operation = .receiveIndirectAck number target true now))
  failed : ∀ {occurrence number}, occurrence ∈ history →
    ((number, false) ∈ occurrence.roundsEnded ↔
      ∃ probe, occurrence.before.probes.get? number = some probe ∧
        ((∃ now, occurrence.operation = .checkTimeouts now ∧ probe.roundDeadline ≤ now) ∨
          ∃ now, occurrence.operation = .receiveIndirectAck number probe.target false now ∧
            0 < probe.helpers ∧ probe.helpers ≤ probe.nacks + 1))
  score : detector.health.score =
    ((history.flatMap Occurrence.roundsEnded).map Prod.snd).foldl
      (fun score well => if well then score - 1 else min (score + 1) (options.healthCeiling - 1)) 0
  score_le : detector.health.score ≤ options.healthCeiling - 1
  vacant : ∀ {number}, number ∉ (history.flatMap Occurrence.roundsBegun).map Prod.fst ∨
      number ∈ (history.flatMap Occurrence.roundsEnded).map Prod.fst ∨
      number ∈ (history.flatMap Occurrence.relaysBegun).map Prod.fst →
    detector.pendingRound number = none
  ignored : ∀ {number}, detector.pendingRound number = none →
    (detector.receiveAck number).2.health = detector.health ∧
      ∀ target alive now,
        detector.receiveIndirectAck number target alive now = .ok ([], detector)
  answeredOnce : ((history.flatMap Occurrence.relaysAnswered).map Prod.fst).Nodup
  told : ∀ {earlier occurrence later}, history = earlier ++ occurrence :: later →
    occurrence.findings.filter Finding.isAnswer =
        occurrence.relaysAnswered.map (fun (_, relay, alive) => Relay.result relay alive) ∧
      ∀ number relay alive, (number, relay, alive) ∈ occurrence.relaysAnswered →
        (number, relay.request) ∈ earlier.flatMap Occurrence.relaysBegun ∧
          occurrence.before.pendingRelay number = some relay.request ∧
          (alive = true → occurrence.operation = .receiveAck number)

theorem Runs.exactlyOnce {own : Endpoint} {timing : SuspicionTiming}
    (run : Runs { Detector.new options own with timing } history detector) :
    ExactlyOnce options history detector := by
  have accounted := run.accounted
  have score := (score_judged (history.flatMap Occurrence.roundsEnded)
    (Health.new options.healthCeiling))
  rw [← accounted.health] at score
  have ceiling : (Health.new options.healthCeiling).ceiling - 1 = options.healthCeiling - 1 := by
    show max options.healthCeiling 1 - 1 = options.healthCeiling - 1
    omega
  rw [ceiling] at score
  refine
    { fresh := accounted.fresh
      pendingRounds := fun {number target} pending => ?_
      pendingRelays := fun {number request} pending => ?_
      endedOnce := accounted.rounds.nodup_settled
      endedRounds := fun ended => accounted.rounds.entered_of_settled ended
      endedWell := fun _ => mem_roundsEnded_true_iff
      failed := fun _ => mem_roundsEnded_false_iff
      score := score.1
      score_le := ?_
      vacant := fun {number} outside => ?_
      ignored := ignored_of_not_pending
      answeredOnce := accounted.relays.nodup_settled
      told := fun {earlier occurrence later} split => ?_ }
  · have begun := accounted.rounds.entered_of_pending pending
    refine ⟨begun, accounted.rounds.unsettled_of_pending pending, ?_⟩
    refine Option.eq_none_iff_forall_ne_some.mpr fun request relayed => ?_
    exact accounted.apart begun (accounted.relays.entered_of_pending relayed)
  · have begun := accounted.relays.entered_of_pending pending
    refine ⟨begun, accounted.relays.unsettled_of_pending pending, ?_⟩
    refine Option.eq_none_iff_forall_ne_some.mpr fun target probed => ?_
    exact accounted.apart (accounted.rounds.entered_of_pending probed) begun
  · have below := detector.health.score_lt
    rw [score.2] at below
    exact ceiling ▸ Nat.le_pred_of_lt below
  · refine Option.eq_none_iff_forall_ne_some.mpr fun target pending => ?_
    have begun := accounted.rounds.entered_of_pending pending
    rcases outside with unknown | resolved | relayed
    · exact unknown (List.mem_map_of_mem begun)
    · exact accounted.rounds.unsettled_of_pending pending resolved
    · obtain ⟨⟨_, request⟩, among, rfl⟩ := List.mem_map.mp relayed
      exact accounted.apart begun among
  · obtain ⟨before, operated, _⟩ := run.parts split
    refine ⟨(Books.operate operated).told, fun number relay alive answered => ?_⟩
    have pending := pendingRelay_of_relaysAnswered answered
    exact
      ⟨before.accounted.relays.entered_of_pending pending, pending,
        (relay_of_relaysAnswered answered).2⟩

/-! Rounds and relays whose acks come late, or twice. -/

def steady : Detector :=
  { Detector.new usual host with
    timing := { shortest := fun _ => 2000, timeout := fun _ _ => 6000 } }

def requester : SocketAddress where
  ip := .v4 0x7F000001
  port := 7002

/-- A round and a relay run out, their acks come late, and another round is answered. -/
def lateAcks : List Operation :=
  [.startProbe member 0, .startRelay requester 9 member 0, .checkTimeouts 1000, .receiveAck 1,
    .receiveAck 2, .receiveIndirectAck 1 member true 1100, .startProbe member 2000, .receiveAck 3,
    .receiveAck 3]

private theorem perform_lateAcks :
    ((steady.perform lateAcks).map fun (history, detector) =>
        (numbersOf history, history.flatMap Occurrence.roundsEnded,
          history.flatMap Occurrence.findings, detector.health.score)) =
      .ok
        ([1, 3, 2], [(1, false), (3, true)],
          [.suspected member, .relayed requester 9 member false], 0) := by
  decide +kernel

theorem exactlyOnce_lateAcks :
    ∃ history detector, Runs steady history detector ∧
      numbersOf history = [1, 3, 2] ∧
      history.flatMap Occurrence.roundsEnded = [(1, false), (3, true)] ∧
      history.flatMap Occurrence.findings =
        [.suspected member, .relayed requester 9 member false] ∧
      detector.health.score = 0 ∧ ExactlyOnce usual history detector := by
  obtain ⟨⟨history, detector⟩, performed, same⟩ := Attempt.map_eq_ok perform_lateAcks
  simp only [Prod.mk.injEq] at same
  obtain ⟨numbers, ended, found, score⟩ := same
  have run := Runs.perform performed
  exact ⟨history, detector, run, numbers, ended, found, score, run.exactlyOnce⟩

end Detector

end Roster