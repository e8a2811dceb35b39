import Roster.Proofs.Detector.Verdict

/-!
# Rounds in flight

Most of what a detector is asked has nothing to do with the rounds in flight, or
starts some and drops those of members that nobody suspects any more.  Only an
ack, a report, the passing of time and the departure end a round whose target is
still suspected, and only the report of a helper that has failed is counted for a
round.
-/

namespace Roster

namespace Detector

variable {detector before after : Detector} {target suspector : Endpoint} {now : Nat}
  {operation : Operation} {findings : List Finding} {sequence : UInt64} {probe : Probe}

/-! ## Operations and rounds -/

/-- The operation has nothing to do with rounds, and it suspects nobody. -/
def Operation.LeavesRounds : Operation → Prop
  | .setOwn _ | .setClusterSize _ | .observe _ _ | .startRelay _ _ _ _ => True
  | _ => False

/-- The operation starts rounds, notes something about them or drops them with the
suspicions of their targets. -/
def Operation.ChangesRounds : Operation → Prop
  | .startProbe _ _ | .setHelpers _ _ | .forget _ | .retainMembers _ => True
  | _ => False

/-- The operation suspects somebody, or ends rounds, and it is no report. -/
def Operation.Decides : Operation → Prop
  | .suspect _ _ _ | .receiveAck _ | .checkTimeouts _ | .abandon => True
  | _ => False

/-- The same rounds are in flight, and the health is the same. -/
structure SameRounds (before after : Detector) : Prop where
  next_le : before.next ≤ after.next
  probes_eq : after.probes = before.probes
  health_eq : after.health = before.health

theorem SameRounds.refl (detector : Detector) : SameRounds detector detector :=
  ⟨UInt64.le_refl _, rfl, rfl⟩

theorem SameRounds.trans {first second third : Detector} (left : SameRounds first second)
    (right : SameRounds second third) : SameRounds first third where
  next_le := UInt64.le_trans left.next_le right.next_le
  probes_eq := right.probes_eq.trans left.probes_eq
  health_eq := right.health_eq.trans left.health_eq

theorem SameRounds.suspect {finding : Option Finding}
    (suspected : detector.suspect target suspector now = .ok (finding, after)) :
    SameRounds detector after := by
  rcases suspect_eq_ok suspected with
    ⟨_, _, rfl⟩ | ⟨_, ⟨_, _, _, _, _, _, rfl⟩ | ⟨_, _, _, _, rfl⟩⟩ <;>
      exact ⟨UInt64.le_refl _, rfl, rfl⟩

theorem SameRounds.startRelay {origin : SocketAddress} {asked : UInt64}
    (started : detector.startRelay origin asked target now = .ok (sequence, after)) :
    SameRounds detector after := by
  obtain ⟨_, later, _, entered⟩ := startRelay_eq_ok started
  rw [entered]
  exact ⟨UInt64.le_of_lt later, rfl, rfl⟩

theorem SameRounds.operate (leaves : operation.LeavesRounds)
    (operated : detector.operate operation = .ok (findings, after)) :
    SameRounds detector after := by
  cases operation with
  | setOwn | setClusterSize | observe =>
      cases operated
      exact ⟨UInt64.le_refl _, rfl, rfl⟩
  | startRelay origin asked target now =>
      obtain ⟨⟨number, told⟩, started, same⟩ := Attempt.map_eq_ok operated
      cases same
      exact .startRelay started
  | _ => exact leaves.elim

/-- A round that fails is already over, and to suspect its target ends no other. -/
theorem kept_by_failRound (failed : detector.failRound target now = .ok (findings, after)) :
    after.next = detector.next ∧ after.probes = detector.probes ∧
      after.relays = detector.relays ∧ after.health = detector.health.fail := by
  unfold Detector.failRound at failed
  simp only at failed
  obtain ⟨⟨finding, ended⟩, suspected, returned⟩ := Attempt.bind_eq_ok failed
  cases returned
  rcases suspect_eq_ok suspected with
    ⟨_, _, rfl⟩ | ⟨_, ⟨_, _, _, _, _, _, rfl⟩ | ⟨_, _, _, _, rfl⟩⟩ <;> exact ⟨rfl, rfl, rfl, rfl⟩

theorem kept_by_failRounds :
    ∀ {targets : List Endpoint} {detector after : Detector} {findings : List Finding},
      Detector.failRounds now targets detector = .ok (findings, after) →
        after.next = detector.next ∧ after.probes = detector.probes ∧
          after.relays = detector.relays ∧
            after.health = targets.foldl (fun health _ => health.fail) detector.health
  | [], detector, after, findings, failed => by
      cases failed
      exact ⟨rfl, rfl, rfl, rfl⟩
  | target :: rest, detector, after, findings, failed => by
      unfold Detector.failRounds at failed
      obtain ⟨⟨firstFindings, middle⟩, first, failedRest⟩ := Attempt.bind_eq_ok failed
      obtain ⟨⟨otherFindings, last⟩, others, returned⟩ := Attempt.bind_eq_ok failedRest
      cases returned
      obtain ⟨nextFirst, probesFirst, relaysFirst, healthFirst⟩ := kept_by_failRound first
      obtain ⟨nextOthers, probesOthers, relaysOthers, healthOthers⟩ := kept_by_failRounds others
      refine
        ⟨nextOthers.trans nextFirst, probesOthers.trans probesFirst,
          relaysOthers.trans relaysFirst, ?_⟩
      rw [healthOthers, healthFirst, List.foldl_cons]

/-- What a report does to the rounds: nothing, it ends its round, well or with the last
failure that the round needed, or it is counted. -/
theorem probes_of_receiveIndirectAck {alive : Bool}
    (received :
      detector.receiveIndirectAck sequence target alive now = .ok (findings, after)) :
    after.next = detector.next ∧
      (after = detector ∨
        ∃ probe, detector.probes.get? sequence = some probe ∧ probe.target = target ∧
          (alive = true ∧ after.probes = detector.probes.erase sequence ∨
            alive = false ∧ 0 < probe.helpers ∧ probe.helpers ≤ probe.nacks + 1 ∧
                after.probes = detector.probes.erase sequence ∨
              alive = false ∧
                after.probes =
                  detector.probes.insert sequence { probe with nacks := probe.nacks + 1 })) := by
  rcases receiveIndirectAck_eq_ok received with
    ⟨_, _, rfl⟩ |
      ⟨probe, found, sameTarget,
        ⟨reached, _, rfl⟩ | ⟨unreached, enough, failed⟩ | ⟨unreached, _, _, rfl⟩⟩
  · exact ⟨rfl, Or.inl rfl⟩
  · exact ⟨rfl, Or.inr ⟨probe, found, sameTarget, Or.inl ⟨reached, rfl⟩⟩⟩
  · obtain ⟨next, probes, _⟩ := kept_by_failRound failed
    exact
      ⟨next, Or.inr ⟨probe, found, sameTarget,
        Or.inr (Or.inl ⟨unreached, enough.1, enough.2, probes⟩)⟩⟩
  · exact ⟨rfl, Or.inr ⟨probe, found, sameTarget, Or.inr (Or.inr ⟨unreached, rfl⟩)⟩⟩

/-! ## Failures that are counted -/

/-- No failure of a helper has been counted: every round counts none, or it is one of
before that counts as many. -/
structure CountsNone (before after : Detector) : Prop where
  next_le : before.next ≤ after.next
  counted : ∀ sequence probe, after.probes.get? sequence = some probe →
    sequence < after.next ∧ probe.nacks = 0 ∨
      ∃ earlier, before.probes.get? sequence = some earlier ∧
        earlier.target = probe.target ∧ earlier.nacks = probe.nacks

theorem CountsNone.trans {first second third : Detector} (left : CountsNone first second)
    (right : CountsNone second third) : CountsNone first third where
  next_le := UInt64.le_trans left.next_le right.next_le
  counted := by
    intro sequence probe found
    rcases right.counted sequence probe found with
      none | ⟨middle, foundMiddle, sameTarget, sameCount⟩
    · exact Or.inl none
    -- A round that was new half-way has a number that is still below the next one.
    · rcases left.counted sequence middle foundMiddle with
        ⟨drawn, none⟩ | ⟨earlier, foundEarlier, target, count⟩
      · exact
          Or.inl ⟨UInt64.lt_of_lt_of_le drawn right.next_le, sameCount.symm.trans none⟩
      · exact Or.inr ⟨earlier, foundEarlier, target.trans sameTarget, count.trans sameCount⟩

theorem CountsNone.of_eq (later : before.next ≤ after.next)
    (same : after.probes = before.probes) : CountsNone before after :=
  ⟨later, fun _ probe found => Or.inr ⟨probe, same ▸ found, rfl, rfl⟩⟩

theorem CountsNone.refl (detector : Detector) : CountsNone detector detector :=
  of_eq (UInt64.le_refl _) rfl

theorem CountsNone.of_sameRounds (same : SameRounds before after) : CountsNone before after :=
  of_eq same.next_le same.probes_eq

theorem CountsNone.of_filter (kept : UInt64 → Probe → Bool) (next_eq : after.next = before.next)
    (filtered : after.probes = before.probes.filter kept) : CountsNone before after where
  next_le := UInt64.le_of_eq next_eq.symm
  counted := by
    intro sequence probe found
    rw [filtered, SortedMap.get?_filter] at found
    exact Or.inr ⟨probe, (Option.filter_eq_some_iff.mp found).1, rfl, rfl⟩

private theorem CountsNone.of_mapValues (change : UInt64 → Probe → Probe)
    (same : ∀ sequence probe,
      (change sequence probe).target = probe.target ∧
        (change sequence probe).nacks = probe.nacks)
    (next_eq : after.next = before.next)
    (mapped : after.probes = before.probes.mapValues change) : CountsNone before after where
  next_le := UInt64.le_of_eq next_eq.symm
  counted := by
    intro sequence probe found
    rw [mapped, SortedMap.get?_mapValues] at found
    obtain ⟨earlier, foundEarlier, rfl⟩ := Option.map_eq_some_iff.mp found
    obtain ⟨sameTarget, sameCount⟩ := same sequence earlier
    exact Or.inr ⟨earlier, foundEarlier, sameTarget.symm, sameCount.symm⟩

theorem CountsNone.receiveAck (sequence : UInt64) :
    CountsNone detector (detector.receiveAck sequence).2 := by
  unfold Detector.receiveAck
  split
  · exact .of_filter (fun tested _ => compare tested sequence != .eq) rfl rfl
  · split
    · exact .of_eq (UInt64.le_refl _) rfl
    · exact .refl detector

theorem CountsNone.startProbe
    (started : detector.startProbe target now = .ok (sequence, after)) :
    CountsNone detector after := by
  obtain ⟨rfl, later, _, _, entered⟩ := startProbe_eq_ok started
  refine ⟨UInt64.le_of_lt later, fun number probe found => ?_⟩
  rw [entered, SortedMap.get?_insert] at found
  split at found
  · rename_i same
    cases found
    exact Or.inl ⟨same ▸ later, rfl⟩
  · exact Or.inr ⟨probe, found, rfl, rfl⟩

theorem CountsNone.checkTimeouts
    (checked : detector.checkTimeouts now = .ok (findings, after)) :
    CountsNone detector after := by
  obtain ⟨middle, suspected, failed, rfl, rfl⟩ := checkTimeouts_eq_ok checked
  have dropped :
      CountsNone detector
        { detector with
          probes := detector.probes.filter fun _ probe => now < probe.roundDeadline } :=
    .of_filter (fun _ probe => now < probe.roundDeadline) rfl rfl
  have asked :
      CountsNone
        { detector with
          probes := detector.probes.filter fun _ probe => now < probe.roundDeadline }
        (detector.withoutEnding now) :=
    .of_mapValues
      (fun _ probe => { probe with indirect := probe.indirect || Probe.isLate probe now })
      (fun _ _ => ⟨rfl, rfl⟩) rfl rfl
  obtain ⟨next, probes, _⟩ := kept_by_failRounds failed
  have failing : CountsNone (detector.withoutEnding now) middle :=
    .of_eq (UInt64.le_of_eq next.symm) probes
  have judged : CountsNone middle (middle.afterVerdicts now) :=
    .of_filter (fun _ probe => probe.target ∉ middle.due now) rfl rfl
  exact ((dropped.trans asked).trans failing).trans judged

/-- To change rounds counts no failure. -/
theorem CountsNone.change (changes : operation.ChangesRounds)
    (operated : detector.operate operation = .ok (findings, after)) :
    CountsNone detector after := by
  cases operation with
  | startProbe target now =>
      obtain ⟨⟨number, told⟩, started, same⟩ := Attempt.map_eq_ok operated
      cases same
      exact .startProbe started
  | setHelpers sequence helpers =>
      cases operated
      have noted (number : UInt64) (probe : Probe) :
          (if number = sequence then { probe with helpers } else probe).target = probe.target ∧
            (if number = sequence then { probe with helpers } else probe).nacks = probe.nacks := by
        split <;> exact ⟨rfl, rfl⟩
      exact .of_mapValues _ noted rfl rfl
  | forget target =>
      cases operated
      exact .of_filter (fun _ probe => probe.target ≠ target) rfl rfl
  | retainMembers isMember =>
      cases operated
      exact .of_filter (fun _ probe => isMember probe.target) rfl rfl
  | _ => exact changes.elim

/-- To decide counts no failure. -/
theorem CountsNone.decide (decides : operation.Decides)
    (operated : detector.operate operation = .ok (findings, after)) :
    CountsNone detector after := by
  cases operation with
  | suspect target suspector now =>
      obtain ⟨⟨finding, told⟩, suspected, same⟩ := Attempt.map_eq_ok operated
      cases same
      exact .of_sameRounds (.suspect suspected)
  | receiveAck sequence =>
      have none : CountsNone detector (detector.receiveAck sequence).2 := .receiveAck sequence
      rwa [Except.ok.inj operated] at none
  | checkTimeouts now => exact .checkTimeouts operated
  | abandon =>
      cases operated
      refine ⟨UInt64.le_refl _, fun number probe found => ?_⟩
      cases found
  | _ => exact decides.elim

/-- A report counts as one failure of its own round, or not at all. -/
theorem counted_receiveIndirectAck {number : UInt64} {alive : Bool}
    (received :
      detector.receiveIndirectAck number target alive now = .ok (findings, after))
    (found : after.probes.get? sequence = some probe) :
    ∃ earlier, detector.probes.get? sequence = some earlier ∧ earlier.target = probe.target ∧
      (probe.nacks = earlier.nacks ∨
        probe.nacks = earlier.nacks + 1 ∧ sequence = number ∧ probe.target = target ∧
          alive = false) := by
  obtain ⟨_, rfl | ⟨reported, foundReported, rfl, result⟩⟩ :=
    probes_of_receiveIndirectAck received
  · exact ⟨probe, found, rfl, Or.inl rfl⟩
  have kept (erased : after.probes = detector.probes.erase number) :
      detector.probes.get? sequence = some probe := by
    rw [erased, SortedMap.get?_erase] at found
    split at found
    · cases found
    · exact found
  rcases result with ⟨_, erased⟩ | ⟨_, _, _, erased⟩ | ⟨unreached, inserted⟩
  · exact ⟨probe, kept erased, rfl, Or.inl rfl⟩
  · exact ⟨probe, kept erased, rfl, Or.inl rfl⟩
  · rw [inserted, SortedMap.get?_insert] at found
    split at found
    · rename_i same
      subst same
      cases found
      exact ⟨reported, foundReported, rfl, Or.inr ⟨rfl, rfl, rfl, unreached⟩⟩
    · exact ⟨probe, found, rfl, Or.inl rfl⟩

/-! ## Rounds that last -/

/-- A round of the target is in flight, under a number that was drawn before. -/
def InFlight (detector : Detector) (sequence : UInt64) (target : Endpoint) : Prop :=
  sequence < detector.next ∧
    ∃ probe, detector.probes.get? sequence = some probe ∧ probe.target = target

/-- The round is in flight, or its target is not suspected any more. -/
def Lasts (detector : Detector) (sequence : UInt64) (target : Endpoint) : Prop :=
  detector.InFlight sequence target ∨ detector.isSuspected target = false

theorem InFlight.of_sameRounds (inFlight : before.InFlight sequence target)
    (same : SameRounds before after) : after.InFlight sequence target := by
  obtain ⟨drawn, probe, found, sameTarget⟩ := inFlight
  exact
    ⟨UInt64.lt_of_lt_of_le drawn same.next_le, probe, same.probes_eq ▸ found, sameTarget⟩

/-- An ack ends the round of its number only. -/
theorem InFlight.receiveAck {acked : UInt64} (inFlight : detector.InFlight sequence target)
    (other : sequence ≠ acked) :
    (detector.receiveAck acked).2.InFlight sequence target := by
  obtain ⟨drawn, probe, found, sameTarget⟩ := inFlight
  unfold Detector.receiveAck
  split
  · exact ⟨drawn, probe, by rwa [SortedMap.get?_erase, if_neg other], sameTarget⟩
  · split <;> exact ⟨drawn, probe, found, sameTarget⟩

theorem not_suspected_of_filter (kept : Endpoint → Suspicion → Bool)
    (unsuspected : before.isSuspected target = false)
    (filtered : after.suspicions = before.suspicions.filter kept) :
    after.isSuspected target = false := by
  rw [isSuspected_eq_false_iff] at unsuspected ⊢
  rw [filtered, SortedMap.get?_filter, unsuspected, Option.filter_none]

/-- What has nothing to do with rounds suspects nobody either. -/
theorem Lasts.leave (lasts : detector.Lasts sequence target) (leaves : operation.LeavesRounds)
    (operated : detector.operate operation = .ok (findings, after)) :
    after.Lasts sequence target := by
  rcases lasts with inFlight | unsuspected
  · exact Or.inl (inFlight.of_sameRounds (.operate leaves operated))
  refine Or.inr ?_
  cases operation with
  | setOwn | setClusterSize =>
      cases operated
      exact unsuspected
  | observe sender now =>
      cases operated
      exact
        not_suspected_of_filter
          (fun target suspicion =>
            !(target.sameHost sender && suspicion.incarnation ≤ sender.incarnation))
          unsuspected rfl
  | startRelay origin asked target now =>
      obtain ⟨⟨number, told⟩, started, same⟩ := Attempt.map_eq_ok operated
      cases same
      obtain ⟨_, _, _, entered⟩ := startRelay_eq_ok started
      rw [entered]
      exact unsuspected
  | _ => exact leaves.elim

theorem Lasts.forget (lasts : detector.Lasts sequence target) (forgotten : Endpoint) :
    (detector.forget forgotten).Lasts sequence target := by
  rcases lasts with ⟨drawn, probe, found, rfl⟩ | unsuspected
  · by_cases same : probe.target = forgotten
    · refine Or.inr ?_
      rw [isSuspected_eq_false_iff, Detector.forget, SortedMap.get?_erase, if_pos same]
    · refine Or.inl ⟨drawn, probe, ?_, rfl⟩
      rw [Detector.forget, SortedMap.get?_filter, found, Option.filter_some, if_pos]
      exact decide_eq_true same
  · exact
      Or.inr
        (not_suspected_of_filter (fun tested _ => compare tested forgotten != .eq) unsuspected rfl)

theorem Lasts.retainMembers (lasts : detector.Lasts sequence target)
    (isMember : Endpoint → Bool) : (detector.retainMembers isMember).Lasts sequence target := by
  rcases lasts with ⟨drawn, probe, found, rfl⟩ | unsuspected
  · cases member : isMember probe.target with
    | true =>
        refine Or.inl ⟨drawn, probe, ?_, rfl⟩
        rw [Detector.retainMembers, SortedMap.get?_filter, found, Option.filter_some, if_pos member]
    | false =>
        refine Or.inr ?_
        rw [isSuspected_eq_false_iff, Detector.retainMembers, SortedMap.get?_filter,
          Option.filter_eq_none_iff]
        simp [member]
  · exact Or.inr (not_suspected_of_filter (fun target _ => isMember target) unsuspected rfl)

/-- Rounds are dropped only with the suspicions of their targets. -/
theorem Lasts.change (lasts : detector.Lasts sequence target)
    (changes : operation.ChangesRounds)
    (operated : detector.operate operation = .ok (findings, after)) :
    after.Lasts sequence target := by
  cases operation with
  | startProbe probed now =>
      obtain ⟨⟨number, told⟩, started, same⟩ := Attempt.map_eq_ok operated
      cases same
      obtain ⟨rfl, later, _, _, entered⟩ := startProbe_eq_ok started
      rcases lasts with ⟨drawn, probe, found, sameTarget⟩ | unsuspected
      · refine Or.inl ⟨UInt64.lt_trans drawn later, probe, ?_, sameTarget⟩
        rwa [entered, SortedMap.get?_insert, if_neg (UInt64.ne_of_lt drawn)]
      · refine Or.inr ?_
        rw [isSuspected_eq_false_iff] at unsuspected ⊢
        rw [entered, SortedMap.get?_mapValues, unsuspected, Option.map_none]
  | setHelpers number helpers =>
      cases operated
      rcases lasts with ⟨drawn, probe, found, rfl⟩ | unsuspected
      · refine
          Or.inl ⟨drawn, if sequence = number then { probe with helpers } else probe, ?_, ?_⟩
        · rw [Detector.setHelpers, SortedMap.get?_mapValues, found, Option.map_some]
        · split <;> rfl
      · exact Or.inr unsuspected
  | forget forgotten =>
      cases operated
      exact lasts.forget forgotten
  | retainMembers isMember =>
      cases operated
      exact lasts.retainMembers isMember
  | _ => exact changes.elim

/-- As long as time has not reached the end of a round, it passes no verdict on the
round but the one that ends the suspicion of its target. -/
theorem lasts_of_checkTimeouts (drawn : sequence < detector.next)
    (found : detector.probes.get? sequence = some probe) (early : now < probe.roundDeadline)
    (checked : detector.checkTimeouts now = .ok (findings, after)) :
    after.Lasts sequence probe.target := by
  obtain ⟨middle, suspected, failed, _, rfl⟩ := checkTimeouts_eq_ok checked
  obtain ⟨next, probes, _⟩ := kept_by_failRounds failed
  -- A verdict drops all rounds of its target, those in time as well.
  by_cases due : probe.target ∈ middle.due now
  · refine Or.inr ?_
    obtain ⟨_, _, _, ended⟩ := ended_of_due due
    exact isSuspected_eq_false_iff.mpr ended
  · refine Or.inl ⟨?_, { probe with indirect := probe.indirect || Probe.isLate probe now }, ?_, rfl⟩
    · rw [afterVerdicts, next]
      exact drawn
    · rw [afterVerdicts, SortedMap.get?_filter, probes, withoutEnding, SortedMap.get?_mapValues,
        SortedMap.get?_filter, found]
      simp [early, due]

end Detector

end Roster
