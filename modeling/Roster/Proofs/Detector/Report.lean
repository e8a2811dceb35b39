import Roster.Proofs.Detector.Run

/-!
# Reports of helpers

A helper that has reached the target of a round reports it alive.  That ends
the round and counts as contact, but what is suspected of the target stays
suspected.  Unless word of the target refutes it, or the target is forgotten, a
suspicion comes due no later than at its present deadline, and then it leads to
a verdict.
-/

namespace Roster

namespace Detector

variable {detector before after : Detector} {target other suspector : Endpoint}
  {now moment : Nat} {told : Option Nat} {operation : Operation} {findings : List Finding}
  {later : List Occurrence}

/-! ## Suspicions that come due -/

/-- The target is suspected, and the suspicion is due at a moment or earlier. -/
def DueBy (detector : Detector) (target : Endpoint) (moment : Nat) : Prop :=
  ∃ suspicion, detector.suspicions.get? target = some suspicion ∧ suspicion.deadline ≤ moment

/-- The operation drops suspicions of the target, due or not. -/
def Operation.Dismisses (target : Endpoint) : Operation → Prop
  | .observe sender _ => sender.Refutes target
  | .forget other => other = target
  | .retainMembers isMember => isMember target = false
  | _ => False

theorem DueBy.of_eq (dueBy : before.DueBy target moment)
    (same : after.suspicions = before.suspicions) : after.DueBy target moment := by
  rwa [DueBy, same]

/-- Another suspector can only pull the deadline in. -/
theorem DueBy.suspect {finding : Option Finding} (dueBy : detector.DueBy target moment)
    (suspected : detector.suspect other suspector now = .ok (finding, after)) :
    after.DueBy target moment := by
  obtain ⟨suspicion, found, due⟩ := dueBy
  rcases suspect_eq_ok suspected with
    ⟨_, _, rfl⟩ |
      ⟨_, ⟨standing, deadline, foundStanding, _, _, _, rfl⟩ | ⟨deadline, unsuspected, _, _, rfl⟩⟩
  · exact ⟨suspicion, found, due⟩
  · by_cases here : target = other
    · subst here
      cases found.symm.trans foundStanding
      refine ⟨joined suspicion suspector deadline, ?_, (Nat.min_le_left _ _).trans due⟩
      rw [SortedMap.get?_insert, if_pos rfl]
    · refine ⟨suspicion, ?_, due⟩
      rw [SortedMap.get?_insert, if_neg here, found]
  · have here : target ≠ other := by
      rintro rfl
      cases found.symm.trans unsuspected
    refine ⟨suspicion, ?_, due⟩
    rw [SortedMap.get?_insert, if_neg here, found]

theorem DueBy.course (dueBy : before.DueBy target moment)
    (course : Course suspector told before findings after) : after.DueBy target moment := by
  induction course with
  | note probedAt _ noted =>
      obtain ⟨suspicion, found, due⟩ := dueBy
      refine ⟨{ suspicion with probedAt := probedAt target suspicion }, ?_, due⟩
      rw [noted, SortedMap.get?_mapValues, found, Option.map_some]
  | suspect _ suspected => exact dueBy.suspect suspected
  | trans _ _ left right => exact right (left dueBy)

theorem DueBy.filter (kept : Endpoint → Suspicion → Bool) (dueBy : before.DueBy target moment)
    (filtered : after.suspicions = before.suspicions.filter kept)
    (spared : ∀ suspicion, before.suspicions.get? target = some suspicion →
      kept target suspicion = true) :
    after.DueBy target moment := by
  obtain ⟨suspicion, found, due⟩ := dueBy
  refine ⟨suspicion, ?_, due⟩
  rw [filtered, SortedMap.get?_filter, found, Option.filter_some, if_pos (spared suspicion found)]

/-- When time passes, either a verdict is passed on the target or its suspicion
is not yet due. -/
theorem DueBy.checkTimeouts (dueBy : detector.DueBy target moment)
    (checked : detector.checkTimeouts now = .ok (findings, after)) :
    .dead target ∈ findings ∨ now < moment ∧ after.DueBy target moment := by
  obtain ⟨middle, _, failed, rfl, rfl⟩ := checkTimeouts_eq_ok checked
  obtain ⟨suspicion, found, due⟩ := dueBy.course (Course.ending failed)
  rcases dead_or_kept middle now found with ⟨judged, _⟩ | ⟨ahead, kept⟩
  · exact Or.inl (List.mem_append_right _ (List.mem_map_of_mem judged))
  · exact Or.inr ⟨ahead.trans_le due, suspicion, kept, due⟩

/-- What neither dismisses the target nor lets time pass leaves its suspicion
due no later. -/
private theorem DueBy.endure (dueBy : detector.DueBy target moment) (recorded : detector.Recorded)
    (operated : detector.operate operation = .ok (findings, after))
    (undismissed : ¬ operation.Dismisses target)
    (untimed : ∀ now, operation ≠ .checkTimeouts now) :
    after.DueBy target moment := by
  by_cases setting : operation.IsSetting
  · cases operation with
    | setOwn | setClusterSize =>
        cases operated
        exact dueBy.of_eq rfl
    | _ => exact setting.elim
  by_cases closing : operation.IsClosing
  · cases operation with
    | checkTimeouts now => exact absurd rfl (untimed now)
    | observe sender now =>
        cases operated
        refine
          dueBy.filter
            (fun target suspicion =>
              !(target.sameHost sender && suspicion.incarnation ≤ sender.incarnation))
            rfl fun suspicion found => ?_
        have unrefuted :
            ¬ (target.sameHost sender = true ∧
                suspicion.incarnation ≤ sender.incarnation) := by
          rw [recorded target suspicion found]
          exact undismissed
        rw [not_and_or] at unrefuted
        simpa using unrefuted
    | forget other =>
        cases operated
        refine dueBy.filter (fun tested _ => compare tested other != .eq) rfl fun _ _ => ?_
        have different : target ≠ other := Ne.symm undismissed
        simpa using different
    | retainMembers isMember =>
        cases operated
        refine dueBy.filter (fun tested _ => isMember tested) rfl fun _ _ => ?_
        simpa [Operation.Dismisses] using undismissed
    | _ => exact closing.elim
  · exact dueBy.course (course_of_operate setting closing operated)

/-- An operation that does not dismiss the target passes a verdict on it, or
leaves it suspected and comes before the suspicion is due. -/
theorem DueBy.operate (dueBy : detector.DueBy target moment) (recorded : detector.Recorded)
    (operated : detector.operate operation = .ok (findings, after))
    (undismissed : ¬ operation.Dismisses target) :
    .dead target ∈ findings ∨
      after.DueBy target moment ∧ ∀ now, operation = .checkTimeouts now → now < moment := by
  by_cases timed : ∃ now, operation = .checkTimeouts now
  · obtain ⟨now, rfl⟩ := timed
    rcases dueBy.checkTimeouts operated with dead | ⟨ahead, endures⟩
    · exact Or.inl dead
    · exact Or.inr ⟨endures, fun _ same => Operation.checkTimeouts.inj same ▸ ahead⟩
  · have untimed : ∀ now, operation ≠ .checkTimeouts now := fun now same => timed ⟨now, same⟩
    exact
      Or.inr
        ⟨dueBy.endure recorded operated undismissed untimed,
          fun now same => absurd same (untimed now)⟩

/-! ## Runs after a suspicion -/

theorem Runs.recorded {start : Detector} (run : Runs start later detector)
    (recorded : start.Recorded) : detector.Recorded := by
  induction run with
  | start => exact recorded
  | operate _ operated inductionHypothesis => exact inductionHypothesis.operate operated

/-- As long as nothing dismisses the target, a verdict has been passed on it, or
it is suspected and nothing was asked at a moment at which the suspicion is due. -/
private theorem DueBy.runs (dueBy : before.DueBy target moment) (recorded : before.Recorded)
    (run : Runs before later after)
    (undismissed : ∀ occurrence ∈ later, ¬ occurrence.operation.Dismisses target) :
    1 ≤ deaths target later ∨
      after.DueBy target moment ∧
        ∀ occurrence ∈ later, ∀ now, occurrence.operation = .checkTimeouts now → now < moment := by
  induction run with
  | start => exact Or.inr ⟨dueBy, by simp⟩
  | @operate history middle after operation findings run operated inductionHypothesis =>
      rw [deaths_append]
      rcases inductionHypothesis fun occurrence among =>
          undismissed occurrence (List.mem_append_left _ among) with dead | ⟨endures, early⟩
      · exact Or.inl (Nat.le_add_right_of_le dead)
      · rcases endures.operate (run.recorded recorded) operated
            (undismissed _ (List.mem_append_right _ (List.mem_singleton_self _)))
          with dead | ⟨endures, ahead⟩
        · exact Or.inl (Nat.le_add_left_of_le (List.one_le_count_iff.mpr dead))
        · refine Or.inr ⟨endures, fun occurrence among => ?_⟩
          rcases List.mem_append.mp among with before | last
          · exact early occurrence before
          · rw [List.mem_singleton.mp last]
            exact ahead

/-! ## Reports -/

def reassured (detector : Detector) (sequence : UInt64) (target : Endpoint) (now : Nat) :
    Detector :=
  { detector with
    probes := detector.probes.erase sequence
    health := detector.health.succeed
    lastHeard := detector.lastHeard.insert target now }

private theorem receiveIndirectAck_alive {sequence : UInt64} {probe : Probe}
    (probed : detector.probes.get? sequence = some probe) (now : Nat) :
    detector.receiveIndirectAck sequence probe.target true now =
      .ok ([], detector.reassured sequence probe.target now) := by
  simp only [receiveIndirectAck, probed, ne_eq, not_true, if_false, if_true]
  rfl

/-- The report that the target of a round is alive ends the round, and leaves
the suspicions as they are: one of the target leads to a verdict as soon as
time has passed to its deadline, unless something dismisses the target before. -/
theorem suspicion_outlives_report {start : Detector} {history : List Occurrence}
    {sequence : UInt64} {probe : Probe}
    (fresh : start.suspicions = SortedMap.empty) (run : Runs start history detector)
    (probed : detector.probes.get? sequence = some probe) (now : Nat) :
    ∃ after, detector.receiveIndirectAck sequence probe.target true now = .ok ([], after) ∧
      after.probes.get? sequence = none ∧
      after.lastHeard.get? probe.target = some now ∧
      after.suspicions = detector.suspicions ∧
      ∀ suspicion, detector.suspicions.get? probe.target = some suspicion →
        ∀ later last, Runs after later last →
          (∀ occurrence ∈ later, ¬ occurrence.operation.Dismisses probe.target) →
          (∃ occurrence ∈ later, ∃ moment, occurrence.operation = .checkTimeouts moment ∧
            suspicion.deadline ≤ moment) →
          1 ≤ deaths probe.target later := by
  have recorded : detector.Recorded := by
    refine run.recorded fun target suspicion found => ?_
    rw [fresh, SortedMap.get?_empty] at found
    cases found
  refine
    ⟨detector.reassured sequence probe.target now, receiveIndirectAck_alive probed now, ?_, ?_,
      rfl, ?_⟩
  · rw [reassured, SortedMap.get?_erase, if_pos rfl]
  · rw [reassured, SortedMap.get?_insert, if_pos rfl]
  · intro suspicion found later last continued undismissed ⟨occurrence, among, moment, timed, due⟩
    have dueBy : (detector.reassured sequence probe.target now).DueBy probe.target moment :=
      ⟨suspicion, found, due⟩
    rcases dueBy.runs recorded continued undismissed with dead | ⟨_, early⟩
    · exact dead
    · exact absurd (early occurrence among moment timed) (Nat.lt_irrefl moment)

/-! A member is suspected, probed, and reported alive. -/

noncomputable def probing : Detector :=
  { suspecting usual host member 5000 with
    next := 2
    lastRound := some 100
    suspicions :=
      (suspecting usual host member 5000).suspicions.mapValues fun suspected suspicion =>
        if suspected = member then { suspicion with probedAt := some 100 } else suspicion
    probes :=
      SortedMap.empty.insert 1
        { target := member, directDeadline := 600, roundDeadline := 1100 } }

private theorem runs_probing : ∃ history, Runs (exact usual host) history probing := by
  have run := runs_suspecting (show member ≠ host by decide) deadline_usual
  have started :
      (suspecting usual host member 5000).operate (.startProbe member 100) =
        .ok ([], probing) :=
    rfl
  exact ⟨_, run.operate started⟩

theorem suspicion_outlives_report_probing :
    (exact usual host).suspicions = SortedMap.empty ∧
      ∃ history, Runs (exact usual host) history probing ∧
        probing.probes.get? 1 =
          some { target := member, directDeadline := 600, roundDeadline := 1100 } ∧
        ∃ after, probing.receiveIndirectAck 1 member true 200 = .ok ([], after) ∧
          after.probes.get? 1 = none ∧
          after.lastHeard.get? member = some 200 ∧
          after.suspicions = probing.suspicions ∧
          ∀ suspicion, probing.suspicions.get? member = some suspicion →
            ∀ later last, Runs after later last →
              (∀ occurrence ∈ later, ¬ occurrence.operation.Dismisses member) →
              (∃ occurrence ∈ later, ∃ moment, occurrence.operation = .checkTimeouts moment ∧
                suspicion.deadline ≤ moment) →
              1 ≤ deaths member later := by
  obtain ⟨history, run⟩ := runs_probing
  have probed :
      probing.probes.get? 1 =
        some { target := member, directDeadline := 600, roundDeadline := 1100 } :=
    rfl
  exact ⟨rfl, history, run, probed, suspicion_outlives_report rfl run probed 200⟩

/-- A suspicion from before the report ends in a verdict after it. -/
theorem dead_after_report :
    ∃ history after findings final,
      Runs (exact usual host) history probing ∧
        (probing.probes.get? 1).map Probe.target = some member ∧
        probing.receiveIndirectAck 1 member true 200 = .ok ([], after) ∧
        after.isSuspected member = true ∧
        after.checkTimeouts 5000 = .ok (findings, final) ∧
        .dead member ∈ findings := by
  obtain ⟨history, run⟩ := runs_probing
  have dueBy : (probing.reassured 1 member 200).DueBy member 5000 :=
    ⟨_, rfl, Nat.le_refl _⟩
  obtain ⟨findings, final, checked⟩ :
      ∃ findings final,
        (probing.reassured 1 member 200).checkTimeouts 5000 = .ok (findings, final) :=
    ⟨_, _, rfl⟩
  refine ⟨history, _, findings, final, run, rfl, rfl, rfl, checked, ?_⟩
  exact (dueBy.checkTimeouts checked).resolve_right fun ahead => Nat.lt_irrefl _ ahead.1

end Detector

end Roster
