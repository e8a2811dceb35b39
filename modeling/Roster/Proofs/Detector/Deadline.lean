import Roster.Proofs.Detector.Report

/-!
# Deadlines of suspicions

The deadline of a suspicion lies between the shortest and the longest time after
its start, and nothing that is suspected moves it out again.  As long as the
size of the cluster does not change it is a function of the start, the last
contact and the number of suspectors: every new suspector shortens the time, so
the least of the deadlines computed so far is the one for the present number,
whoever was the last to suspect the member and whenever.
-/

namespace Roster

namespace Detector

variable {detector before after current : Detector} {target suspector : Endpoint}
  {now deadline startedAt lastHeard suspectors size fewer more : Nat} {moment : Option Nat}
  {operation : Operation} {findings : List Finding} {options : DetectorOptions}

/-! ## Exact deadlines -/

/-- The detector goes by the options, with exact products and logarithms. -/
structure GoesBy (detector : Detector) (options : DetectorOptions) : Prop where
  options_eq : detector.options = options
  timing_eq : detector.timing = SuspicionTiming.exact options

private theorem GoesBy.of_terms (goesBy : detector.GoesBy options)
    (terms : SameTerms detector after) :
    after.GoesBy options :=
  ⟨terms.options_eq.trans goesBy.options_eq, terms.timing_eq.trans goesBy.timing_eq⟩

theorem GoesBy.operate (goesBy : detector.GoesBy options)
    (operated : detector.operate operation = .ok (findings, after)) : after.GoesBy options :=
  have ⟨sameOptions, sameTiming⟩ := bounds_of_operate operated
  ⟨sameOptions.trans goesBy.options_eq, sameTiming.trans goesBy.timing_eq⟩

theorem Runs.goesBy {start : Detector} {history : List Occurrence}
    (run : Runs start history detector)
    (goesBy : start.GoesBy options) : detector.GoesBy options := by
  induction run with
  | start => exact goesBy
  | operate _ operated inductionHypothesis => exact inductionHypothesis.operate operated

/-- When a suspicion with so many suspectors is due in a cluster of a size: the
decayed time after its start, pulled in to the budget after the last contact,
but not before the shortest time is over. -/
noncomputable def dueTime (options : DetectorOptions)
    (size startedAt lastHeard suspectors : Nat) : Nat :=
  let timing := SuspicionTiming.exact options
  let budget :=
    Word.saturatingMultiply options.suspicionCeiling options.probeInterval -
      options.probeInterval
  max
    (min (startedAt + timing.timeout size suspectors) (Word.saturatingAdd lastHeard budget))
    (startedAt + timing.shortest size)

theorem GoesBy.suspicionDeadline (goesBy : detector.GoesBy options)
    (computed : detector.suspicionDeadline startedAt lastHeard suspectors = .ok deadline) :
    deadline = dueTime options detector.clusterSize startedAt lastHeard suspectors := by
  rw [suspicionDeadline_eq_ok computed, suspicionTimeout, verdictBudget, goesBy.options_eq,
    goesBy.timing_eq]
  rfl

/-- A suspicion is due by the longest time after its start. -/
private theorem dueTime_le (options : DetectorOptions) (size startedAt lastHeard suspectors : Nat) :
    dueTime options size startedAt lastHeard suspectors ≤
      startedAt + options.suspicionCeiling * options.probeInterval := by
  refine max_le ((min_le_left _ _).trans ?_) ?_
  · exact Nat.add_le_add_left (SuspicionTiming.timeout_le options size suspectors) startedAt
  · exact Nat.add_le_add_left (SuspicionTiming.shortest_le options size) startedAt

/-- The more hosts suspect a member, the sooner its suspicion is due. -/
private theorem dueTime_antitone (further : fewer ≤ more) :
    dueTime options size startedAt lastHeard more ≤
      dueTime options size startedAt lastHeard fewer := by
  refine max_le_max (min_le_min ?_ le_rfl) le_rfl
  exact Nat.add_le_add_left (SuspicionTiming.timeout_antitone further) startedAt

/-! ## Deadlines in a run -/

/-- The deadline is not later than the longest time after the start. -/
def EndsBy (longest : Nat) (suspicion : Suspicion) : Prop :=
  suspicion.deadline ≤ suspicion.startedAt + longest

/-- The deadline is the due time for the present number of suspectors. -/
def IsTimely (options : DetectorOptions) (size : Nat) (suspicion : Suspicion) : Prop :=
  suspicion.deadline =
    dueTime options size suspicion.startedAt suspicion.lastHeard suspicion.suspectors.size

private theorem GoesBy.lasting_endsBy (goesBy : detector.GoesBy options) :
    Lasting detector (EndsBy (options.suspicionCeiling * options.probeInterval)) where
  probed _ endsBy := endsBy
  opened terms computed := by
    rw [EndsBy, opened, (goesBy.of_terms terms).suspicionDeadline computed]
    exact dueTime_le _ _ _ _ _
  joined _ _ _ endsBy := (Nat.min_le_left _ _).trans endsBy

/-- The least of the deadlines for fewer suspectors and for one more is the latter:
this is why the order of the reports does not matter. -/
private theorem GoesBy.lasting_isTimely (goesBy : detector.GoesBy options) :
    Lasting detector (IsTimely options detector.clusterSize) where
  probed _ isTimely := isTimely
  opened terms computed := by
    rw [IsTimely, opened, (goesBy.of_terms terms).suspicionDeadline computed,
      terms.clusterSize_eq]
    rfl
  joined {current suspicion suspector deadline} terms absent computed isTimely := by
    have further :
        dueTime options detector.clusterSize suspicion.startedAt suspicion.lastHeard
            (suspicion.suspectors.size + 1) ≤
          dueTime options detector.clusterSize suspicion.startedAt suspicion.lastHeard
            suspicion.suspectors.size :=
      dueTime_antitone (Nat.le_succ _)
    rw [IsTimely, joined, SortedSet.size_add absent, isTimely,
      (goesBy.of_terms terms).suspicionDeadline computed, terms.clusterSize_eq]
    exact Nat.min_eq_right further

private theorem Runs.endsBy {start : Detector} {history : List Occurrence}
    (run : Runs start history detector) (fresh : start.suspicions = SortedMap.empty)
    (goesBy : start.GoesBy options) (target : Endpoint) :
    detector.Bears target (EndsBy (options.suspicionCeiling * options.probeInterval)) := by
  induction run with
  | start =>
      intro suspicion found
      rw [fresh, SortedMap.get?_empty] at found
      cases found
  | operate run operated inductionHypothesis =>
      exact (run.goesBy goesBy).lasting_endsBy.operate operated inductionHypothesis

private theorem Runs.isTimely {later : List Occurrence} (run : Runs detector later after)
    (goesBy : detector.GoesBy options) (unsuspected : detector.isSuspected target = false)
    (steady : ∀ occurrence ∈ later, occurrence.before.clusterSize = size) :
    after.Bears target (IsTimely options size) := by
  induction run with
  | start =>
      intro suspicion found
      rw [isSuspected_eq_false_iff.mp unsuspected] at found
      cases found
  | @operate history before after operation findings run operated inductionHypothesis =>
      have sameSize : before.clusterSize = size :=
        steady _ (List.mem_append_right _ (List.mem_singleton_self _))
      have untilNow :=
        inductionHypothesis fun occurrence among => steady occurrence (List.mem_append_left _ among)
      -- The property names the size, so it lasts only as long as this is the size before
      -- every operation.
      have lasting := (run.goesBy goesBy).lasting_isTimely
      rw [sameSize] at lasting
      exact lasting.operate operated untilNow

/-- Every deadline lies between the shortest and the longest time after the start of
the suspicion; to suspect someone moves no deadline out; and since a moment at
which a member was not suspected, as long as the size of the cluster does not
change, the deadline of its suspicion is a function of the start, the last
contact and the number of suspectors. -/
theorem suspicion_deadlines {own : Endpoint} {history : List Occurrence}
    (fits :
      min (options.suspicionMultiplier * options.probeTimeout)
        (options.suspicionCeiling * options.probeInterval) < 2 ^ 64)
    (run : Runs (exact options own) history detector) :
    (∀ target suspicion, detector.suspicions.get? target = some suspicion →
        suspicion.startedAt +
              min (options.suspicionMultiplier * options.probeTimeout)
                (options.suspicionCeiling * options.probeInterval) ≤
            suspicion.deadline ∧
          suspicion.deadline ≤
            suspicion.startedAt + options.suspicionCeiling * options.probeInterval) ∧
      (∀ target suspector now finding after,
        detector.suspect target suspector now = .ok (finding, after) →
          ∀ other suspicion, detector.suspicions.get? other = some suspicion →
            ∃ later, after.suspicions.get? other = some later ∧
              later.deadline ≤ suspicion.deadline) ∧
        ∀ target size, detector.isSuspected target = false →
          ∀ later last, Runs detector later last →
            (∀ occurrence ∈ later, occurrence.before.clusterSize = size) →
              ∀ suspicion, last.suspicions.get? target = some suspicion →
                suspicion.deadline =
                  dueTime options size suspicion.startedAt suspicion.lastHeard
                    suspicion.suspectors.size := by
  have goesBy : (exact options own).GoesBy options := ⟨rfl, rfl⟩
  refine ⟨fun target suspicion found => ⟨?_, ?_⟩, ?_, ?_⟩
  · have floored := (run.founded rfl (SuspicionTiming.floor_le_shortest options)).floored
    have word : SuspicionTiming.floor options ≤ Word.largest := Nat.le_pred_of_lt fits
    have enough := floored.deadline found
    rwa [min_eq_left word] at enough
  · exact run.endsBy rfl goesBy target suspicion found
  · intro target suspector now finding after suspected other suspicion found
    have dueBy : detector.DueBy other suspicion.deadline := ⟨suspicion, found, Nat.le_refl _⟩
    exact dueBy.suspect suspected
  · intro target size unsuspected later last continued steady
    exact continued.isTimely (run.goesBy goesBy) unsuspected steady

/-! A member that two hosts suspect. -/

def neighbour : Endpoint where
  address := "127.0.0.1"
  port := 7002
  incarnation := 10

theorem exactLeast_usual : SuspicionTiming.exactLeast usual 1 = 2000 := by
  rw [SuspicionTiming.exactLeast_of_le (by decide)]
  norm_num [SuspicionTiming.floor, usual]

theorem exactLongest_usual : SuspicionTiming.exactLongest usual = 6000 := by
  norm_num [SuspicionTiming.exactLongest, usual]

/-- With three confirmations expected, the first takes half of what can be taken from
the time. -/
private theorem timeout_two_usual : (SuspicionTiming.exact usual).timeout 1 2 = 4000 := by
  have decay : Real.log (1 + 1) / Real.log (3 + 1) = 1 / 2 := by
    have four : Real.log (3 + 1) = 2 * Real.log (1 + 1) := by
      rw [← Real.log_rpow (by norm_num)]
      norm_num
    have positive : 0 < Real.log (1 + 1) := Real.log_pos (by norm_num)
    rw [four]
    field_simp
  have value : max (6000 - (6000 - 2000) * (1 / 2)) 2000 = ((4000 : Nat) : ℝ) := by
    norm_num
  have evaluated :
      (SuspicionTiming.exact usual).timeout 1 2 =
        SuspicionTiming.nextWord (max (6000 - (6000 - 2000) * (1 / 2)) 2000) := by
    simp only [SuspicionTiming.exact, exactLeast_usual, exactLongest_usual, ← decay]
    norm_num [usual]
  rw [evaluated, value, SuspicionTiming.nextWord_natCast]
  rfl

private theorem deadline_two_usual :
    (suspecting usual host member 5000).suspicionDeadline 0 0 2 = .ok 4000 := by
  have shortest :
      (suspecting usual host member 5000).timing.shortest
          (suspecting usual host member 5000).clusterSize =
        2000 :=
    SuspicionTiming.shortest_of_le (show (1 : Nat) ≤ 9 by decide)
  have timeout : (suspecting usual host member 5000).suspicionTimeout 2 = 4000 :=
    timeout_two_usual
  rw [suspicionDeadline, shortest, timeout]
  rfl

/-- The suspicion of the host and, since some moment, of its neighbour. -/
def shared : Suspicion where
  startedAt := 0
  lastHeard := 0
  incarnation := member.incarnation
  suspectors := SortedSet.add (SortedSet.add SortedMap.empty host) neighbour
  deadline := 4000
  probedAt := some 0

/-- The detector when both suspect the member. -/
noncomputable def sharing : Detector :=
  { suspecting usual host member 5000 with
    suspicions := (suspecting usual host member 5000).suspicions.insert member shared }

theorem operate_suspect_shared :
    (suspecting usual host member 5000).operate (.suspect member neighbour 100) =
      .ok ([], sharing) := by
  have found :
      (suspecting usual host member 5000).suspicions.get? member =
        some
          { startedAt := 0
            lastHeard := 0
            incarnation := member.incarnation
            suspectors := SortedSet.add SortedMap.empty host
            deadline := 5000
            probedAt := some 0 } :=
    rfl
  have foreign : member ≠ (suspecting usual host member 5000).own := by
    show member ≠ host
    decide
  have other : neighbour ≠ (suspecting usual host member 5000).own := by
    show neighbour ≠ host
    decide
  have absent : (SortedSet.add SortedMap.empty host).contains neighbour = false := rfl
  have single : (SortedSet.add SortedMap.empty host).size = 1 := rfl
  have computed :
      (suspecting usual host member 5000).suspicionDeadline 0 0 (1 + 1) = .ok 4000 :=
    deadline_two_usual
  simp only [operate, suspect, if_neg foreign, found, absent, single, computed, Attempt.ok_bind,
    if_neg other]
  rfl

theorem suspicion_deadlines_sharing :
    min (4 * 500) (6 * 1000) < 2 ^ 64 ∧
      ∃ history, Runs (exact usual host) history sharing ∧
        sharing.suspicions.get? member = some shared ∧
        shared.suspectors.size = 2 ∧
        0 + min (4 * 500) (6 * 1000) ≤ 4000 ∧ 4000 ≤ 0 + 6 * 1000 ∧
        4000 = dueTime usual 1 0 0 2 := by
  have fits :
      min (usual.suspicionMultiplier * usual.probeTimeout)
        (usual.suspicionCeiling * usual.probeInterval) < 2 ^ 64 := by
    decide
  have begun := runs_suspecting (show member ≠ host by decide) deadline_usual
  have run := begun.operate operate_suspect_shared
  have found : sharing.suspicions.get? member = some shared := rfl
  obtain ⟨least, longest⟩ := (suspicion_deadlines fits run).1 member shared found
  have timely : shared.deadline = dueTime usual 1 0 0 shared.suspectors.size := by
    refine (suspicion_deadlines fits .start).2.2 member 1 rfl _ _ run ?_ shared found
    exact List.forall_mem_cons.mpr ⟨rfl, List.forall_mem_singleton.mpr rfl⟩
  exact ⟨fits, _, run, found, rfl, least, longest, timely⟩

end Detector

end Roster
