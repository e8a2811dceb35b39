import Mathlib.Data.List.Count
import Mathlib.Data.List.Nodup
import Roster.Proofs.Detector

/-!
# Verdicts of one operation

What one operation can do to the suspicions and their times.  A suspicion that
is there afterwards was there before, or the operation opened it.  No suspicion
ends before the shortest time has passed since it was opened.  Only the passing
of time leads to a verdict, and then to one on a suspicion that is due, which
it ends.
-/

namespace Roster

namespace Detector

variable {detector before after : Detector} {target suspector : Endpoint} {now : Nat}
  {moment : Option Nat} {operation : Operation} {findings : List Finding}
  {suspicion : Suspicion} {least : Nat} {property : Suspicion → Prop}

theorem isSuspected_eq_false_iff :
    detector.isSuspected target = false ↔ detector.suspicions.get? target = none :=
  SortedMap.contains_eq_false_iff

theorem isSuspected_of_get? (found : detector.suspicions.get? target = some suspicion) :
    detector.isSuspected target = true := by
  rw [isSuspected, SortedMap.contains, found]
  rfl

/-! ## When suspicions started -/

/-- A suspicion that started at a moment was there before, or the moment is the
present one and there was none. -/
def Traces (moment : Option Nat) (before : Detector) (target : Endpoint) (startedAt : Nat) :
    Prop :=
  (∃ earlier, before.suspicions.get? target = some earlier ∧ earlier.startedAt = startedAt) ∨
    before.isSuspected target = false ∧ moment = some startedAt

private theorem traces_of_suspect {finding : Option Finding} {other : Endpoint}
    (suspected : detector.suspect target suspector now = .ok (finding, after))
    (found : after.suspicions.get? other = some suspicion) :
    Traces (some now) detector other suspicion.startedAt := by
  rcases suspicion_of_suspect suspected found with
    stood | ⟨standing, _, stood, _, _, rfl⟩ | ⟨_, unsuspected, _, rfl⟩
  · exact Or.inl ⟨suspicion, stood, rfl⟩
  · exact Or.inl ⟨standing, stood, rfl⟩
  · exact Or.inr ⟨isSuspected_eq_false_iff.mpr unsuspected, rfl⟩

/-- A suspicion makes its target suspected, and nobody else; the own endpoint is
never suspected. -/
theorem isSuspected_suspect_iff {finding : Option Finding} {other : Endpoint}
    (suspected : detector.suspect target suspector now = .ok (finding, after)) :
    after.isSuspected other = true ↔
      detector.isSuspected other = true ∨ target ≠ detector.own ∧ other = target := by
  rcases suspect_eq_ok suspected with
    ⟨refused, _, rfl⟩ |
      ⟨foreign, ⟨suspicion, _, found, _, _, _, rfl⟩ | ⟨_, unsuspected, _, _, rfl⟩⟩
  · refine ⟨Or.inl, ?_⟩
    rintro (before | ⟨foreign, rfl⟩)
    · exact before
    · obtain ⟨suspicion, found, _⟩ := refused.resolve_left foreign
      exact isSuspected_of_get? found
  all_goals
    by_cases here : other = target
    · simp [isSuspected, SortedMap.contains, SortedMap.get?_insert, here, foreign]
    · simp [isSuspected, SortedMap.contains, SortedMap.get?_insert, here]

theorem isSuspected_of_mapValues {change : Endpoint → Suspicion → Suspicion}
    (noted : after.suspicions = before.suspicions.mapValues change) :
    after.isSuspected target = before.isSuspected target := by
  rw [isSuspected, SortedMap.contains, noted, SortedMap.get?_mapValues, Option.isSome_map]
  rfl

/-- In its course an operation drops no suspicion. -/
theorem Course.isSuspected (course : Course suspector moment before findings after)
    (suspected : before.isSuspected target = true) : after.isSuspected target = true := by
  induction course with
  | note _ _ noted => rwa [isSuspected_of_mapValues noted]
  | suspect _ told => exact (isSuspected_suspect_iff told).mpr (Or.inl suspected)
  | trans _ _ left right => exact right (left suspected)

theorem Course.isSuspected_eq_false (course : Course suspector moment before findings after)
    (unsuspected : after.isSuspected target = false) : before.isSuspected target = false := by
  by_contra suspected
  rw [Bool.not_eq_false] at suspected
  rw [course.isSuspected suspected] at unsuspected
  cases unsuspected

theorem Course.traces (course : Course suspector moment before findings after)
    (found : after.suspicions.get? target = some suspicion) :
    Traces moment before target suspicion.startedAt := by
  induction course generalizing suspicion with
  | note probedAt _ noted =>
      rw [noted, SortedMap.get?_mapValues] at found
      obtain ⟨earlier, foundEarlier, rfl⟩ := Option.map_eq_some_iff.mp found
      exact Or.inl ⟨earlier, foundEarlier, rfl⟩
  | suspect timely suspected => exact timely ▸ traces_of_suspect suspected found
  | trans first _ left right =>
      rcases right found with ⟨middle, foundMiddle, sameStart⟩ | ⟨unsuspected, timely⟩
      · exact sameStart ▸ left foundMiddle
      · exact Or.inr ⟨first.isSuspected_eq_false unsuspected, timely⟩

/-- What is suspected in the end was suspected just the same before. -/
theorem Ends.get?_eq_some (ends : Ends before findings after)
    (found : after.suspicions.get? target = some suspicion) :
    before.suspicions.get? target = some suspicion := by
  obtain ⟨kept, filtered⟩ := ends.kept
  rw [filtered, SortedMap.get?_filter] at found
  exact (Option.filter_eq_some_iff.mp found).1

/-- Every suspicion after an operation was there before, or was opened by
it. -/
theorem traces_of_operate (operated : detector.operate operation = .ok (findings, after))
    (found : after.suspicions.get? target = some suspicion) :
    Traces operation.moment? detector target suspicion.startedAt := by
  obtain ⟨middle, _, _, course, ends, _, _⟩ := phases_of_operate operated
  exact course.traces (ends.get?_eq_some found)

/-! ## Lasting properties of suspicions -/

/-- Every suspicion of a target, if there is one, has a property. -/
def Bears (detector : Detector) (target : Endpoint) (property : Suspicion → Prop) : Prop :=
  ∀ suspicion, detector.suspicions.get? target = some suspicion → property suspicion

/-- A suspicion has a property when it is opened, and keeps it when its target is
probed or another host suspects it, as long as the detector goes by the same
terms. -/
structure Lasting (detector : Detector) (property : Suspicion → Prop) : Prop where
  probed : ∀ {suspicion : Suspicion} (probedAt : Option Nat),
    property suspicion → property { suspicion with probedAt }
  opened : ∀ {current : Detector} {target suspector : Endpoint} {now deadline : Nat},
    SameTerms detector current →
      current.suspicionDeadline now ((current.lastHeard.get? target).getD now) 1 =
          .ok deadline →
        property (current.opened target suspector now deadline)
  joined : ∀ {current : Detector} {suspicion : Suspicion} {suspector : Endpoint}
      {deadline : Nat},
    SameTerms detector current → suspicion.suspectors.contains suspector = false →
      current.suspicionDeadline suspicion.startedAt suspicion.lastHeard
          (suspicion.suspectors.size + 1) = .ok deadline →
        property suspicion → property (joined suspicion suspector deadline)

namespace Lasting

theorem suspect {current : Detector} {other : Endpoint} {finding : Option Finding}
    (lasting : Lasting detector property) (terms : SameTerms detector current)
    (suspected : current.suspect other suspector now = .ok (finding, after))
    (bears : current.Bears target property) : after.Bears target property := by
  intro suspicion found
  rcases suspicion_of_suspect suspected found with
    stood | ⟨standing, _, stood, absent, computed, rfl⟩ | ⟨_, _, computed, rfl⟩
  · exact bears suspicion stood
  · exact lasting.joined terms absent computed (bears standing stood)
  · exact lasting.opened terms computed

theorem course (lasting : Lasting detector property) (terms : SameTerms detector before)
    (course : Course suspector moment before findings after)
    (bears : before.Bears target property) : after.Bears target property := by
  induction course with
  | note probedAt _ noted =>
      intro suspicion found
      rw [noted, SortedMap.get?_mapValues] at found
      obtain ⟨earlier, foundEarlier, rfl⟩ := Option.map_eq_some_iff.mp found
      exact lasting.probed _ (bears earlier foundEarlier)
  | suspect _ suspected => exact lasting.suspect terms suspected bears
  | trans first _ left right => exact right (terms.trans first.terms) (left terms bears)

/-- No operation takes a lasting property from the suspicion of a target. -/
theorem operate (lasting : Lasting detector property)
    (operated : detector.operate operation = .ok (findings, after))
    (bears : detector.Bears target property) : after.Bears target property := by
  obtain ⟨middle, _, _, course, ends, _, _⟩ := phases_of_operate operated
  intro suspicion found
  exact lasting.course (.refl detector) course bears suspicion (ends.get?_eq_some found)

end Lasting

/-! ## The shortest time -/

/-- No suspicion ends before some time has passed, now or in a cluster of
another size. -/
structure Floored (least : Nat) (detector : Detector) : Prop where
  shortest : ∀ size, least ≤ detector.timing.shortest size
  deadline : ∀ {target suspicion}, detector.suspicions.get? target = some suspicion →
    suspicion.startedAt + least ≤ suspicion.deadline

theorem suspicionDeadline_eq_ok {startedAt lastHeard suspectors deadline : Nat}
    (computed : detector.suspicionDeadline startedAt lastHeard suspectors = .ok deadline) :
    deadline =
      max
        (min (startedAt + detector.suspicionTimeout suspectors)
          (Word.saturatingAdd lastHeard detector.verdictBudget))
        (startedAt + detector.timing.shortest detector.clusterSize) := by
  unfold suspicionDeadline at computed
  obtain ⟨floor, floorComputed, computed⟩ := Attempt.bind_eq_ok computed
  obtain ⟨decayed, decayedComputed, returned⟩ := Attempt.bind_eq_ok computed
  cases returned
  rw [Word.eq_add_of_ok floorComputed, Word.eq_add_of_ok decayedComputed]

private theorem le_suspicionDeadline {startedAt lastHeard suspectors deadline : Nat}
    (shortest : ∀ size, least ≤ detector.timing.shortest size)
    (computed : detector.suspicionDeadline startedAt lastHeard suspectors = .ok deadline) :
    startedAt + least ≤ deadline := by
  rw [suspicionDeadline_eq_ok computed]
  calc
    startedAt + least ≤ startedAt + detector.timing.shortest detector.clusterSize :=
      Nat.add_le_add_left (shortest detector.clusterSize) startedAt
    _ ≤ max _ _ := Nat.le_max_right _ _

private theorem lasting_of_shortest (shortest : ∀ size, least ≤ detector.timing.shortest size) :
    Lasting detector fun suspicion => suspicion.startedAt + least ≤ suspicion.deadline where
  probed _ enough := enough
  opened terms computed := by
    rw [← terms.timing_eq] at shortest
    exact le_suspicionDeadline shortest computed
  joined terms _ computed enough := by
    rw [← terms.timing_eq] at shortest
    exact Nat.le_min.mpr ⟨enough, le_suspicionDeadline shortest computed⟩

theorem Floored.course (floored : before.Floored least)
    (course : Course suspector moment before findings after) : after.Floored least where
  shortest size := course.terms.timing_eq ▸ floored.shortest size
  deadline found :=
    (lasting_of_shortest floored.shortest).course (.refl before) course
      (fun _ => floored.deadline) _ found

/-- No operation changes the options or the timing. -/
theorem bounds_of_operate (operated : detector.operate operation = .ok (findings, after)) :
    after.options = detector.options ∧ after.timing = detector.timing := by
  obtain ⟨middle, _, _, course, _, _, setting | terms⟩ := phases_of_operate operated
  · cases operation with
    | setOwn | setClusterSize =>
        cases operated
        exact ⟨rfl, rfl⟩
    | _ => exact setting.elim
  · have throughout := course.terms.trans terms
    exact ⟨throughout.options_eq, throughout.timing_eq⟩

theorem Floored.operate (floored : detector.Floored least)
    (operated : detector.operate operation = .ok (findings, after)) : after.Floored least where
  shortest size := (bounds_of_operate operated).2 ▸ floored.shortest size
  deadline found :=
    (lasting_of_shortest floored.shortest).operate operated (fun _ => floored.deadline) _ found

/-! ## Verdicts of one operation -/

/-- In its course an operation finds no more of a suspicion than that it is new or
confirmed. -/
private theorem Course.suspected_or_confirmed {finding : Finding}
    (course : Course suspector moment before findings after) (among : finding ∈ findings)
    (about : finding.suspect? = some target) :
    finding = .suspected target ∨ finding = .confirmed target := by
  induction course with
  | note _ _ _ silent =>
      rw [silent finding among] at about
      cases about
  | suspect _ suspected =>
      rcases finding_of_suspect_cases suspected among with rfl | rfl
      · exact Or.inl (congrArg Finding.suspected (Option.some.inj about))
      · exact Or.inr (congrArg Finding.confirmed (Option.some.inj about))
  | trans _ _ left right =>
      rcases List.mem_append.mp among with before | later
      · exact left before
      · exact right later

theorem Course.not_dead (course : Course suspector moment before findings after) :
    .dead target ∉ findings := by
  intro dead
  rcases course.suspected_or_confirmed dead rfl with same | same <;> cases same

theorem Course.not_refuted (course : Course suspector moment before findings after) :
    .refuted target ∉ findings := by
  intro refuted
  rcases course.suspected_or_confirmed refuted rfl with same | same <;> cases same

/-- Only the passing of time leads to verdicts. -/
theorem checkTimeouts_of_dead (operated : detector.operate operation = .ok (findings, after))
    (dead : .dead target ∈ findings) : ∃ now, operation = .checkTimeouts now := by
  by_cases setting : operation.IsSetting
  · cases operation with
    | setOwn | setClusterSize =>
        cases operated
        cases dead
    | _ => exact setting.elim
  by_cases closing : operation.IsClosing
  · cases operation with
    | checkTimeouts now => exact ⟨now, rfl⟩
    | observe sender now =>
        cases operated
        obtain ⟨refuted, _, same⟩ := List.mem_map.mp dead
        cases same
    | forget | retainMembers =>
        cases operated
        cases dead
    | _ => exact closing.elim
  · exact absurd dead (course_of_operate setting closing operated).not_dead

/-- A suspicion is due and the verdict is passed on it, or it is kept as it is. -/
theorem dead_or_kept (detector : Detector) (now : Nat)
    (found : detector.suspicions.get? target = some suspicion) :
    target ∈ detector.due now ∧ suspicion.deadline ≤ now ∨
      now < suspicion.deadline ∧
        (detector.afterVerdicts now).suspicions.get? target = some suspicion := by
  by_cases passed : suspicion.deadline ≤ now
  · refine Or.inl ⟨?_, passed⟩
    rw [due, SortedMap.mem_keys_iff, SortedMap.contains, SortedMap.get?_filter, found,
      Option.filter_some, if_pos (decide_eq_true passed)]
    rfl
  · have ahead : now < suspicion.deadline := Nat.not_le.mp passed
    refine Or.inr ⟨ahead, ?_⟩
    rw [afterVerdicts, SortedMap.get?_filter, found, Option.filter_some,
      if_pos (decide_eq_true ahead)]

/-- The verdict on a suspicion that is due ends it. -/
theorem ended_of_due (due : target ∈ detector.due now) :
    ∃ suspicion, detector.suspicions.get? target = some suspicion ∧ suspicion.deadline ≤ now ∧
      (detector.afterVerdicts now).suspicions.get? target = none := by
  obtain ⟨suspicion, kept⟩ := SortedMap.contains_iff.mp (SortedMap.mem_keys_iff.mp due)
  rw [SortedMap.get?_filter, Option.filter_eq_some_iff] at kept
  obtain ⟨found, isDue⟩ := kept
  have isDue : suspicion.deadline ≤ now := by
    simpa using isDue
  refine ⟨suspicion, found, isDue, ?_⟩
  rw [afterVerdicts, SortedMap.get?_filter, found, Option.filter_some, if_neg]
  simpa using isDue

/-- A verdict is passed on a suspicion that is due, once, and ends it. -/
theorem dead_of_checkTimeouts (checked : detector.checkTimeouts now = .ok (findings, after))
    (dead : .dead target ∈ findings) :
    ∃ middle found suspicion, Course detector.own (some now) detector found middle ∧
      middle.suspicions.get? target = some suspicion ∧ suspicion.deadline ≤ now ∧
      after.suspicions.get? target = none ∧ findings.count (.dead target) = 1 := by
  obtain ⟨middle, suspected, failed, rfl, rfl⟩ := checkTimeouts_eq_ok checked
  have course := Course.ending failed
  have due : target ∈ middle.due now := by
    obtain ⟨judged, due, same⟩ :=
      List.mem_map.mp ((List.mem_append.mp dead).resolve_left course.not_dead)
    exact Finding.dead.inj same ▸ due
  obtain ⟨suspicion, found, isDue, ended⟩ := ended_of_due due
  refine ⟨middle, _, suspicion, course, found, isDue, ended, ?_⟩
  have injective : Function.Injective Finding.dead := fun _ _ same => Finding.dead.inj same
  rw [List.count_append, List.count_eq_zero.mpr course.not_dead, Nat.zero_add,
    List.count_map_of_injective _ _ injective]
  exact List.count_eq_one_of_mem (SortedMap.nodup_keys _) due

end Detector

end Roster
