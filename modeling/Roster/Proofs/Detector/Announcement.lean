import Roster.Proofs.Detector.Run

/-!
# Announcements of suspicions

A detector announces a suspicion when it opens one itself, and when it confirms
one that only others have.  By either it becomes a suspector, and a suspector is
never asked again, so from its opening to its end a suspicion is announced at
most once, whatever rounds fail meanwhile and whatever is heard.  Whoever is
found alive again or dead was suspected and is not suspected afterwards, and the
detector never suspects its own endpoint.
-/

namespace Roster

/-- The finding announces that we suspect a target. -/
def Finding.announces (target : Endpoint) : Finding → Bool
  | .suspected announced | .confirmed announced => announced = target
  | _ => false

private theorem Finding.suspect?_of_announces {finding : Finding} {target : Endpoint}
    (announces : finding.announces target = true) : finding.suspect? = some target := by
  cases finding with
  | suspected | confirmed => exact congrArg some (of_decide_eq_true announces)
  | _ => cases announces

namespace Detector

variable {detector before after : Detector} {target suspector accuser : Endpoint} {now : Nat}
  {moment : Option Nat} {operation : Operation} {findings : List Finding}
  {history : List Occurrence}

/-! ## Announcements in the course of an operation -/

theorem Course.blames (course : Course suspector moment before findings after)
    (blamed : before.Blames target accuser) : after.Blames target accuser := by
  induction course with
  | note probedAt _ noted =>
      obtain ⟨suspicion, found, among⟩ := blamed
      refine ⟨{ suspicion with probedAt := probedAt target suspicion }, ?_, among⟩
      rw [noted, SortedMap.get?_mapValues, found, Option.map_some]
  | suspect _ suspected => exact (blames_suspect_iff suspected).mpr (Or.inl blamed)
  | trans _ _ left right => exact right (left blamed)

private theorem Course.blames_or_eq (course : Course suspector moment before findings after)
    (blamed : after.Blames target accuser) :
    before.Blames target accuser ∨ accuser = suspector := by
  induction course with
  | note probedAt _ noted =>
      obtain ⟨suspicion, found, among⟩ := blamed
      rw [noted, SortedMap.get?_mapValues] at found
      obtain ⟨earlier, foundEarlier, rfl⟩ := Option.map_eq_some_iff.mp found
      exact Or.inl ⟨earlier, foundEarlier, among⟩
  | suspect _ suspected =>
      rcases (blames_suspect_iff suspected).mp blamed with earlier | ⟨_, _, same⟩
      · exact Or.inl earlier
      · exact Or.inr same
  | trans _ _ left right =>
      rcases right blamed with middle | same
      · exact left middle
      · exact Or.inr same

/-- Whoever is suspected anew is suspected by the host in whose name the operation
suspects. -/
theorem Course.blames_of_opened (course : Course suspector moment before findings after)
    (unsuspected : before.isSuspected target = false)
    (suspected : after.isSuspected target = true) : after.Blames target suspector := by
  induction course with
  | note _ _ noted =>
      rw [isSuspected_of_mapValues noted, unsuspected] at suspected
      cases suspected
  | suspect _ told =>
      rcases (isSuspected_suspect_iff told).mp suspected with before | opened
      · rw [unsuspected] at before
        cases before
      · exact (blames_suspect_iff told).mpr (Or.inr ⟨opened.1, opened.2, rfl⟩)
  | @trans _ middle _ _ _ _ second left right =>
      cases between : middle.isSuspected target with
      | true => exact second.blames (left unsuspected between)
      | false => exact right between suspected

/-- What a detector announces of a target when it suspects in the name of a host:
nothing, that it suspects the target anew, or that it confirms what only others
suspected. -/
inductive Announced (own target suspector : Endpoint) (before after : Detector) :
    List Finding → Prop where
  | nothing : Announced own target suspector before after []
  | opening (unsuspected : before.isSuspected target = false) (ours : suspector = own)
      (blamed : after.Blames target own) :
      Announced own target suspector before after [.suspected target]
  | joining (suspected : before.isSuspected target = true)
      (unblamed : ¬ before.Blames target own) (ours : suspector = own)
      (blamed : after.Blames target own) :
      Announced own target suspector before after [.confirmed target]

theorem isSuspected_of_blames (blamed : detector.Blames target accuser) :
    detector.isSuspected target = true := by
  obtain ⟨suspicion, found, _⟩ := blamed
  exact isSuspected_of_get? found

private theorem announced_of_suspect {finding : Option Finding} {other : Endpoint}
    (suspected : detector.suspect other suspector now = .ok (finding, after)) :
    Announced detector.own target suspector detector after
      (finding.toList.filter (·.announces target)) := by
  have blames (foreign : other ≠ detector.own) (same : other = target)
      (ours : suspector = detector.own) : after.Blames target detector.own :=
    (blames_suspect_iff suspected).mpr (Or.inr ⟨foreign, same.symm, ours.symm⟩)
  rcases suspect_eq_ok suspected with
    ⟨_, rfl, _⟩ |
      ⟨foreign, ⟨suspicion, _, found, absent, _, rfl, _⟩ | ⟨_, unsuspected, _, rfl, _⟩⟩
  · exact .nothing
  · split
    · rename_i ours
      by_cases same : other = target
      · have unblamed : ¬ detector.Blames target detector.own := by
          rintro ⟨standing, foundStanding, among⟩
          rw [← same, found] at foundStanding
          cases foundStanding
          rw [← ours, absent] at among
          cases among
        have announced :
            Announced detector.own target suspector detector after [.confirmed target] :=
          .joining (same ▸ isSuspected_of_get? found) unblamed ours (blames foreign same ours)
        simpa [Finding.announces, same] using announced
      · simpa [Finding.announces, same] using Announced.nothing
    · exact .nothing
  · split
    · rename_i ours
      by_cases same : other = target
      · have announced :
            Announced detector.own target suspector detector after [.suspected target] :=
          .opening (same ▸ isSuspected_eq_false_iff.mpr unsuspected) ours
            (blames foreign same ours)
        simpa [Finding.announces, same] using announced
      · simpa [Finding.announces, same] using Announced.nothing
    · exact .nothing

/-- Once the detector is a suspector it announces nothing more. -/
theorem Announced.append {own : Endpoint} {middle : Detector} {early late : List Finding}
    {earlier later : List Finding}
    (first : Course suspector moment before early middle)
    (second : Course suspector moment middle late after)
    (left : Announced own target suspector before middle earlier)
    (right : Announced own target suspector middle after later) :
    Announced own target suspector before after (earlier ++ later) := by
  cases left with
  | nothing =>
      cases right with
      | nothing => exact .nothing
      | opening unsuspected ours blamed =>
          exact .opening (first.isSuspected_eq_false unsuspected) ours blamed
      | joining suspected unblamed ours blamed =>
          -- If the first part had opened the suspicion, then in our name, so that we would
          -- be a suspector already.
          refine .joining ?_ (fun before => unblamed (first.blames before)) ours blamed
          by_contra unsuspected
          rw [Bool.not_eq_true] at unsuspected
          exact unblamed (ours ▸ first.blames_of_opened unsuspected suspected)
  | opening unsuspected ours blamed =>
      -- From here on we are a suspector, which leaves the second part nothing to say.
      cases right with
      | nothing => exact .opening unsuspected ours (second.blames blamed)
      | opening unsuspected =>
          rw [isSuspected_of_blames blamed] at unsuspected
          cases unsuspected
      | joining _ unblamed => exact absurd blamed unblamed
  | joining suspected unblamed ours blamed =>
      cases right with
      | nothing => exact .joining suspected unblamed ours (second.blames blamed)
      | opening unsuspected =>
          rw [isSuspected_of_blames blamed] at unsuspected
          cases unsuspected
      | joining _ unblamed => exact absurd blamed unblamed

theorem Course.announced (course : Course suspector moment before findings after) :
    Announced before.own target suspector before after
      (findings.filter (·.announces target)) := by
  induction course with
  | @note _ _ findings _ _ _ silent =>
      have nothing : ∀ finding ∈ findings, ¬ finding.announces target = true := by
        intro finding among announces
        have about := Finding.suspect?_of_announces announces
        rw [silent finding among] at about
        cases about
      rw [List.filter_eq_nil_iff.mpr nothing]
      exact .nothing
  | suspect _ suspected => exact announced_of_suspect suspected
  | trans first second left right =>
      rw [List.filter_append]
      rw [first.terms.own_eq] at right
      exact left.append first second right

private theorem Ends.filter_announces (ends : Ends before findings after) :
    findings.filter (·.announces target) = [] := by
  refine List.filter_eq_nil_iff.mpr fun finding among => ?_
  obtain ⟨other, rfl | rfl, _⟩ := ends.told finding among
  · exact Bool.false_ne_true
  · exact Bool.false_ne_true

/-! ## Announcements of one operation -/

/-- Only other hosts suspect the target. -/
def LeavesToOthers (detector : Detector) (target : Endpoint) : Prop :=
  detector.isSuspected target = true ∧ ¬ detector.Blames target detector.own

instance (detector : Detector) (target : Endpoint) :
    Decidable (detector.LeavesToOthers target) :=
  inferInstanceAs (Decidable (_ ∧ _))

theorem announced_of_operate (target : Endpoint)
    (operated : detector.operate operation = .ok (findings, after)) :
    ∃ middle found told,
      Course (operation.accuser detector.own) operation.moment? detector found middle ∧
        Ends middle told after ∧
        Announced detector.own target (operation.accuser detector.own) detector middle
          (findings.filter (·.announces target)) := by
  obtain ⟨middle, found, told, course, ends, rfl, _⟩ := phases_of_operate operated
  refine ⟨middle, found, told, course, ends, ?_⟩
  rw [List.filter_append, ends.filter_announces, List.append_nil]
  exact course.announced

private theorem countP_announces_le_one (target : Endpoint)
    (operated : detector.operate operation = .ok (findings, after)) :
    findings.countP (·.announces target) ≤ 1 := by
  obtain ⟨_, _, _, _, _, announced⟩ := announced_of_operate target operated
  rw [List.countP_eq_length_filter]
  generalize findings.filter (·.announces target) = said at announced
  cases announced with
  | nothing => exact Nat.zero_le 1
  | opening | joining => exact Nat.le_refl 1

private theorem Announced.of_suspected {own : Endpoint}
    (announced :
      Announced own target suspector before after (findings.filter (·.announces target)))
    (among : .suspected target ∈ findings) :
    before.isSuspected target = false ∧ suspector = own ∧ after.Blames target own := by
  have said : .suspected target ∈ findings.filter (·.announces target) :=
    List.mem_filter.mpr ⟨among, by simp [Finding.announces]⟩
  generalize findings.filter (·.announces target) = all at announced said
  cases announced with
  | nothing => cases said
  | opening unsuspected ours blamed => exact ⟨unsuspected, ours, blamed⟩
  | joining => cases List.mem_singleton.mp said

private theorem Announced.of_confirmed {own : Endpoint}
    (announced :
      Announced own target suspector before after (findings.filter (·.announces target)))
    (among : .confirmed target ∈ findings) :
    before.isSuspected target = true ∧ ¬ before.Blames target own := by
  have said : .confirmed target ∈ findings.filter (·.announces target) :=
    List.mem_filter.mpr ⟨among, by simp [Finding.announces]⟩
  generalize findings.filter (·.announces target) = all at announced said
  cases announced with
  | nothing => cases said
  | opening => cases List.mem_singleton.mp said
  | joining suspected unblamed => exact ⟨suspected, unblamed⟩

/-- If afterwards only others suspect a target, nothing was announced of it, and if
it was suspected before, only others did. -/
theorem LeavesToOthers.of_operate
    (operated : detector.operate operation = .ok (findings, after))
    (fixed : after.own = detector.own) (others : after.LeavesToOthers target) :
    findings.countP (·.announces target) = 0 ∧
      (detector.isSuspected target = true → detector.LeavesToOthers target) := by
  obtain ⟨middle, _, _, course, ends, announced⟩ := announced_of_operate target operated
  obtain ⟨suspected, unblamed⟩ := others
  rw [fixed] at unblamed
  have unblamed : ¬ middle.Blames target detector.own := by
    obtain ⟨suspicion, found⟩ := SortedMap.contains_iff.mp suspected
    rintro ⟨standing, foundStanding, among⟩
    rw [ends.get?_eq_some found] at foundStanding
    cases foundStanding
    exact unblamed ⟨suspicion, found, among⟩
  constructor
  · rw [List.countP_eq_length_filter]
    generalize findings.filter (·.announces target) = said at announced
    cases announced with
    | nothing => rfl
    | opening _ _ blamed | joining _ _ _ blamed => exact absurd blamed unblamed
  · exact fun before => ⟨before, fun blamed => unblamed (course.blames blamed)⟩

/-- A suspicion that an operation announces as new is there afterwards, or the verdict
on it was passed at once. -/
private theorem seen_of_suspected (operated : detector.operate operation = .ok (findings, after))
    (told : .suspected target ∈ findings) :
    after.isSuspected target = true ∨ .dead target ∈ findings := by
  by_cases setting : operation.IsSetting
  · cases operation with
    | setOwn | setClusterSize =>
        cases operated
        cases told
    | _ => exact setting.elim
  by_cases closing : operation.IsClosing
  · cases operation with
    | checkTimeouts now =>
        obtain ⟨middle, suspected, failed, rfl, rfl⟩ := checkTimeouts_eq_ok operated
        have early := (List.mem_append.mp told).resolve_right (by simp)
        obtain ⟨_, _, suspicion, found, _⟩ :=
          (Course.ending failed).announced.of_suspected early
        rcases dead_or_kept middle now found with ⟨judged, _⟩ | ⟨_, kept⟩
        · exact Or.inr (List.mem_append_right _ (List.mem_map_of_mem judged))
        · exact Or.inl (isSuspected_of_get? kept)
    | observe sender now =>
        cases operated
        obtain ⟨_, _, same⟩ := List.mem_map.mp told
        cases same
    | forget | retainMembers =>
        cases operated
        cases told
    | _ => exact closing.elim
  · have course := course_of_operate setting closing operated
    exact Or.inl (isSuspected_of_blames (course.announced.of_suspected told).2.2)

/-- A suspicion is announced as new by the operation that opens it, and then nobody
but the detector itself has suspected the target so far. -/
private theorem opens_of_suspected (operated : detector.operate operation = .ok (findings, after))
    (told : .suspected target ∈ findings) :
    (∃ moment, Occurrence.Opens ⟨detector, operation, findings, after⟩ target moment) ∧
      ∀ accuser, after.Blames target accuser → accuser = detector.own := by
  obtain ⟨middle, _, _, course, ends, announced⟩ := announced_of_operate target operated
  obtain ⟨unsuspected, ours, _⟩ := announced.of_suspected told
  refine ⟨exists_opens operated unsuspected (seen_of_suspected operated told), ?_⟩
  rintro accuser ⟨suspicion, found, among⟩
  have blamed : middle.Blames target accuser := ⟨suspicion, ends.get?_eq_some found, among⟩
  rcases course.blames_or_eq blamed with before | same
  · rw [isSuspected_of_blames before] at unsuspected
    cases unsuspected
  · exact same.trans ours

/-! ## The end of a suspicion -/

private theorem of_refuted (operated : detector.operate operation = .ok (findings, after))
    (refuted : .refuted target ∈ findings) :
    detector.isSuspected target = true ∧ after.isSuspected target = false := by
  by_cases setting : operation.IsSetting
  · cases operation with
    | setOwn | setClusterSize =>
        cases operated
        cases refuted
    | _ => exact setting.elim
  by_cases closing : operation.IsClosing
  · cases operation with
    | observe sender now =>
        cases operated
        obtain ⟨other, same | same, standing, ended⟩ :=
          (Ends.observe sender now).told _ refuted
        · cases same
          exact ⟨standing, ended⟩
        · cases same
    | checkTimeouts now =>
        obtain ⟨middle, suspected, failed, rfl, rfl⟩ := checkTimeouts_eq_ok operated
        rcases List.mem_append.mp refuted with early | late
        · exact absurd early (Course.ending failed).not_refuted
        · obtain ⟨_, _, same⟩ := List.mem_map.mp late
          cases same
    | forget | retainMembers =>
        cases operated
        cases refuted
    | _ => exact closing.elim
  · exact absurd refuted (course_of_operate setting closing operated).not_refuted

/-- The detector tells of every suspicion it opens itself. -/
private theorem Course.suspected_mem (course : Course suspector moment before findings after)
    (ours : suspector = before.own) (unsuspected : before.isSuspected target = false)
    (suspected : after.isSuspected target = true) : .suspected target ∈ findings := by
  induction course with
  | note _ _ noted =>
      rw [isSuspected_of_mapValues noted, unsuspected] at suspected
      cases suspected
  | suspect _ told =>
      rcases (isSuspected_suspect_iff told).mp suspected with before | ⟨foreign, rfl⟩
      · rw [unsuspected] at before
        cases before
      rcases suspect_eq_ok told with
        ⟨refused, _, _⟩ | ⟨_, ⟨_, _, found, _, _, _, _⟩ | ⟨_, _, _, rfl, _⟩⟩
      · rw [isSuspected_of_blames (refused.resolve_left foreign)] at unsuspected
        cases unsuspected
      · rw [isSuspected_of_get? found] at unsuspected
        cases unsuspected
      · rw [if_pos ours]
        exact List.mem_singleton_self _
  | @trans _ middle _ _ _ first _ left right =>
      cases between : middle.isSuspected target with
      | true => exact List.mem_append_left _ (left ours unsuspected between)
      | false =>
          exact
            List.mem_append_right _ (right (ours.trans first.terms.own_eq.symm) between suspected)

/-- A verdict is passed on a target that was suspected before the operation, or since
the same operation has announced that it is. -/
private theorem of_dead (operated : detector.operate operation = .ok (findings, after))
    (dead : .dead target ∈ findings) :
    (detector.isSuspected target = true ∨
        ∃ front back, findings = front ++ .dead target :: back ∧ .suspected target ∈ front) ∧
      after.isSuspected target = false := by
  obtain ⟨now, rfl⟩ := checkTimeouts_of_dead operated dead
  obtain ⟨middle, suspected, failed, rfl, rfl⟩ := checkTimeouts_eq_ok operated
  have course := Course.ending failed
  have judged := (List.mem_append.mp dead).resolve_left course.not_dead
  obtain ⟨other, same | same, standing, ended⟩ :=
    (Ends.afterVerdicts middle now).told _ judged
  · cases same
  · cases same
    refine ⟨?_, ended⟩
    cases before : detector.isSuspected target with
    | true => exact Or.inl rfl
    | false =>
        obtain ⟨front, back, split⟩ := List.append_of_mem judged
        refine Or.inr ⟨_ ++ front, back, by rw [split, ← List.append_assoc], ?_⟩
        exact List.mem_append_left _ (course.suspected_mem rfl before standing)

theorem Course.own_unsuspected (course : Course suspector moment before findings after)
    (unsuspected : before.isSuspected before.own = false) :
    after.isSuspected before.own = false := by
  induction course with
  | note _ _ noted => rwa [isSuspected_of_mapValues noted]
  | @suspect before after _ other _ _ told =>
      rw [← Bool.not_eq_true, isSuspected_suspect_iff told, unsuspected]
      rintro (suspected | ⟨foreign, same⟩)
      · cases suspected
      · exact foreign same.symm
  | trans first _ left right =>
      rw [first.terms.own_eq] at right
      exact right (left unsuspected)

/-- As long as it is not renamed a detector does not suspect its own endpoint. -/
theorem own_unsuspected (operated : detector.operate operation = .ok (findings, after))
    (unsuspected : detector.isSuspected detector.own = false) :
    after.isSuspected detector.own = false := by
  obtain ⟨middle, _, _, course, ends, _, _⟩ := phases_of_operate operated
  by_contra suspected
  rw [Bool.not_eq_false] at suspected
  obtain ⟨suspicion, found⟩ := SortedMap.contains_iff.mp suspected
  have standing := isSuspected_of_get? (ends.get?_eq_some found)
  rw [course.own_unsuspected unsuspected] at standing
  cases standing

/-! ## Announcements in a run -/

/-- Another host has opened the suspicion of the target, and the target has been
suspected ever since. -/
def OpenedByOther (own : Endpoint) (history : List Occurrence) (target : Endpoint) : Prop :=
  ∃ earlier opening later other moment, history = earlier ++ opening :: later ∧
    opening.Opens target moment ∧ opening.operation = .suspect target other moment ∧
    other ≠ own ∧ ∀ occurrence ∈ later, occurrence.before.isSuspected target = true

theorem Runs.own_eq {start : Detector} (run : Runs start history detector)
    (fixed : ∀ occurrence ∈ history, occurrence.after.own = start.own) :
    detector.own = start.own ∧ ∀ occurrence ∈ history, occurrence.before.own = start.own := by
  induction run with
  | start => exact ⟨rfl, by simp⟩
  | operate _ operated inductionHypothesis =>
      obtain ⟨sameOwn, throughout⟩ :=
        inductionHypothesis fun occurrence among => fixed occurrence (List.mem_append_left _ among)
      refine ⟨fixed _ (List.mem_append_right _ (List.mem_singleton_self _)), ?_⟩
      intro occurrence among
      rcases List.mem_append.mp among with before | last
      · exact throughout occurrence before
      · rw [List.mem_singleton.mp last]
        exact sameOwn

/-- An operation that opens a suspicion and leaves it to others was told of it by
another host. -/
private theorem suspect_of_opened (operated : detector.operate operation = .ok (findings, after))
    (fixed : after.own = detector.own) (unsuspected : detector.isSuspected target = false)
    (others : after.LeavesToOthers target) :
    ∃ other now, operation = .suspect target other now ∧ other ≠ detector.own := by
  obtain ⟨middle, _, _, course, ends, _⟩ := phases_of_operate operated
  obtain ⟨suspected, unblamed⟩ := others
  obtain ⟨suspicion, found⟩ := SortedMap.contains_iff.mp suspected
  have blamed :=
    course.blames_of_opened unsuspected (isSuspected_of_get? (ends.get?_eq_some found))
  have foreign : operation.accuser detector.own ≠ detector.own := by
    intro ours
    rw [ours] at blamed
    obtain ⟨standing, foundStanding, among⟩ := blamed
    rw [ends.get?_eq_some found] at foundStanding
    cases foundStanding
    exact unblamed (fixed ▸ ⟨suspicion, found, among⟩)
  cases operation with
  | suspect named other now =>
      obtain ⟨⟨finding, told⟩, accused, same⟩ := Attempt.map_eq_ok operated
      cases same
      rcases (isSuspected_suspect_iff accused).mp suspected with before | ⟨_, rfl⟩
      · rw [unsuspected] at before
        cases before
      · exact ⟨other, now, rfl, foreign⟩
  | _ => exact absurd rfl foreign

theorem OpenedByOther.operate {own : Endpoint} {occurrence : Occurrence}
    (opened : OpenedByOther own history target)
    (standing : occurrence.before.isSuspected target = true) :
    OpenedByOther own (history ++ [occurrence]) target := by
  obtain ⟨earlier, opening, later, other, moment, rfl, opens, told, foreign, stood⟩ := opened
  refine
    ⟨earlier, opening, later ++ [occurrence], other, moment, by simp, opens, told, foreign,
      fun between among => ?_⟩
  rcases List.mem_append.mp among with before | last
  · exact stood between before
  · rw [List.mem_singleton.mp last]
    exact standing

/-- Whom only others suspect, others suspected first. -/
private theorem Runs.openedByOther {start : Detector} (run : Runs start history detector)
    (fresh : start.suspicions = SortedMap.empty)
    (fixed : ∀ occurrence ∈ history, occurrence.after.own = start.own)
    (others : detector.LeavesToOthers target) : OpenedByOther start.own history target := by
  induction run with
  | start =>
      obtain ⟨suspicion, found⟩ := SortedMap.contains_iff.mp others.1
      rw [fresh, SortedMap.get?_empty] at found
      cases found
  | @operate history before after operation findings run operated inductionHypothesis =>
      have fixedBefore : ∀ occurrence ∈ history, occurrence.after.own = start.own :=
        fun occurrence among => fixed occurrence (List.mem_append_left _ among)
      have ownBefore := (run.own_eq fixedBefore).1
      have ownAfter : after.own = start.own :=
        fixed _ (List.mem_append_right _ (List.mem_singleton_self _))
      have sameOwn := ownAfter.trans ownBefore.symm
      -- The suspicion stood before the last operation, or it is the one that opens it.
      cases suspected : before.isSuspected target with
      | true =>
          have earlier := (others.of_operate operated sameOwn).2 suspected
          exact (inductionHypothesis fixedBefore earlier).operate suspected
      | false =>
          obtain ⟨other, now, rfl, foreign⟩ :=
            suspect_of_opened operated sameOwn suspected others
          refine
            ⟨history, _, [], other, now, rfl, ⟨rfl, suspected, Or.inl others.1⟩, rfl,
              ownBefore ▸ foreign, by simp⟩

theorem Runs.own_unsuspected {start : Detector} (run : Runs start history detector)
    (fresh : start.suspicions = SortedMap.empty)
    (fixed : ∀ occurrence ∈ history, occurrence.after.own = start.own) :
    detector.isSuspected start.own = false := by
  induction run with
  | start =>
      rw [isSuspected_eq_false_iff, fresh, SortedMap.get?_empty]
  | operate run operated inductionHypothesis =>
      have fixedBefore :=
        fun occurrence among => fixed occurrence (List.mem_append_left _ among)
      have unsuspected := inductionHypothesis fixedBefore
      rw [← (run.own_eq fixedBefore).1] at unsuspected ⊢
      exact Detector.own_unsuspected operated unsuspected

/-- What is left to announce of a suspicion: our confirmation, as long as only others
suspect the target. -/
def unannounced (target : Endpoint) (detector : Detector) : Nat :=
  (decide (detector.LeavesToOthers target)).toNat

private theorem countP_add_unannounced
    (operated : detector.operate operation = .ok (findings, after))
    (fixed : after.own = detector.own) :
    findings.countP (·.announces target) + unannounced target after ≤ 1 := by
  by_cases others : after.LeavesToOthers target
  · rw [(others.of_operate operated fixed).1, Nat.zero_add]
    exact Bool.toNat_le _
  · rw [unannounced, decide_eq_false others]
    exact countP_announces_le_one target operated

private theorem countP_add_unannounced_le
    (operated : detector.operate operation = .ok (findings, after))
    (fixed : after.own = detector.own)
    (unopened : ∀ moment,
      ¬ Occurrence.Opens ⟨detector, operation, findings, after⟩ target moment) :
    findings.countP (·.announces target) + unannounced target after ≤
      unannounced target detector := by
  by_cases before : detector.LeavesToOthers target
  · have one : unannounced target detector = 1 := by
      rw [unannounced, decide_eq_true before]
      rfl
    rw [one]
    exact countP_add_unannounced operated fixed
  · have silent : findings.countP (·.announces target) = 0 := by
      rw [List.countP_eq_zero]
      intro finding among announces
      cases finding with
      | suspected announced =>
          obtain rfl : announced = target := of_decide_eq_true announces
          obtain ⟨⟨moment, opens⟩, _⟩ := opens_of_suspected operated among
          exact unopened moment opens
      | confirmed announced =>
          obtain rfl : announced = target := of_decide_eq_true announces
          obtain ⟨_, _, _, _, _, said⟩ := announced_of_operate announced operated
          exact before (said.of_confirmed among)
      | _ => cases announces
    have nothing : ¬ after.LeavesToOthers target := by
      intro others
      cases suspected : detector.isSuspected target with
      | true => exact before ((others.of_operate operated fixed).2 suspected)
      | false =>
          obtain ⟨moment, opens⟩ := exists_opens operated suspected (Or.inl others.1)
          exact unopened moment opens
    rw [silent, unannounced, decide_eq_false nothing]
    exact Nat.zero_le _

/-- As long as a detector is not renamed it announces every suspicion at most once: as
new by the operation that opens it, in its own name, or as confirmed if another host
has opened it and the detector was no suspector so far.  Whoever is found alive again
or dead is suspected at that moment, and not afterwards; and the detector never
suspects its own endpoint. -/
theorem announced_once {start : Detector} (fresh : start.suspicions = SortedMap.empty)
    (run : Runs start history detector)
    (fixed : ∀ occurrence ∈ history, occurrence.after.own = start.own) (target : Endpoint) :
    (∀ earlier opening later, history = earlier ++ opening :: later →
        (∃ moment, opening.Opens target moment) →
          (∀ occurrence ∈ later, ∀ moment, ¬ occurrence.Opens target moment) →
            tally (·.announces target) (opening :: later) ≤ 1) ∧
      (∀ (earlier : List Occurrence) (occurrence : Occurrence) (later : List Occurrence),
        history = earlier ++ occurrence :: later →
          (.suspected target ∈ occurrence.findings →
              (∃ moment, occurrence.Opens target moment) ∧
                ∀ accuser, occurrence.after.Blames target accuser → accuser = start.own) ∧
            (.confirmed target ∈ occurrence.findings →
              occurrence.before.isSuspected target = true ∧
                ¬ occurrence.before.Blames target start.own ∧
                  OpenedByOther start.own earlier target) ∧
            (.refuted target ∈ occurrence.findings →
              occurrence.before.isSuspected target = true ∧
                occurrence.after.isSuspected target = false) ∧
            (.dead target ∈ occurrence.findings →
              (occurrence.before.isSuspected target = true ∨
                  ∃ front back : List Finding,
                    occurrence.findings = front ++ .dead target :: back ∧
                      .suspected target ∈ front) ∧
                occurrence.after.isSuspected target = false)) ∧
        detector.isSuspected start.own = false := by
  have sameOwn (occurrence : Occurrence) (among : occurrence ∈ history) :
      occurrence.after.own = occurrence.before.own :=
    (fixed occurrence among).trans ((run.own_eq fixed).2 occurrence among).symm
  refine ⟨?_, ?_, run.own_unsuspected fresh fixed⟩
  -- What was announced since the opening and what is left to announce come to one at most.
  · intro earlier opening later split _ unopened
    obtain ⟨_, operated, rest⟩ := run.parts split
    refine
      run.tally_le_one _ (unannounced target) split
        (countP_add_unannounced operated (sameOwn opening (by simp [split])))
        fun occurrence among => ?_
    exact
      countP_add_unannounced_le (rest.operated among) (sameOwn occurrence (by simp [split, among]))
        (unopened occurrence among)
  · intro earlier occurrence later split
    obtain ⟨before, operated, _⟩ := run.parts split
    have fixedBefore : ∀ other ∈ earlier, other.after.own = start.own :=
      fun other among => fixed other (by simp [split, among])
    have ownBefore := (before.own_eq fixedBefore).1
    refine ⟨fun suspected => ?_, fun confirmed => ?_, of_refuted operated, of_dead operated⟩
    · exact ownBefore ▸ opens_of_suspected operated suspected
    · obtain ⟨_, _, _, _, _, announced⟩ := announced_of_operate target operated
      obtain ⟨suspected, unblamed⟩ := announced.of_confirmed confirmed
      exact
        ⟨suspected, ownBefore ▸ unblamed,
          before.openedByOther fresh fixedBefore ⟨suspected, unblamed⟩⟩

/-! The suspicion of a member is announced, and then its verdict. -/

theorem announced_once_lapse :
    ∃ history detector,
      (exact usual host).suspicions = SortedMap.empty ∧
        Runs (exact usual host) history detector ∧
        (∀ occurrence ∈ history, occurrence.after.own = (exact usual host).own) ∧
        history.map Occurrence.findings = [[.suspected member], [.dead member]] ∧
        tally (·.announces member) history ≤ 1 ∧
        detector.isSuspected member = false ∧ detector.isSuspected host = false := by
  have begun := runs_suspecting (show member ≠ host by decide) deadline_usual
  obtain ⟨after, checked⟩ := dead_of_lapse usual host member 5000
  have lapsed :
      (suspecting usual host member 5000).operate (.checkTimeouts 5000) =
        .ok ([.dead member], after) :=
    checked
  have run := begun.operate lapsed
  have sameOwn : after.own = host :=
    have quiet : (Operation.checkTimeouts 5000).IsQuiet := trivial
    (Drifts.operate quiet lapsed).own_eq
  have fixed (occurrence : Occurrence)
      (among :
        occurrence ∈
          [⟨exact usual host, .suspect member host 0, [.suspected member],
              suspecting usual host member 5000⟩,
            ⟨suspecting usual host member 5000, .checkTimeouts 5000, [.dead member], after⟩]) :
      occurrence.after.own = (exact usual host).own := by
    rcases List.mem_pair.mp among with rfl | rfl
    · rfl
    · exact sameOwn
  obtain ⟨once, always, ownUnsuspected⟩ := announced_once rfl run fixed member
  refine ⟨_, after, rfl, run, fixed, rfl, once [] _ _ rfl ?_ ?_, ?_, ownUnsuspected⟩
  · exact ⟨0, rfl, rfl, Or.inl rfl⟩
  · refine List.forall_mem_singleton.mpr fun moment opens => ?_
    cases opens.2.1
  · exact ((always [_] _ [] rfl).2.2.2 (List.mem_singleton_self _)).2

end Detector

end Roster
