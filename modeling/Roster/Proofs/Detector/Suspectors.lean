import Roster.Proofs.Detector.Books
import Roster.Proofs.Detector.Announcement
import Roster.Proofs.Detector.Deadline

/-!
# Suspectors

The suspectors of a member are the endpoints that have accused it since its suspicion
was opened: in word, or, if it is our own endpoint, by a round of the member that has
failed.  Only a new suspector moves the deadline in, so an endpoint does so at most
once, and a host as often as it has accused the member at another incarnation.
-/

namespace Roster

namespace Detector

variable {detector before after : Detector} {target other suspector : Endpoint}
  {now : Nat} {moment : Option Nat} {operation : Operation} {findings : List Finding}
  {history later : List Occurrence} {earlier standing suspicion : Suspicion}

/-! ## Accusations -/

namespace Occurrence

/-- A member is accused by an endpoint: in word, or by a round of ours that ends without
success.  The own endpoint is never accused. -/
def Accuses (occurrence : Occurrence) (target suspector : Endpoint) : Prop :=
  target ≠ occurrence.before.own ∧
    ((∃ now, occurrence.operation = .suspect target suspector now) ∨
      suspector = occurrence.before.own ∧
        ∃ number, (number, false) ∈ occurrence.before.roundsEnded occurrence.operation ∧
          occurrence.before.pendingRound number = some target)

def accuser (occurrence : Occurrence) : Endpoint :=
  occurrence.operation.accuser occurrence.before.own

/-- The deadline of the target's suspicion moves in. -/
def shortens (occurrence : Occurrence) (target : Endpoint) : Bool :=
  match occurrence.before.suspicions.get? target, occurrence.after.suspicions.get? target with
  | some earlier, some later => later.deadline < earlier.deadline
  | _, _ => false

end Occurrence

private theorem blames_of_failRound_iff
    (failed : detector.failRound target now = .ok (findings, after)) :
    after.Blames other suspector ↔
      detector.Blames other suspector ∨
        other ≠ detector.own ∧ other = target ∧ suspector = detector.own := by
  unfold Detector.failRound at failed
  obtain ⟨⟨finding, ended⟩, suspected, returned⟩ := Attempt.bind_eq_ok failed
  cases returned
  rw [blames_suspect_iff suspected]
  constructor
  · rintro (blamed | ⟨foreign, rfl, ours⟩)
    · exact Or.inl blamed
    · exact Or.inr ⟨foreign, rfl, ours⟩
  · rintro (blamed | ⟨foreign, rfl, ours⟩)
    · exact Or.inl blamed
    · exact Or.inr ⟨foreign, rfl, ours⟩

private theorem blames_of_failRounds_iff :
    ∀ {targets : List Endpoint} {detector after : Detector} {findings : List Finding},
      Detector.failRounds now targets detector = .ok (findings, after) →
        (after.Blames other suspector ↔
          detector.Blames other suspector ∨
            other ≠ detector.own ∧ other ∈ targets ∧ suspector = detector.own)
  | [], detector, after, findings, failed => by
      cases failed
      simp
  | target :: rest, detector, after, findings, failed => by
      unfold Detector.failRounds at failed
      obtain ⟨⟨firstFindings, middle⟩, first, failedRest⟩ := Attempt.bind_eq_ok failed
      obtain ⟨⟨otherFindings, last⟩, others, returned⟩ := Attempt.bind_eq_ok failedRest
      cases returned
      have sameOwn : middle.own = detector.own := (Course.failRound first).terms.own_eq
      rw [blames_of_failRounds_iff others, blames_of_failRound_iff first, sameOwn, List.mem_cons]
      tauto

/-- Who is still suspected has the suspectors of before, if the suspicion has. -/
private theorem blames_iff_of_older (suspected : after.isSuspected target = true)
    (older : ∀ suspicion, after.suspicions.get? target = some suspicion →
      ∃ earlier, before.suspicions.get? target = some earlier ∧
        suspicion.suspectors = earlier.suspectors) :
    after.Blames target suspector ↔ before.Blames target suspector := by
  obtain ⟨suspicion, found⟩ := SortedMap.contains_iff.mp suspected
  obtain ⟨earlier, foundEarlier, same⟩ := older suspicion found
  rw [Blames, Blames, found, foundEarlier]
  simp [same]

private theorem blames_iff_of_ends (suspected : after.isSuspected target = true)
    (ends : Ends before findings after) :
    after.Blames target suspector ↔ before.Blames target suspector :=
  blames_iff_of_older suspected fun suspicion found => ⟨suspicion, ends.get?_eq_some found, rfl⟩

private theorem mem_ending_iff :
    target ∈ detector.ending now ↔
      ∃ number, (number, false) ∈ detector.roundsEnded (.checkTimeouts now) ∧
        detector.pendingRound number = some target := by
  constructor
  · intro ends
    obtain ⟨⟨number, probe⟩, among, rfl⟩ := List.mem_map.mp ends
    obtain ⟨probed, elapsed⟩ := SortedMap.mem_filter_entries_iff.mp among
    have ended := mem_roundsEnded_checkTimeouts.mpr ⟨rfl, probe, probed, of_decide_eq_true elapsed⟩
    exact ⟨number, ended, pendingRound_eq_some probed⟩
  · rintro ⟨number, ended, pending⟩
    obtain ⟨_, probe, probed, elapsed⟩ := mem_roundsEnded_checkTimeouts.mp ended
    cases (pendingRound_eq_some probed).symm.trans pending
    refine List.mem_map.mpr ⟨(number, probe), ?_, rfl⟩
    exact SortedMap.mem_filter_entries_iff.mpr ⟨probed, decide_eq_true elapsed⟩

private theorem suspicions_receiveAck (number : UInt64) :
    (detector.receiveAck number).2.suspicions = detector.suspicions := by
  unfold Detector.receiveAck
  split
  · rfl
  · split <;> rfl

private theorem not_accuses (unfailed : ∀ number, (number, false) ∉ detector.roundsEnded operation)
    (unsaid : ∀ now, operation ≠ .suspect target suspector now) :
    ¬ Occurrence.Accuses ⟨detector, operation, findings, after⟩ target suspector := by
  rintro ⟨_, ⟨now, said⟩ | ⟨_, number, failed, _⟩⟩
  · exact unsaid now said
  · exact unfailed number failed

/-- As long as a member is suspected, its suspectors are those of before and those who
accuse it. -/
private theorem blames_of_operate_iff
    (operated : detector.operate operation = .ok (findings, after))
    (suspected : after.isSuspected target = true) :
    after.Blames target suspector ↔
      detector.Blames target suspector ∨
        Occurrence.Accuses ⟨detector, operation, findings, after⟩ target suspector := by
  have keeps (same : after.Blames target suspector ↔ detector.Blames target suspector)
      (unfailed : ∀ number, (number, false) ∉ detector.roundsEnded operation)
      (unsaid : ∀ now, operation ≠ .suspect target suspector now) :
      after.Blames target suspector ↔
        detector.Blames target suspector ∨
          Occurrence.Accuses ⟨detector, operation, findings, after⟩ target suspector := by
    rw [same, or_iff_left (not_accuses unfailed unsaid)]
  cases operation with
  | setOwn | setClusterSize | setHelpers | abandon =>
      cases operated
      exact keeps Iff.rfl (fun _ => List.not_mem_nil) (by simp)
  | suspect other accuser now =>
      obtain ⟨⟨finding, told⟩, said, same⟩ := Attempt.map_eq_ok operated
      cases same
      rw [blames_suspect_iff said]
      refine or_congr_right ⟨?_, ?_⟩
      · rintro ⟨foreign, rfl, rfl⟩
        exact ⟨foreign, Or.inl ⟨now, rfl⟩⟩
      · rintro ⟨foreign, ⟨_, same⟩ | ⟨_, _, failed, _⟩⟩
        · cases same
          exact ⟨foreign, rfl, rfl⟩
        · cases failed
  | observe sender now =>
      cases operated
      have ends : Ends detector _ _ := .observe sender now
      exact keeps (blames_iff_of_ends suspected ends) (fun _ => List.not_mem_nil) (by simp)
  | forget forgotten =>
      cases operated
      have ends : Ends detector [] (detector.forget forgotten) :=
        .of_filter (fun tested _ => compare tested forgotten != .eq) rfl
      exact keeps (blames_iff_of_ends suspected ends) (fun _ => List.not_mem_nil) (by simp)
  | retainMembers isMember =>
      cases operated
      have ends : Ends detector [] (detector.retainMembers isMember) :=
        .of_filter (fun tested _ => isMember tested) rfl
      exact keeps (blames_iff_of_ends suspected ends) (fun _ => List.not_mem_nil) (by simp)
  | startProbe probed now =>
      obtain ⟨⟨number, begun⟩, started, same⟩ := Attempt.map_eq_ok operated
      cases same
      obtain ⟨_, _, _, _, entered⟩ := startProbe_eq_ok started
      refine keeps (blames_iff_of_older suspected fun suspicion found => ?_)
        (fun _ => List.not_mem_nil) (by simp)
      rw [entered, SortedMap.get?_mapValues] at found
      obtain ⟨earlier, foundEarlier, rfl⟩ := Option.map_eq_some_iff.mp found
      refine ⟨earlier, foundEarlier, ?_⟩
      split <;> rfl
  | startRelay origin asked relayed now =>
      obtain ⟨⟨number, begun⟩, started, same⟩ := Attempt.map_eq_ok operated
      cases same
      obtain ⟨_, _, _, entered⟩ := startRelay_eq_ok started
      refine keeps ?_ (fun _ => List.not_mem_nil) (by simp)
      rw [entered]
      rfl
  | receiveAck number =>
      have same : (detector.receiveAck number).2.suspicions = detector.suspicions :=
        suspicions_receiveAck number
      rw [Except.ok.inj operated] at same
      have unfailed (tested : UInt64) :
          (tested, false) ∉ detector.roundsEnded (.receiveAck number) := by
        intro failed
        obtain ⟨_, same, _⟩ := mem_roundsEnded_receiveAck.mp failed
        cases same
      refine keeps ?_ unfailed (by simp)
      rw [Blames, Blames, same]
  | receiveIndirectAck number reported alive now =>
      rcases receiveIndirectAck_outcome operated with
        ⟨unended, rfl, rfl | ⟨probe, _, rfl⟩⟩ | ⟨ended, rfl, rfl⟩ | ⟨ended, pending, failed⟩
      · exact keeps Iff.rfl (by simp [unended]) (by simp)
      · exact keeps Iff.rfl (by simp [unended]) (by simp)
      · exact keeps Iff.rfl (by simp [ended]) (by simp)
      · rw [blames_of_failRound_iff failed]
        refine or_congr_right ⟨?_, ?_⟩
        · rintro ⟨foreign, rfl, ours⟩
          exact ⟨foreign, Or.inr ⟨ours, number, by simp [ended], pending⟩⟩
        · rintro ⟨foreign, ⟨_, same⟩ | ⟨ours, _, failing, found⟩⟩
          · cases same
          · rw [ended] at failing
            cases List.mem_singleton.mp failing
            exact ⟨foreign, Option.some.inj (found.symm.trans pending), ours⟩
  | checkTimeouts now =>
      obtain ⟨middle, _, failed, rfl, rfl⟩ := checkTimeouts_eq_ok operated
      rw [blames_iff_of_ends suspected (.afterVerdicts middle now), blames_of_failRounds_iff failed,
        mem_ending_iff]
      refine or_congr_right ⟨?_, ?_⟩
      · rintro ⟨foreign, failing, ours⟩
        exact ⟨foreign, Or.inr ⟨ours, failing⟩⟩
      · rintro ⟨foreign, ⟨_, same⟩ | ⟨ours, failing⟩⟩
        · cases same
        · exact ⟨foreign, failing, ours⟩

/-! ## Suspicions that go on -/

/-- A suspicion goes on as it was, or an endpoint that was no suspector joins it and the
deadline may move in. -/
def GoesOn (suspector : Endpoint) (earlier later : Suspicion) : Prop :=
  later.suspectors = earlier.suspectors ∧ later.deadline = earlier.deadline ∨
    earlier.suspectors.contains suspector = false ∧
      later.suspectors = earlier.suspectors.add suspector

/-- An endpoint that has joined a suspicion does not join it again. -/
theorem GoesOn.trans {first second third : Suspicion} (left : GoesOn suspector first second)
    (right : GoesOn suspector second third) : GoesOn suspector first third := by
  rcases right with ⟨sameSuspectors, sameDeadline⟩ | ⟨absent, joined⟩
  · rcases left with ⟨sameBefore, deadlineBefore⟩ | ⟨absent, joined⟩
    · exact Or.inl ⟨sameSuspectors.trans sameBefore, sameDeadline.trans deadlineBefore⟩
    · exact Or.inr ⟨absent, sameSuspectors.trans joined⟩
  · rcases left with ⟨sameBefore, _⟩ | ⟨_, joinedBefore⟩
    · rw [sameBefore] at absent joined
      exact Or.inr ⟨absent, joined⟩
    · have among : second.suspectors.contains suspector = true := by
        rw [joinedBefore, SortedSet.contains_add]
        exact Or.inl rfl
      rw [absent] at among
      cases among

theorem Course.goesOn (course : Course suspector moment before findings after)
    (found : before.suspicions.get? target = some earlier) :
    ∃ later, after.suspicions.get? target = some later ∧ GoesOn suspector earlier later := by
  induction course generalizing earlier with
  | note probedAt _ noted =>
      refine ⟨{ earlier with probedAt := probedAt target earlier }, ?_, Or.inl ⟨rfl, rfl⟩⟩
      rw [noted, SortedMap.get?_mapValues, found, Option.map_some]
  | @suspect _ _ _ other _ _ suspected =>
      rcases suspect_eq_ok suspected with
        ⟨_, _, rfl⟩ |
          ⟨_, ⟨standing, deadline, foundStanding, absent, _, _, rfl⟩ |
            ⟨_, unsuspected, _, _, rfl⟩⟩
      · exact ⟨earlier, found, Or.inl ⟨rfl, rfl⟩⟩
      · by_cases same : target = other
        · subst same
          cases found.symm.trans foundStanding
          refine ⟨joined earlier suspector deadline, ?_, Or.inr ⟨absent, rfl⟩⟩
          rw [SortedMap.get?_insert, if_pos rfl]
        · refine ⟨earlier, ?_, Or.inl ⟨rfl, rfl⟩⟩
          rw [SortedMap.get?_insert, if_neg same, found]
      · have different : target ≠ other := by
          rintro rfl
          cases found.symm.trans unsuspected
        refine ⟨earlier, ?_, Or.inl ⟨rfl, rfl⟩⟩
        rw [SortedMap.get?_insert, if_neg different, found]
  | trans _ _ left right =>
      obtain ⟨middle, foundMiddle, begins⟩ := left found
      obtain ⟨later, foundLater, ends⟩ := right foundMiddle
      exact ⟨later, foundLater, begins.trans ends⟩

private theorem goesOn_of_operate (operated : detector.operate operation = .ok (findings, after))
    (found : detector.suspicions.get? target = some earlier)
    (foundAfter : after.suspicions.get? target = some suspicion) :
    GoesOn (operation.accuser detector.own) earlier suspicion := by
  obtain ⟨middle, _, _, course, ends, _, _⟩ := phases_of_operate operated
  obtain ⟨later, foundLater, goesOn⟩ := course.goesOn found
  cases foundLater.symm.trans (ends.get?_eq_some foundAfter)
  exact goesOn

/-- Whoever opens a suspicion is a suspector. -/
private theorem contains_accuser_of_opened
    (operated : detector.operate operation = .ok (findings, after))
    (unsuspected : detector.isSuspected target = false)
    (found : after.suspicions.get? target = some suspicion) :
    suspicion.suspectors.contains (operation.accuser detector.own) = true := by
  obtain ⟨middle, _, _, course, ends, _, _⟩ := phases_of_operate operated
  have standing := ends.get?_eq_some found
  obtain ⟨blamed, foundBlamed, among⟩ :=
    course.blames_of_opened unsuspected (isSuspected_of_get? standing)
  cases foundBlamed.symm.trans standing
  exact among

/-! ## Suspicions in a run -/

/-- How often the deadline of the target's suspicion moves in, by operations that accuse in
the names of certain endpoints. -/
def shortenings (target : Endpoint) (counted : Endpoint → Bool)
    (history : List Occurrence) : Nat :=
  history.countP fun occurrence => occurrence.shortens target && counted occurrence.accuser

private theorem countP_keys_add {suspectors : SortedSet Endpoint} (counted : Endpoint → Bool)
    (absent : suspectors.contains suspector = false) :
    (suspectors.add suspector).keys.countP counted =
      suspectors.keys.countP counted + if counted suspector then 1 else 0 := by
  rw [(SortedSet.keys_add_perm absent).countP_eq, List.countP_cons]

/-- What moves the deadline in brings a new suspector, in whose name it does so. -/
private theorem GoesOn.countP_le {occurrence : Occurrence} (counted : Endpoint → Bool)
    (goesOn : GoesOn occurrence.accuser earlier suspicion)
    (found : occurrence.before.suspicions.get? target = some earlier)
    (foundAfter : occurrence.after.suspicions.get? target = some suspicion) :
    shortenings target counted [occurrence] + earlier.suspectors.keys.countP counted ≤
      suspicion.suspectors.keys.countP counted := by
  have shortens :
      occurrence.shortens target = decide (suspicion.deadline < earlier.deadline) := by
    rw [Occurrence.shortens, found, foundAfter]
  rw [shortenings, List.countP_singleton, shortens]
  rcases goesOn with ⟨sameSuspectors, sameDeadline⟩ | ⟨absent, joined⟩
  · simp [sameSuspectors, sameDeadline]
  · rw [joined, countP_keys_add counted absent, Nat.add_comm]
    refine Nat.add_le_add_left ?_ _
    cases counted occurrence.accuser with
    | false => rw [Bool.and_false]
    | true =>
        rw [Bool.and_true, if_pos rfl]
        split
        · exact Nat.le_refl 1
        · exact Nat.zero_le 1

private theorem shortenings_append (target : Endpoint) (counted : Endpoint → Bool)
    (history : List Occurrence) (occurrence : Occurrence) :
    shortenings target counted (history ++ [occurrence]) =
      shortenings target counted history + shortenings target counted [occurrence] :=
  List.countP_append

/-- Since a suspicion was opened, its deadline has been moved in by other suspectors than
the first one, and once by each of them at most. -/
private theorem Runs.shortenings_le {opening : Occurrence} (counted : Endpoint → Bool)
    (run : Runs opening.after later detector)
    (operated :
      opening.before.operate opening.operation = .ok (opening.findings, opening.after))
    (unsuspected : opening.before.isSuspected target = false)
    (standing : ∀ occurrence ∈ later, occurrence.before.isSuspected target = true)
    (found : detector.suspicions.get? target = some suspicion) :
    shortenings target counted later + (if counted opening.accuser then 1 else 0) ≤
      suspicion.suspectors.keys.countP counted := by
  induction run generalizing suspicion with
  | start =>
      have first := contains_accuser_of_opened operated unsuspected found
      have among := SortedMap.mem_keys_iff.mpr first
      rw [shortenings, List.countP_nil, Nat.zero_add]
      split
      · rename_i counts
        exact List.countP_pos_iff.mpr ⟨_, among, counts⟩
      · exact Nat.zero_le _
  | @operate history before after operation findings _ operatedLast inductionHypothesis =>
      have suspected : before.isSuspected target = true :=
        standing _ (List.mem_append_right _ (List.mem_singleton_self _))
      obtain ⟨earlier, foundEarlier⟩ := SortedMap.contains_iff.mp suspected
      have untilNow :=
        inductionHypothesis (fun occurrence among => standing occurrence
          (List.mem_append_left _ among)) foundEarlier
      have goesOn := goesOn_of_operate operatedLast foundEarlier found
      have now :
          shortenings target counted [⟨before, operation, findings, after⟩] +
              earlier.suspectors.keys.countP counted ≤
            suspicion.suspectors.keys.countP counted :=
        GoesOn.countP_le counted goesOn foundEarlier found
      rw [shortenings_append]
      omega

/-- The suspectors of a suspicion are those who have accused its target since it was
opened. -/
private theorem Runs.blames_iff {opening : Occurrence} (run : Runs opening.after later detector)
    (operated :
      opening.before.operate opening.operation = .ok (opening.findings, opening.after))
    (unsuspected : opening.before.isSuspected target = false)
    (standing : ∀ occurrence ∈ later, occurrence.before.isSuspected target = true)
    (suspected : detector.isSuspected target = true) :
    detector.Blames target suspector ↔
      ∃ occurrence ∈ opening :: later, occurrence.Accuses target suspector := by
  induction run with
  | start =>
      have unblamed : ¬ opening.before.Blames target suspector := by
        intro blamed
        rw [isSuspected_of_blames blamed] at unsuspected
        cases unsuspected
      rw [blames_of_operate_iff operated suspected, or_iff_right unblamed]
      simp
  | @operate history before after operation findings _ operatedLast inductionHypothesis =>
      have suspectedBefore : before.isSuspected target = true :=
        standing _ (List.mem_append_right _ (List.mem_singleton_self _))
      have untilNow :=
        inductionHypothesis (fun occurrence among => standing occurrence
          (List.mem_append_left _ among)) suspectedBefore
      rw [blames_of_operate_iff operatedLast suspected, untilNow, ← List.cons_append]
      simp only [List.mem_append, List.mem_singleton, or_and_right, exists_or, exists_eq_left]

private theorem countP_keys_le_one {suspectors : SortedSet Endpoint} {counted : Endpoint → Bool}
    (unique : ∀ first second, suspectors.contains first = true →
      suspectors.contains second = true → counted first = true → counted second = true →
        first = second) :
    suspectors.keys.countP counted ≤ 1 := by
  rw [List.countP_eq_length_filter]
  have distinct := (SortedMap.nodup_keys suspectors).filter counted
  have among {member : Endpoint} (selected : member ∈ suspectors.keys.filter counted) :
      suspectors.contains member = true ∧ counted member = true := by
    obtain ⟨member, counts⟩ := List.mem_filter.mp selected
    exact ⟨SortedMap.mem_keys_iff.mp member, counts⟩
  match selection : suspectors.keys.filter counted with
  | [] => exact Nat.zero_le 1
  | [_] => exact Nat.le_refl 1
  | first :: second :: rest =>
      rw [selection] at distinct among
      have one := among (List.mem_cons_self)
      have two := among (List.mem_cons_of_mem _ List.mem_cons_self)
      have same := unique first second one.1 two.1 one.2 two.2
      exact absurd (same ▸ List.mem_cons_self) (List.nodup_cons.mp distinct).1

/-- The suspectors of a suspicion are the endpoints that have accused its target since it
was opened.  Its deadline has moved in at most as often as there are suspectors besides
the first, counted over any set of endpoints.  So an endpoint has moved it in once at
most, and so has a host, unless it is among the suspectors at two incarnations. -/
theorem suspectors_have_accused {start : Detector} (fresh : start.suspicions = SortedMap.empty)
    (run : Runs start history detector)
    (found : detector.suspicions.get? target = some suspicion) :
    ∃ earlier opening later, history = earlier ++ opening :: later ∧
      opening.Opens target suspicion.startedAt ∧
      (∀ occurrence ∈ later, occurrence.before.isSuspected target = true) ∧
      (∀ suspector, suspicion.suspectors.contains suspector = true ↔
        ∃ occurrence ∈ opening :: later, occurrence.Accuses target suspector) ∧
      (∀ counted, shortenings target counted later + (if counted opening.accuser then 1 else 0) ≤
        suspicion.suspectors.keys.countP counted) ∧
      (∀ suspector, shortenings target (· = suspector) later ≤ 1) ∧
      ∀ host : Endpoint,
        (∀ first second, suspicion.suspectors.contains first = true →
            suspicion.suspectors.contains second = true → first.sameHost host = true →
              second.sameHost host = true → first = second) →
          shortenings target (·.sameHost host) later ≤ 1 := by
  have founded := run.founded fresh fun _ => Nat.zero_le _
  obtain ⟨earlier, opening, later, split, opens, undisturbed⟩ := founded.stood found
  obtain ⟨_, operated, rest⟩ := run.parts split
  have standing (occurrence : Occurrence) (among : occurrence ∈ later) :
      occurrence.before.isSuspected target = true :=
    (undisturbed occurrence among).1
  have bounded (counted : Endpoint → Bool) :=
    rest.shortenings_le counted operated opens.2.1 standing found
  refine ⟨earlier, opening, later, split, opens, standing, fun suspector => ?_, bounded,
    fun suspector => ?_, fun host unique => ?_⟩
  · rw [← rest.blames_iff operated opens.2.1 standing (isSuspected_of_get? found)]
    simp [Blames, found]
  · refine (Nat.le_of_add_right_le (bounded (· = suspector))).trans (countP_keys_le_one ?_)
    intro first second _ _ isFirst isSecond
    rw [of_decide_eq_true isFirst, of_decide_eq_true isSecond]
  · exact (Nat.le_of_add_right_le (bounded (·.sameHost host))).trans (countP_keys_le_one unique)

theorem suspectors_have_accused_sharing :
    (exact usual host).suspicions = SortedMap.empty ∧
      ∃ history, Runs (exact usual host) history sharing ∧
        sharing.suspicions.get? member = some shared ∧
        ∃ earlier opening later, history = earlier ++ opening :: later ∧
          opening.Opens member 0 ∧
          (∃ occurrence ∈ opening :: later, occurrence.Accuses member neighbour) ∧
          shortenings member (·.sameHost neighbour) later ≤ 1 := by
  have begun := runs_suspecting (show member ≠ host by decide) deadline_usual
  have run := begun.operate operate_suspect_shared
  have found : sharing.suspicions.get? member = some shared := rfl
  obtain ⟨earlier, opening, later, split, opens, _, accused, _, _, once⟩ :=
    suspectors_have_accused rfl run found
  refine
    ⟨rfl, _, run, found, earlier, opening, later, split, opens, (accused neighbour).mp rfl,
      once neighbour fun first second isFirst isSecond here there => ?_⟩
  have members (tested : Endpoint) (among : shared.suspectors.contains tested = true)
      (sameHost : tested.sameHost neighbour = true) : tested = neighbour := by
    rcases (SortedSet.contains_add _ _ _).mp among with same | single
    · exact same
    · rcases (SortedSet.contains_add _ _ _).mp single with rfl | none
      · cases sameHost
      · cases none
  rw [members first isFirst here, members second isSecond there]

/-! A neighbour that is reborn while it suspects a member. -/

def reborn : Endpoint where
  address := "127.0.0.1"
  port := 7002
  incarnation := 11

/-- With a second confirmation no more than half of the longest time is left. -/
private theorem timeout_three_usual_le : (SuspicionTiming.exact usual).timeout 1 3 ≤ 3000 := by
  have decay : 3 / 4 ≤ Real.log (2 + 1) / Real.log (3 + 1) := by
    have positive : 0 < Real.log (3 + 1) := Real.log_pos (by norm_num)
    have powers : Real.log ((3 + 1) ^ 3) ≤ Real.log ((2 + 1) ^ 4) :=
      Real.log_le_log (by norm_num) (by norm_num)
    rw [Real.log_pow, Real.log_pow] at powers
    rw [div_le_div_iff₀ (by norm_num) positive]
    push_cast at powers
    linarith
  have evaluated :
      (SuspicionTiming.exact usual).timeout 1 3 =
        SuspicionTiming.nextWord
          (max (6000 - (6000 - 2000) * (Real.log (2 + 1) / Real.log (3 + 1))) 2000) := by
    simp only [SuspicionTiming.exact, exactLeast_usual, exactLongest_usual]
    norm_num [usual]
  have bounded :
      max (6000 - (6000 - 2000) * (Real.log (2 + 1) / Real.log (3 + 1))) 2000 ≤
        ((3000 : Nat) : ℝ) := by
    refine max_le ?_ (by norm_num)
    push_cast
    linarith
  rw [evaluated]
  refine (SuspicionTiming.nextWord_mono bounded).trans ?_
  rw [SuspicionTiming.nextWord_natCast]
  exact min_le_left _ _

private theorem deadline_three_usual :
    ∃ deadline, sharing.suspicionDeadline 0 0 3 = .ok deadline ∧ deadline ≤ 3000 := by
  have shortest : sharing.timing.shortest sharing.clusterSize = 2000 :=
    SuspicionTiming.shortest_of_le (show (1 : Nat) ≤ 9 by decide)
  have short : sharing.suspicionTimeout 3 ≤ 3000 := timeout_three_usual_le
  have added : Word.add 0 (sharing.suspicionTimeout 3) = .ok (sharing.suspicionTimeout 3) := by
    rw [Word.add, Nat.zero_add, if_pos (lt_of_le_of_lt short (by decide))]
  rw [suspicionDeadline, shortest, added]
  refine ⟨_, rfl, max_le ((min_le_left _ _).trans short) (by decide)⟩

private theorem operate_suspect_reborn :
    ∃ deadline, deadline ≤ 3000 ∧
      sharing.operate (.suspect member reborn 200) =
        .ok
          ([],
            { sharing with
              suspicions := sharing.suspicions.insert member (joined shared reborn deadline) }) := by
  obtain ⟨deadline, computed, short⟩ := deadline_three_usual
  refine ⟨deadline, short, ?_⟩
  have foreign : member ≠ sharing.own := by
    show member ≠ host
    decide
  have other : reborn ≠ sharing.own := by
    show reborn ≠ host
    decide
  have found : sharing.suspicions.get? member = some shared := rfl
  have absent : shared.suspectors.contains reborn = false := rfl
  have computed :
      sharing.suspicionDeadline shared.startedAt shared.lastHeard (shared.suspectors.size + 1) =
        .ok deadline :=
    computed
  simp only [operate, suspect, if_neg foreign, found, absent, computed, Attempt.ok_bind,
    if_neg other]
  rfl

/-- A neighbour that suspects the member before and after it is reborn counts as two
suspectors, and moves the deadline in twice. -/
theorem suspectors_on_one_host :
    ∃ history detector suspicion,
      Runs (exact usual host) history detector ∧
        detector.suspicions.get? member = some suspicion ∧
        suspicion.suspectors.contains neighbour = true ∧
        suspicion.suspectors.contains reborn = true ∧
        neighbour ≠ reborn ∧ neighbour.sameHost reborn = true ∧
        shortenings member (·.sameHost neighbour) history = 2 := by
  obtain ⟨deadline, short, operated⟩ := operate_suspect_reborn
  have begun := runs_suspecting (show member ≠ host by decide) deadline_usual
  have run := (begun.operate operate_suspect_shared).operate operated
  refine ⟨_, _, joined shared reborn deadline, run, rfl, rfl, rfl, by decide, rfl, ?_⟩
  have moved : min shared.deadline deadline < shared.deadline :=
    lt_of_le_of_lt (min_le_right _ _) (lt_of_le_of_lt short (by decide))
  have second :
      Occurrence.shortens
          ⟨sharing, .suspect member reborn 200, [],
            { sharing with
              suspicions := sharing.suspicions.insert member (joined shared reborn deadline) }⟩
          member =
        true :=
    decide_eq_true moved
  rw [shortenings_append, shortenings_append]
  simp only [shortenings, List.countP_singleton, second]
  rfl

end Detector

end Roster
