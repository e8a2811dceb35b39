import Roster.Proofs.Detector.Timing
import Roster.Proofs.Detector.Verdict

/-!
# Runs of a detector

A run of a detector is what was asked of it, in any order and at any moments.
Every verdict in a run goes back to an operation that opened a suspicion of
the target.  The suspicion has stood ever since, so nothing refuted it, and at
least the shortest time of a suspicion has passed.  Until another suspicion of
the target is opened there is no other verdict.
-/

namespace Roster

namespace Detector

/-! ## Runs -/

structure Occurrence where
  before : Detector
  operation : Operation
  findings : List Finding
  after : Detector

/-- What can become of a detector, with all that was asked of it. -/
inductive Runs (start : Detector) : List Occurrence → Detector → Prop where
  | start : Runs start [] start
  | operate {history : List Occurrence} {before after : Detector} {operation : Operation}
      {findings : List Finding} (run : Runs start history before)
      (operated : before.operate operation = .ok (findings, after)) :
      Runs start (history ++ [⟨before, operation, findings, after⟩]) after

/-- A suspicion of the target is opened at a moment: there was none, and then
there is one or its verdict has been passed at once. -/
def Occurrence.Opens (occurrence : Occurrence) (target : Endpoint) (moment : Nat) : Prop :=
  occurrence.operation.moment? = some moment ∧
    occurrence.before.isSuspected target = false ∧
    (occurrence.after.isSuspected target = true ∨ .dead target ∈ occurrence.findings)

def Occurrence.Refutes (occurrence : Occurrence) (target : Endpoint) : Prop :=
  ∃ sender now, occurrence.operation = .observe sender now ∧ sender.Refutes target

/-- The suspicion of the target that was opened at a moment has stood ever
since, up to the last operation. -/
def Stood (history : List Occurrence) (target : Endpoint) (openedAt : Nat) : Prop :=
  ∃ earlier opening later, history = earlier ++ opening :: later ∧
    opening.Opens target openedAt ∧
    ∀ occurrence ∈ later,
      occurrence.before.isSuspected target = true ∧ ¬ occurrence.Refutes target

def deaths (target : Endpoint) (history : List Occurrence) : Nat :=
  (history.flatMap (·.findings)).count (.dead target)

variable {detector after : Detector} {target : Endpoint} {now least openedAt : Nat}
  {operation : Operation} {findings : List Finding} {history : List Occurrence}
  {occurrence : Occurrence}

/-! ## Parts of a run -/

/-- A run through an operation is a run up to it, the operation, and a run from what
became of the detector. -/
theorem Runs.parts {start : Detector} (run : Runs start history detector)
    {earlier later : List Occurrence} (split : history = earlier ++ occurrence :: later) :
    Runs start earlier occurrence.before ∧
      occurrence.before.operate occurrence.operation =
          .ok (occurrence.findings, occurrence.after) ∧
        Runs occurrence.after later detector := by
  induction run generalizing later with
  | start => simp at split
  | operate run operated inductionHypothesis =>
      rcases List.eq_nil_or_concat' later with rfl | ⟨front, last, rfl⟩
      · obtain ⟨sameHistory, same⟩ := List.append_inj' split rfl
        cases same
        exact ⟨sameHistory ▸ run, operated, .start⟩
      · rw [← List.cons_append, ← List.append_assoc] at split
        obtain ⟨sameHistory, same⟩ := List.append_inj' split rfl
        cases same
        obtain ⟨before, first, rest⟩ := inductionHypothesis sameHistory
        exact ⟨before, first, rest.operate operated⟩

theorem Runs.operated {start : Detector} (run : Runs start history detector)
    (among : occurrence ∈ history) :
    occurrence.before.operate occurrence.operation =
      .ok (occurrence.findings, occurrence.after) := by
  obtain ⟨earlier, later, split⟩ := List.append_of_mem among
  exact (run.parts split).2.1

theorem Runs.cons {start : Detector}
    (operated : start.operate operation = .ok (findings, after))
    (run : Runs after history detector) :
    Runs start (⟨start, operation, findings, after⟩ :: history) detector := by
  induction run with
  | start => exact Runs.start.operate operated
  | operate _ operatedLast inductionHypothesis =>
      exact inductionHypothesis.operate operatedLast

def perform (detector : Detector) :
    List Operation → Except Overflow (List Occurrence × Detector)
  | [] => .ok ([], detector)
  | operation :: rest => do
      let (findings, after) ← detector.operate operation
      let (later, last) ← after.perform rest
      return (⟨detector, operation, findings, after⟩ :: later, last)

theorem Runs.perform {start : Detector} {operations : List Operation}
    (performed : start.perform operations = .ok (history, detector)) :
    Runs start history detector := by
  induction operations generalizing start history with
  | nil =>
      cases performed
      exact .start
  | cons operation rest inductionHypothesis =>
      unfold Detector.perform at performed
      obtain ⟨⟨findings, after⟩, operated, performedRest⟩ := Attempt.bind_eq_ok performed
      obtain ⟨⟨later, last⟩, continued, returned⟩ := Attempt.bind_eq_ok performedRest
      cases returned
      exact .cons operated (inductionHypothesis continued)

def tally (counted : Finding → Bool) (history : List Occurrence) : Nat :=
  (history.flatMap (·.findings)).countP counted

private theorem tally_cons (counted : Finding → Bool) (opening : Occurrence)
    (later : List Occurrence) :
    tally counted (opening :: later) =
      opening.findings.countP counted + tally counted later := by
  rw [tally, List.flatMap_cons, List.countP_append, tally]

/-- If every operation takes its findings of a kind from a reserve, there are no more
of them in a run than the reserve has lost. -/
private theorem Runs.tally_add_le {start : Detector} (run : Runs start history detector)
    (counted : Finding → Bool) (reserve : Detector → Nat)
    (spends : ∀ occurrence ∈ history,
      occurrence.findings.countP counted + reserve occurrence.after ≤
        reserve occurrence.before) :
    tally counted history + reserve detector ≤ reserve start := by
  induction run with
  | start => simp [tally]
  | @operate history before after operation findings _ _ inductionHypothesis =>
      have untilNow :=
        inductionHypothesis fun occurrence among =>
          spends occurrence (List.mem_append_left _ among)
      have now : findings.countP counted + reserve after ≤ reserve before :=
        spends _ (List.mem_append_right _ (List.mem_singleton_self _))
      have appended :
          tally counted (history ++ [⟨before, operation, findings, after⟩]) =
            tally counted history + findings.countP counted := by
        simp [tally, List.countP_append]
      rw [appended]
      omega

/-- A stretch whose first operation leaves no more than one, in findings and reserve
together, has at most one finding. -/
theorem Runs.tally_le_one {start : Detector} (run : Runs start history detector)
    (counted : Finding → Bool) (reserve : Detector → Nat) {earlier later : List Occurrence}
    {opening : Occurrence} (split : history = earlier ++ opening :: later)
    (opens : opening.findings.countP counted + reserve opening.after ≤ 1)
    (spends : ∀ occurrence ∈ later,
      occurrence.findings.countP counted + reserve occurrence.after ≤
        reserve occurrence.before) :
    tally counted (opening :: later) ≤ 1 := by
  have rest := (run.parts split).2.2.tally_add_le counted reserve spends
  rw [tally_cons]
  omega

/-! ## Verdicts in a run -/

theorem Recorded.operate (recorded : detector.Recorded)
    (operated : detector.operate operation = .ok (findings, after)) : after.Recorded := by
  by_cases quiet : operation.IsQuiet
  · exact (Drifts.operate quiet operated).recorded recorded
  · cases operation with
    | setOwn own =>
        cases operated
        exact recorded
    | suspect suspect suspector now =>
        obtain ⟨⟨finding, told⟩, suspected, same⟩ := Attempt.map_eq_ok operated
        cases same
        exact recorded_of_suspect recorded suspected
    | _ => exact absurd trivial quiet

/-- A suspicion that there is after a run has stood since an operation of the
run opened it. -/
structure Founded (least : Nat) (history : List Occurrence) (detector : Detector) : Prop where
  recorded : detector.Recorded
  floored : detector.Floored least
  stood : ∀ {target suspicion}, detector.suspicions.get? target = some suspicion →
    Stood history target suspicion.startedAt

theorem Stood.operate (stood : Stood history target openedAt)
    (standing : occurrence.before.isSuspected target = true)
    (unrefuted : ¬ occurrence.Refutes target) :
    Stood (history ++ [occurrence]) target openedAt := by
  obtain ⟨earlier, opening, later, rfl, opens, undisturbed⟩ := stood
  refine ⟨earlier, opening, later ++ [occurrence], by simp, opens, fun other among => ?_⟩
  rcases List.mem_append.mp among with before | last
  · exact undisturbed other before
  · rw [List.mem_singleton.mp last]
    exact ⟨standing, unrefuted⟩

/-- A suspicion that is left or judged by an operation has stood since it was
opened, by this operation or before. -/
private theorem stood_of_traces
    (stood : ∀ suspicion, occurrence.before.suspicions.get? target = some suspicion →
      Stood history target suspicion.startedAt)
    (traces : Traces occurrence.operation.moment? occurrence.before target openedAt)
    (seen : occurrence.after.isSuspected target = true ∨ .dead target ∈ occurrence.findings)
    (unrefuted : ¬ occurrence.Refutes target) :
    Stood (history ++ [occurrence]) target openedAt := by
  rcases traces with ⟨earlier, found, rfl⟩ | ⟨unsuspected, timely⟩
  · exact (stood earlier found).operate (isSuspected_of_get? found) unrefuted
  · exact ⟨history, occurrence, [], rfl, ⟨timely, unsuspected, seen⟩, by simp⟩

theorem Founded.operate (founded : Founded least history detector)
    (operated : detector.operate operation = .ok (findings, after)) :
    Founded least (history ++ [⟨detector, operation, findings, after⟩]) after where
  recorded := founded.recorded.operate operated
  floored := founded.floored.operate operated
  stood {target suspicion} found := by
    refine
      stood_of_traces (fun _ => founded.stood) (traces_of_operate operated found)
        (Or.inl (isSuspected_of_get? found)) ?_
    rintro ⟨sender, now, rfl, refutes⟩
    have observed : (detector.observe sender now).2 = after := by
      rw [Except.ok.inj operated]
    rw [← observed, get?_observe_of_refutes founded.recorded refutes] at found
    cases found

theorem Runs.founded {start : Detector} (run : Runs start history detector)
    (fresh : start.suspicions = SortedMap.empty)
    (shortest : ∀ size, least ≤ start.timing.shortest size) :
    Founded least history detector := by
  induction run with
  | start =>
      have nothing (target : Endpoint) : start.suspicions.get? target = none := by
        rw [fresh, SortedMap.get?_empty]
      exact
        { recorded target suspicion found := by simp [nothing] at found
          floored := ⟨shortest, fun found => by simp [nothing] at found⟩
          stood found := by simp [nothing] at found }
  | operate _ operated founded => exact founded.operate operated

/-- A verdict is passed on a suspicion that has stood since it was opened, at
least the shortest time ago. -/
private theorem Founded.stood_of_dead (founded : Founded least history detector)
    (checked : detector.checkTimeouts now = .ok (findings, after))
    (dead : .dead target ∈ findings) :
    ∃ openedAt, openedAt + least ≤ now ∧
      Stood (history ++ [⟨detector, .checkTimeouts now, findings, after⟩]) target openedAt := by
  obtain ⟨middle, _, suspicion, course, found, due, _, _⟩ := dead_of_checkTimeouts checked dead
  refine
    ⟨suspicion.startedAt, Nat.le_trans ((founded.floored.course course).deadline found) due, ?_⟩
  refine stood_of_traces (fun _ => founded.stood) (course.traces found) (Or.inr dead) ?_
  rintro ⟨sender, _, same, _⟩
  cases same

theorem deaths_append (history : List Occurrence) (occurrence : Occurrence) :
    deaths target (history ++ [occurrence]) =
      deaths target history + occurrence.findings.count (.dead target) := by
  simp [deaths, List.count_append]

/-- An operation passes at most one verdict on a target, and then the target is
not suspected any more. -/
private theorem count_dead_add_isSuspected
    (operated : detector.operate operation = .ok (findings, after)) :
    findings.count (.dead target) + (after.isSuspected target).toNat ≤ 1 := by
  by_cases dead : .dead target ∈ findings
  · obtain ⟨now, rfl⟩ := checkTimeouts_of_dead operated dead
    obtain ⟨_, _, _, _, _, _, ended, once⟩ := dead_of_checkTimeouts operated dead
    rw [once, isSuspected_eq_false_iff.mpr ended]
    rfl
  · rw [List.count_eq_zero.mpr dead, Nat.zero_add]
    exact Bool.toNat_le _

theorem exists_opens (operated : detector.operate operation = .ok (findings, after))
    (unsuspected : detector.isSuspected target = false)
    (seen : after.isSuspected target = true ∨ .dead target ∈ findings) :
    ∃ moment, Occurrence.Opens ⟨detector, operation, findings, after⟩ target moment := by
  rcases seen with suspected | dead
  · obtain ⟨suspicion, found⟩ := SortedMap.contains_iff.mp suspected
    rcases traces_of_operate operated found with ⟨earlier, foundEarlier, _⟩ | ⟨_, timely⟩
    · rw [isSuspected_of_get? foundEarlier] at unsuspected
      cases unsuspected
    · exact ⟨_, timely, unsuspected, Or.inl suspected⟩
  · obtain ⟨now, rfl⟩ := checkTimeouts_of_dead operated dead
    exact ⟨now, rfl, unsuspected, Or.inr dead⟩

/-- An operation that opens no suspicion of a target passes a verdict on it only
if the target was suspected. -/
private theorem count_dead_add_isSuspected_le
    (operated : detector.operate operation = .ok (findings, after))
    (unopened : ∀ moment,
      ¬ Occurrence.Opens ⟨detector, operation, findings, after⟩ target moment) :
    findings.count (.dead target) + (after.isSuspected target).toNat ≤
      (detector.isSuspected target).toNat := by
  cases suspected : detector.isSuspected target with
  | true => exact count_dead_add_isSuspected operated
  | false =>
      have unseen : ¬ (after.isSuspected target = true ∨ .dead target ∈ findings) := by
        intro seen
        obtain ⟨moment, opens⟩ := exists_opens operated suspected seen
        exact unopened moment opens
      rw [not_or, Bool.not_eq_true] at unseen
      rw [unseen.1, List.count_eq_zero.mpr unseen.2]
      rfl

/-- If no suspicion of the target is opened after the first operation of a
stretch, the stretch has at most one verdict on it. -/
private theorem Runs.deaths_le_one {start : Detector} (run : Runs start history detector)
    {earlier later : List Occurrence} {opening : Occurrence}
    (split : history = earlier ++ opening :: later)
    (unopened : ∀ occurrence ∈ later, ∀ moment, ¬ occurrence.Opens target moment) :
    deaths target (opening :: later) ≤ 1 := by
  obtain ⟨_, operated, rest⟩ := run.parts split
  refine
    run.tally_le_one (· == .dead target) (fun detector => (detector.isSuspected target).toNat)
      split (count_dead_add_isSuspected operated) fun occurrence among => ?_
  exact count_dead_add_isSuspected_le (rest.operated among) (unopened occurrence among)

/-! ## Runs with exact timing -/

noncomputable def exact (options : DetectorOptions) (own : Endpoint) : Detector :=
  { Detector.new options own with timing := SuspicionTiming.exact options }

/-- A verdict goes back to a suspicion that was opened at least the shortest
time before and that nothing has refuted since, and every suspicion that is
opened leads to at most one verdict. -/
theorem dead_after_silence {options : DetectorOptions} {own : Endpoint}
    (run : Runs (exact options own) history detector) (target : Endpoint) :
    (∀ now findings after, detector.checkTimeouts now = .ok (findings, after) →
        .dead target ∈ findings →
          ∃ openedAt,
            openedAt +
                min
                  (min (options.suspicionMultiplier * options.probeTimeout)
                    (options.suspicionCeiling * options.probeInterval))
                  (2 ^ 64 - 1) ≤
              now ∧
            Stood (history ++ [⟨detector, .checkTimeouts now, findings, after⟩]) target
              openedAt) ∧
      ∀ earlier opening later openedAt, history = earlier ++ opening :: later →
        opening.Opens target openedAt →
          (∀ occurrence ∈ later, ∀ moment, ¬ occurrence.Opens target moment) →
            deaths target (opening :: later) ≤ 1 := by
  have founded := run.founded rfl (SuspicionTiming.floor_le_shortest options)
  constructor
  · intro now findings after checked dead
    exact founded.stood_of_dead checked dead
  · intro earlier opening later openedAt split _ unopened
    exact run.deaths_le_one split unopened

/-! A detector that suspects a member at moment zero and is next asked at the
deadline. -/

section Lapse

variable {options : DetectorOptions} {own target : Endpoint} {deadline : Nat}

noncomputable def suspecting (options : DetectorOptions) (own target : Endpoint)
    (deadline : Nat) : Detector :=
  { exact options own with
    suspicions :=
      SortedMap.empty.insert target
        { startedAt := 0
          lastHeard := 0
          incarnation := target.incarnation
          suspectors := SortedSet.add SortedMap.empty own
          deadline
          probedAt := some 0 } }

private theorem operate_suspect (foreign : target ≠ own)
    (computed : (exact options own).suspicionDeadline 0 0 1 = .ok deadline) :
    (exact options own).operate (.suspect target own 0) =
      .ok ([.suspected target], suspecting options own target deadline) := by
  have isOwn : (exact options own).own = own := rfl
  have unsuspected : (exact options own).suspicions.get? target = none := rfl
  have unheard : (exact options own).lastHeard.get? target = none := rfl
  simp only [operate, suspect, isOwn, if_neg foreign, unsuspected, unheard, Option.getD_none,
    computed, Attempt.ok_bind, if_true]
  rfl

/-- The suspicion of the target ends in a verdict. -/
theorem dead_of_lapse (options : DetectorOptions) (own target : Endpoint) (deadline : Nat) :
    ∃ after, (suspecting options own target deadline).checkTimeouts deadline =
      .ok ([.dead target], after) := by
  have due :
      ((suspecting options own target deadline).suspicions.filter fun _ suspicion =>
          suspicion.deadline ≤ deadline).keys = [target] := by
    simp [suspecting, SortedMap.keys, SortedMap.filter, SortedMap.insert, SortedMap.insertEntry,
      SortedMap.empty]
  have checked :
      ∃ after, (suspecting options own target deadline).checkTimeouts deadline =
        .ok
          (((suspecting options own target deadline).suspicions.filter fun _ suspicion =>
              suspicion.deadline ≤ deadline).keys.map .dead,
            after) :=
    ⟨_, rfl⟩
  rwa [due] at checked

theorem runs_suspecting (foreign : target ≠ own)
    (computed : (exact options own).suspicionDeadline 0 0 1 = .ok deadline) :
    Runs (exact options own)
      [⟨exact options own, .suspect target own 0, [.suspected target],
        suspecting options own target deadline⟩]
      (suspecting options own target deadline) := by
  have suspected := operate_suspect foreign computed
  exact Runs.operate .start suspected

end Lapse

def usual : DetectorOptions where
  probeInterval := 1000
  probeTimeout := 500
  indirectProbes := 3
  suspicionMultiplier := 4
  suspicionCeiling := 6
  healthCeiling := 8

/-- Options whose suspicions are longer than a word can count. -/
def patient : DetectorOptions where
  probeInterval := 10 ^ 19
  probeTimeout := 9 * 10 ^ 18
  indirectProbes := 3
  suspicionMultiplier := 4
  suspicionCeiling := 6
  healthCeiling := 8

def host : Endpoint where
  address := "127.0.0.1"
  port := 7000
  incarnation := 10

def member : Endpoint where
  address := "127.0.0.1"
  port := 7001
  incarnation := 10

theorem deadline_usual : (exact usual host).suspicionDeadline 0 0 1 = .ok 5000 := by
  have shortest : (exact usual host).timing.shortest (exact usual host).clusterSize = 2000 :=
    SuspicionTiming.shortest_of_le (show (1 : Nat) ≤ 9 by decide)
  have timeout : (exact usual host).suspicionTimeout 1 = 6000 :=
    SuspicionTiming.timeout_one usual 1
  rw [suspicionDeadline, shortest, timeout]
  rfl

private theorem deadline_patient :
    (exact patient host).suspicionDeadline 0 0 1 = .ok (2 ^ 64 - 1) := by
  have shortest :
      (exact patient host).timing.shortest (exact patient host).clusterSize = 2 ^ 64 - 1 :=
    SuspicionTiming.shortest_of_le (show (1 : Nat) ≤ 9 by decide)
  have timeout : (exact patient host).suspicionTimeout 1 = 2 ^ 64 - 1 :=
    SuspicionTiming.timeout_one patient 1
  rw [suspicionDeadline, shortest, timeout]
  rfl

theorem dead_after_silence_usual :
    ∃ history detector after,
      Runs (exact usual host) history detector ∧
        detector.checkTimeouts 5000 = .ok ([.dead member], after) ∧
          ∃ openedAt, openedAt + min (min (4 * 500) (6 * 1000)) (2 ^ 64 - 1) ≤ 5000 ∧
            Stood (history ++ [⟨detector, .checkTimeouts 5000, [.dead member], after⟩]) member
              openedAt := by
  have run := runs_suspecting (show member ≠ host by decide) deadline_usual
  obtain ⟨after, checked⟩ := dead_of_lapse usual host member 5000
  exact
    ⟨_, _, after, run, checked,
      (dead_after_silence run member).1 5000 [.dead member] after checked (by simp)⟩

/-- Times are words, so a verdict is passed at the largest word even if the
shortest time is longer. -/
theorem dead_at_largest_word :
    ∃ history detector after,
      Runs (exact patient host) history detector ∧
        detector.checkTimeouts (2 ^ 64 - 1) = .ok ([.dead member], after) ∧
          ¬ ∃ openedAt,
            openedAt +
                min (patient.suspicionMultiplier * patient.probeTimeout)
                  (patient.suspicionCeiling * patient.probeInterval) ≤
              2 ^ 64 - 1 := by
  have run := runs_suspecting (show member ≠ host by decide) deadline_patient
  obtain ⟨after, checked⟩ := dead_of_lapse patient host member (2 ^ 64 - 1)
  refine ⟨_, _, after, run, checked, ?_⟩
  rintro ⟨openedAt, passed⟩
  simp only [patient] at passed
  omega

end Detector

end Roster
