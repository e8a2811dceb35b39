import Roster.Detector
import Roster.Proofs.Endpoint
import Roster.Proofs.SortedMap
import Roster.Proofs.Attempt

/-!
# Who makes the detector suspect

A detector suspects a target because of every host that is among its
suspectors.  Only an operation by which that host suspects the target makes
it one; everything else the detector is asked leaves the suspicions as they
are, drops some, or adds the detector's own endpoint as a suspector.  Word from
the target drops all suspicions it refutes.
-/

namespace Roster

/-- Word from an endpoint refutes suspicions of a target: it is the same host
at an incarnation that is not earlier. -/
def Endpoint.Refutes (refuting target : Endpoint) : Prop :=
  target.sameHost refuting = true ∧ target.incarnation ≤ refuting.incarnation

/-- The member whose suspicion a finding is about, if it is about one. -/
def Finding.suspect? : Finding → Option Endpoint
  | .suspected target | .confirmed target | .refuted target | .dead target => some target
  | .probeIndirect _ _ | .relayed _ _ _ _ => none

namespace Detector

variable {detector after : Detector} {target suspector : Endpoint} {now : Nat}

/-! ## Operations -/

inductive Operation where
  | setOwn (own : Endpoint)
  | setClusterSize (size : Nat)
  | suspect (target suspector : Endpoint) (now : Nat)
  | observe (sender : Endpoint) (now : Nat)
  | startProbe (target : Endpoint) (now : Nat)
  | setHelpers (sequence : UInt64) (helpers : Nat)
  | startRelay (origin : SocketAddress) (asked : UInt64) (target : Endpoint) (now : Nat)
  | receiveAck (sequence : UInt64)
  | receiveIndirectAck (sequence : UInt64) (target : Endpoint) (alive : Bool) (now : Nat)
  | checkTimeouts (now : Nat)
  | forget (target : Endpoint)
  | retainMembers (isMember : Endpoint → Bool)
  | abandon

def operate (detector : Detector) : Operation → Except Overflow (List Finding × Detector)
  | .setOwn own => .ok ([], detector.setOwn own)
  | .setClusterSize size => .ok ([], detector.setClusterSize size)
  | .suspect target suspector now =>
      (detector.suspect target suspector now).map fun (finding, after) =>
        (finding.toList, after)
  | .observe sender now => .ok (detector.observe sender now)
  | .startProbe target now => (detector.startProbe target now).map fun (_, after) => ([], after)
  | .setHelpers sequence helpers => .ok ([], detector.setHelpers sequence helpers)
  | .startRelay origin asked target now =>
      (detector.startRelay origin asked target now).map fun (_, after) => ([], after)
  | .receiveAck sequence => .ok (detector.receiveAck sequence)
  | .receiveIndirectAck sequence target alive now =>
      detector.receiveIndirectAck sequence target alive now
  | .checkTimeouts now => detector.checkTimeouts now
  | .forget target => .ok ([], detector.forget target)
  | .retainMembers isMember => .ok ([], detector.retainMembers isMember)
  | .abandon => .ok ([], detector.abandon)

/-- The operation neither tells of a suspicion nor renames the detector. -/
def Operation.IsQuiet : Operation → Prop
  | .setOwn _ | .suspect _ _ _ => False
  | _ => True

def Operation.moment? : Operation → Option Nat
  | .suspect _ _ now | .observe _ now | .startProbe _ now | .startRelay _ _ _ now
  | .receiveIndirectAck _ _ _ now | .checkTimeouts now => some now
  | _ => none

/-! ## Suspectors -/

/-- The detector suspects a target, and a host is among those who made it do
so. -/
def Blames (detector : Detector) (target suspector : Endpoint) : Prop :=
  ∃ suspicion, detector.suspicions.get? target = some suspicion ∧
    suspicion.suspectors.contains suspector = true

instance (detector : Detector) (target suspector : Endpoint) :
    Decidable (detector.Blames target suspector) :=
  decidable_of_iff
    ((detector.suspicions.get? target).any fun suspicion =>
      suspicion.suspectors.contains suspector)
    (by rw [Option.any_eq_true]; rfl)

/-- Every suspicion is recorded at the incarnation of its target. -/
def Recorded (detector : Detector) : Prop :=
  ∀ target suspicion, detector.suspicions.get? target = some suspicion →
    suspicion.incarnation = target.incarnation

/-- What becomes of a detector that nobody tells of a suspicion: whom it
blames anew it blames in its own name. -/
structure Drifts (before after : Detector) : Prop where
  own_eq : after.own = before.own
  recorded : before.Recorded → after.Recorded
  blames : ∀ {target suspector}, after.Blames target suspector →
    before.Blames target suspector ∨ suspector = before.own

namespace Drifts

theorem refl (detector : Detector) : Drifts detector detector where
  own_eq := rfl
  recorded := id
  blames := Or.inl

theorem trans {first second third : Detector} (left : Drifts first second)
    (right : Drifts second third) : Drifts first third where
  own_eq := right.own_eq.trans left.own_eq
  recorded := right.recorded ∘ left.recorded
  blames blamed := by
    rcases right.blames blamed with before | own
    · exact left.blames before
    · exact Or.inr (own.trans left.own_eq)

/-- A detector drifts if each of its suspicions had its suspectors before. -/
theorem of_suspicions {before after : Detector} (sameOwn : after.own = before.own)
    (older :
      ∀ target suspicion, after.suspicions.get? target = some suspicion →
        ∃ earlier, before.suspicions.get? target = some earlier ∧
          suspicion.incarnation = earlier.incarnation ∧
          suspicion.suspectors = earlier.suspectors) :
    Drifts before after where
  own_eq := sameOwn
  recorded recorded target suspicion found := by
    obtain ⟨earlier, foundEarlier, sameIncarnation, _⟩ := older target suspicion found
    exact sameIncarnation.trans (recorded target earlier foundEarlier)
  blames {target suspector} blamed := by
    obtain ⟨suspicion, found, among⟩ := blamed
    obtain ⟨earlier, foundEarlier, _, sameSuspectors⟩ := older target suspicion found
    exact Or.inl ⟨earlier, foundEarlier, sameSuspectors ▸ among⟩

theorem of_eq {before after : Detector} (sameOwn : after.own = before.own)
    (same : after.suspicions = before.suspicions) : Drifts before after :=
  of_suspicions sameOwn fun _ suspicion found =>
    ⟨suspicion, same ▸ found, rfl, rfl⟩

theorem of_filter {before after : Detector} (kept : Endpoint → Suspicion → Bool)
    (sameOwn : after.own = before.own)
    (filtered : after.suspicions = before.suspicions.filter kept) : Drifts before after := by
  refine of_suspicions sameOwn fun target suspicion found => ⟨suspicion, ?_, rfl, rfl⟩
  rw [filtered, SortedMap.get?_filter] at found
  exact (Option.filter_eq_some_iff.mp found).1

end Drifts

/-! ## Suspecting -/

/-- The suspicion that joins another suspector to one that stands. -/
def joined (suspicion : Suspicion) (suspector : Endpoint) (deadline : Nat) : Suspicion :=
  { suspicion with
    suspectors := suspicion.suspectors.add suspector
    deadline := min suspicion.deadline deadline }

/-- The suspicion that a first suspector opens. -/
def opened (detector : Detector) (target suspector : Endpoint) (now deadline : Nat) :
    Suspicion :=
  { startedAt := now
    lastHeard := (detector.lastHeard.get? target).getD now
    incarnation := target.incarnation
    suspectors := SortedSet.add SortedMap.empty suspector
    deadline
    probedAt := if suspector = detector.own then some now else none }

/-- Everything that can come of a suspicion: it is passed over, it joins one
that stands, or it opens one. -/
theorem suspect_eq_ok {finding : Option Finding}
    (suspected : detector.suspect target suspector now = .ok (finding, after)) :
    ((target = detector.own ∨ detector.Blames target suspector) ∧
        finding = none ∧ after = detector) ∨
      target ≠ detector.own ∧
        ((∃ suspicion deadline, detector.suspicions.get? target = some suspicion ∧
            suspicion.suspectors.contains suspector = false ∧
            detector.suspicionDeadline suspicion.startedAt suspicion.lastHeard
              (suspicion.suspectors.size + 1) = .ok deadline ∧
            finding = (if suspector = detector.own then some (.confirmed target) else none) ∧
            after =
              { detector with
                suspicions :=
                  detector.suspicions.insert target (joined suspicion suspector deadline) }) ∨
          ∃ deadline, detector.suspicions.get? target = none ∧
            detector.suspicionDeadline now ((detector.lastHeard.get? target).getD now) 1 =
              .ok deadline ∧
            finding = (if suspector = detector.own then some (.suspected target) else none) ∧
            after =
              { detector with
                suspicions :=
                  detector.suspicions.insert target
                    (detector.opened target suspector now deadline) }) := by
  unfold suspect at suspected
  by_cases isOwn : target = detector.own
  · rw [if_pos isOwn] at suspected
    cases suspected
    exact Or.inl ⟨Or.inl isOwn, rfl, rfl⟩
  rw [if_neg isOwn] at suspected
  cases found : detector.suspicions.get? target with
  | some suspicion =>
      simp only [found] at suspected
      by_cases among : suspicion.suspectors.contains suspector = true
      · rw [if_pos among] at suspected
        cases suspected
        exact Or.inl ⟨Or.inr ⟨suspicion, found, among⟩, rfl, rfl⟩
      · rw [if_neg among] at suspected
        cases computed :
            detector.suspicionDeadline suspicion.startedAt suspicion.lastHeard
              (suspicion.suspectors.size + 1) with
        | error overflow =>
            rw [computed] at suspected
            cases suspected
        | ok deadline =>
            rw [computed, Attempt.ok_bind] at suspected
            cases suspected
            exact
              Or.inr ⟨isOwn, Or.inl ⟨suspicion, deadline, rfl, by simpa using among, computed,
                rfl, rfl⟩⟩
  | none =>
      simp only [found] at suspected
      cases computed :
          detector.suspicionDeadline now ((detector.lastHeard.get? target).getD now) 1 with
      | error overflow =>
          rw [computed] at suspected
          cases suspected
      | ok deadline =>
          rw [computed, Attempt.ok_bind] at suspected
          cases suspected
          exact Or.inr ⟨isOwn, Or.inr ⟨deadline, rfl, rfl, rfl, rfl⟩⟩

private theorem blames_insert_iff {suspicion : Suspicion} {other host : Endpoint} :
    ({ detector with
        suspicions := detector.suspicions.insert target suspicion } : Detector).Blames
        other host ↔
      if other = target then
        suspicion.suspectors.contains host = true
      else
        detector.Blames other host := by
  by_cases same : other = target
  · simp [Blames, SortedMap.get?_insert, same]
  · simp [Blames, SortedMap.get?_insert, same]

/-- A suspicion adds its suspector to those who are blamed for, and nobody
else; only the own endpoint is never suspected. -/
theorem blames_suspect_iff {finding : Option Finding} {other host : Endpoint}
    (suspected : detector.suspect target suspector now = .ok (finding, after)) :
    after.Blames other host ↔
      detector.Blames other host ∨
        target ≠ detector.own ∧ other = target ∧ host = suspector := by
  rcases suspect_eq_ok suspected with
    ⟨refused, _, rfl⟩ |
      ⟨foreign, ⟨suspicion, deadline, found, _, _, _, rfl⟩ | ⟨deadline, found, _, _, rfl⟩⟩
  · constructor
    · exact Or.inl
    · rintro (blamed | ⟨foreign, rfl, rfl⟩)
      · exact blamed
      · exact refused.resolve_left foreign
  · rw [blames_insert_iff]
    by_cases same : other = target
    · subst same
      simp [joined, SortedSet.contains_add, Blames, found, foreign, or_comm]
    · simp [same]
  · rw [blames_insert_iff]
    by_cases same : other = target
    · subst same
      simp [opened, SortedSet.contains_add, Blames, found, foreign]
    · simp [same]

/-- A suspicion that stands when somebody has been suspected stood before, or it is the
one that was joined or opened. -/
theorem suspicion_of_suspect {finding : Option Finding} {other : Endpoint}
    {suspicion : Suspicion}
    (suspected : detector.suspect target suspector now = .ok (finding, after))
    (found : after.suspicions.get? other = some suspicion) :
    detector.suspicions.get? other = some suspicion ∨
      (∃ standing deadline, detector.suspicions.get? other = some standing ∧
          standing.suspectors.contains suspector = false ∧
          detector.suspicionDeadline standing.startedAt standing.lastHeard
            (standing.suspectors.size + 1) = .ok deadline ∧
          suspicion = joined standing suspector deadline) ∨
        ∃ deadline, detector.suspicions.get? other = none ∧
          detector.suspicionDeadline now ((detector.lastHeard.get? other).getD now) 1 =
            .ok deadline ∧
          suspicion = detector.opened other suspector now deadline := by
  rcases suspect_eq_ok suspected with
    ⟨_, _, rfl⟩ |
      ⟨_, ⟨standing, deadline, foundStanding, absent, computed, _, rfl⟩ |
        ⟨deadline, unsuspected, computed, _, rfl⟩⟩
  · exact Or.inl found
  · rw [SortedMap.get?_insert] at found
    split at found
    · rename_i same
      subst same
      cases found
      exact Or.inr (Or.inl ⟨standing, deadline, foundStanding, absent, computed, rfl⟩)
    · exact Or.inl found
  · rw [SortedMap.get?_insert] at found
    split at found
    · rename_i same
      subst same
      cases found
      exact Or.inr (Or.inr ⟨deadline, unsuspected, computed, rfl⟩)
    · exact Or.inl found

theorem recorded_of_suspect {finding : Option Finding} (recorded : detector.Recorded)
    (suspected : detector.suspect target suspector now = .ok (finding, after)) :
    after.Recorded := by
  intro other suspicion found
  rcases suspicion_of_suspect suspected found with
    stood | ⟨standing, _, stood, _, _, rfl⟩ | ⟨_, _, _, rfl⟩
  · exact recorded other suspicion stood
  · exact recorded other standing stood
  · rfl

/-- What others suspect is not reported. -/
theorem finding_of_suspect {finding : Option Finding} (foreign : suspector ≠ detector.own)
    (suspected : detector.suspect target suspector now = .ok (finding, after)) :
    finding = none := by
  rcases suspect_eq_ok suspected with
    ⟨_, unreported, _⟩ |
      ⟨_, ⟨_, _, _, _, _, reported, _⟩ | ⟨_, _, _, reported, _⟩⟩
  · exact unreported
  · rwa [if_neg foreign] at reported
  · rwa [if_neg foreign] at reported

theorem finding_of_suspect_cases {finding : Option Finding} {reported : Finding}
    (suspected : detector.suspect target suspector now = .ok (finding, after))
    (among : reported ∈ finding.toList) :
    reported = .suspected target ∨ reported = .confirmed target := by
  rcases suspect_eq_ok suspected with
    ⟨_, rfl, _⟩ | ⟨_, ⟨_, _, _, _, _, rfl, _⟩ | ⟨_, _, _, rfl, _⟩⟩
  · cases among
  · split at among
    · exact Or.inr (List.mem_singleton.mp among)
    · cases among
  · split at among
    · exact Or.inl (List.mem_singleton.mp among)
    · cases among

theorem own_of_suspect {finding : Option Finding}
    (suspected : detector.suspect target suspector now = .ok (finding, after)) :
    after.own = detector.own := by
  rcases suspect_eq_ok suspected with
    ⟨_, _, rfl⟩ | ⟨_, ⟨_, _, _, _, _, _, rfl⟩ | ⟨_, _, _, _, rfl⟩⟩ <;> rfl

/-! ## The course of an operation -/

/-- The detector goes by the same endpoint, and its deadlines by the same
bounds. -/
structure SameTerms (before after : Detector) : Prop where
  own_eq : after.own = before.own
  options_eq : after.options = before.options
  timing_eq : after.timing = before.timing
  clusterSize_eq : after.clusterSize = before.clusterSize

theorem SameTerms.refl (detector : Detector) : SameTerms detector detector :=
  ⟨rfl, rfl, rfl, rfl⟩

theorem SameTerms.trans {first second third : Detector} (left : SameTerms first second)
    (right : SameTerms second third) : SameTerms first third where
  own_eq := right.own_eq.trans left.own_eq
  options_eq := right.options_eq.trans left.options_eq
  timing_eq := right.timing_eq.trans left.timing_eq
  clusterSize_eq := right.clusterSize_eq.trans left.clusterSize_eq

theorem SameTerms.suspect {finding : Option Finding}
    (suspected : detector.suspect target suspector now = .ok (finding, after)) :
    SameTerms detector after := by
  rcases suspect_eq_ok suspected with
    ⟨_, _, rfl⟩ | ⟨_, ⟨_, _, _, _, _, _, rfl⟩ | ⟨_, _, _, _, rfl⟩⟩ <;> exact ⟨rfl, rfl, rfl, rfl⟩

/-- What comes of the suspicions in the course of an operation, and what is found:
it is noted when their targets are probed, and targets are suspected in the name
of one host. -/
inductive Course (suspector : Endpoint) (moment : Option Nat) :
    Detector → List Finding → Detector → Prop where
  | note {before after : Detector} {findings : List Finding}
      (probedAt : Endpoint → Suspicion → Option Nat) (terms : SameTerms before after)
      (noted :
        after.suspicions =
          before.suspicions.mapValues fun target suspicion =>
            { suspicion with probedAt := probedAt target suspicion })
      (silent : ∀ finding ∈ findings, finding.suspect? = none) :
      Course suspector moment before findings after
  | suspect {before after : Detector} {finding : Option Finding} {target : Endpoint} {now : Nat}
      (timely : moment = some now)
      (suspected : before.suspect target suspector now = .ok (finding, after)) :
      Course suspector moment before finding.toList after
  | trans {first second third : Detector} {earlier later : List Finding}
      (left : Course suspector moment first earlier second)
      (right : Course suspector moment second later third) :
      Course suspector moment first (earlier ++ later) third

namespace Course

variable {moment : Option Nat} {before : Detector} {findings : List Finding}

theorem of_eq (terms : SameTerms before after) (same : after.suspicions = before.suspicions)
    (silent : ∀ finding ∈ findings, finding.suspect? = none) :
    Course suspector moment before findings after := by
  refine .note (fun _ suspicion => suspicion.probedAt) terms ?_ silent
  rw [same, SortedMap.mapValues_self]

theorem idle (terms : SameTerms before after) (same : after.suspicions = before.suspicions) :
    Course suspector moment before [] after :=
  of_eq terms same (by simp)

theorem terms (course : Course suspector moment before findings after) :
    SameTerms before after := by
  induction course with
  | note _ terms => exact terms
  | suspect _ suspected => exact SameTerms.suspect suspected
  | trans _ _ left right => exact left.trans right

theorem failRound (failed : detector.failRound target now = .ok (findings, after)) :
    Course detector.own (some now) detector findings after := by
  unfold Detector.failRound at failed
  simp only at failed
  obtain ⟨⟨finding, ended⟩, suspected, returned⟩ := Attempt.bind_eq_ok failed
  cases returned
  have weakened :
      Course detector.own (some now) detector []
        { detector with health := detector.health.fail } :=
    idle ⟨rfl, rfl, rfl, rfl⟩ rfl
  exact weakened.trans (.suspect rfl suspected)

theorem failRounds :
    ∀ {targets : List Endpoint} {detector after : Detector} {findings : List Finding},
      Detector.failRounds now targets detector = .ok (findings, after) →
        Course detector.own (some now) detector findings after
  | [], detector, after, findings, failed => by
      cases failed
      exact idle (.refl detector) rfl
  | target :: rest, detector, after, findings, failed => by
      unfold Detector.failRounds at failed
      obtain ⟨⟨firstFindings, middle⟩, first, failedRest⟩ := Attempt.bind_eq_ok failed
      obtain ⟨⟨otherFindings, last⟩, others, returned⟩ := Attempt.bind_eq_ok failedRest
      cases returned
      have begins := failRound first
      have goesOn := failRounds others
      rw [begins.terms.own_eq] at goesOn
      exact begins.trans goesOn

end Course

/-! ## The passing of time -/

def ending (detector : Detector) (now : Nat) : List Endpoint :=
  (detector.probes.filter fun _ probe => probe.roundDeadline ≤ now).entries.map (·.2.target)

/-- The detector without these rounds; for the late ones helpers are asked. -/
def withoutEnding (detector : Detector) (now : Nat) : Detector :=
  { detector with
    probes :=
      (detector.probes.filter fun _ probe => now < probe.roundDeadline).mapValues fun _ probe =>
        { probe with indirect := probe.indirect || Probe.isLate probe now } }

def requests (detector : Detector) (now : Nat) : List Finding :=
  (detector.probes.filter fun _ probe => Probe.isLate probe now).entries.map
    fun (sequence, probe) => .probeIndirect sequence probe.target

/-- What is told of the relays that are given up. -/
def regrets (detector : Detector) (now : Nat) : List Finding :=
  (detector.relays.filter fun _ relay => relay.deadline ≤ now).entries.map
    fun (_, relay) => Relay.result relay false

def due (detector : Detector) (now : Nat) : List Endpoint :=
  (detector.suspicions.filter fun _ suspicion => suspicion.deadline ≤ now).keys

def afterVerdicts (detector : Detector) (now : Nat) : Detector :=
  { detector with
    relays := detector.relays.filter fun _ relay => now < relay.deadline
    suspicions := detector.suspicions.filter fun _ suspicion => now < suspicion.deadline
    probes := detector.probes.filter fun _ probe => probe.target ∉ detector.due now }

/-- When time passes, rounds may fail, and then the suspicions that are due are
dropped. -/
theorem checkTimeouts_eq_ok {findings : List Finding}
    (checked : detector.checkTimeouts now = .ok (findings, after)) :
    ∃ middle suspected,
      Detector.failRounds now (detector.ending now) (detector.withoutEnding now) =
        .ok (suspected, middle) ∧
      findings =
        detector.requests now ++ suspected ++ middle.regrets now ++
          (middle.due now).map .dead ∧
      after = middle.afterVerdicts now := by
  unfold Detector.checkTimeouts at checked
  obtain ⟨⟨suspected, middle⟩, failed, returned⟩ := Attempt.bind_eq_ok checked
  cases returned
  exact ⟨middle, suspected, failed, rfl, rfl⟩

private theorem suspect?_requests {finding : Finding} (asked : finding ∈ detector.requests now) :
    finding.suspect? = none := by
  obtain ⟨_, _, rfl⟩ := List.mem_map.mp asked
  rfl

private theorem suspect?_regrets {finding : Finding} (told : finding ∈ detector.regrets now) :
    finding.suspect? = none := by
  obtain ⟨_, _, rfl⟩ := List.mem_map.mp told
  rfl

theorem Course.ending {targets : List Endpoint} {suspected : List Finding}
    (failed :
      Detector.failRounds now targets (detector.withoutEnding now) = .ok (suspected, after)) :
    Course detector.own (some now) detector
      (detector.requests now ++ suspected ++ after.regrets now) after := by
  have asks :
      Course detector.own (some now) detector (detector.requests now)
        (detector.withoutEnding now) :=
    of_eq ⟨rfl, rfl, rfl, rfl⟩ rfl fun _ => suspect?_requests
  have gives : Course detector.own (some now) after (after.regrets now) after :=
    of_eq (.refl after) rfl fun _ => suspect?_regrets
  exact (asks.trans (failRounds failed)).trans gives

/-! ## Probes -/

section Probes

variable {moment : Option Nat} {findings : List Finding}

theorem draw_eq_ok {sequence : UInt64} (drawn : detector.draw = .ok (sequence, after)) :
    sequence = detector.next ∧
      after = { detector with next := UInt64.ofNat (detector.next.toNat + 1) } := by
  unfold draw Word.add at drawn
  split at drawn
  · cases drawn
    exact ⟨rfl, rfl⟩
  · cases drawn

/-- The number that is drawn is used up. -/
private theorem next_lt_of_draw {sequence : UInt64}
    (drawn : detector.draw = .ok (sequence, after)) :
    detector.next < after.next := by
  unfold draw at drawn
  obtain ⟨next, added, returned⟩ := Attempt.bind_eq_ok drawn
  unfold Word.add at added
  split at added
  · rename_i fits
    cases added
    cases returned
    rw [UInt64.lt_iff_toNat_lt, UInt64.toNat_ofNat_of_lt' fits]
    exact Nat.lt_succ_self _
  · cases added

/-- A round is entered under the next number, and it is noted with the suspicion of its
target. -/
theorem startProbe_eq_ok {sequence : UInt64}
    (started : detector.startProbe target now = .ok (sequence, after)) :
    sequence = detector.next ∧ detector.next < after.next ∧
      ∃ directDeadline roundDeadline,
        after =
          { detector with
            next := after.next
            lastRound := some now
            suspicions :=
              detector.suspicions.mapValues fun suspected suspicion =>
                if suspected = target then { suspicion with probedAt := some now } else suspicion
            probes := detector.probes.insert sequence { target, directDeadline, roundDeadline } } := by
  unfold Detector.startProbe at started
  obtain ⟨⟨drawn, middle⟩, drawnOk, timed⟩ := Attempt.bind_eq_ok started
  obtain ⟨directDeadline, _, timed⟩ := Attempt.bind_eq_ok timed
  obtain ⟨roundDeadline, _, returned⟩ := Attempt.bind_eq_ok timed
  have later := next_lt_of_draw drawnOk
  obtain ⟨rfl, rfl⟩ := draw_eq_ok drawnOk
  cases returned
  exact ⟨rfl, later, directDeadline, roundDeadline, rfl⟩

/-- A relay is entered under the next number. -/
theorem startRelay_eq_ok {origin : SocketAddress} {asked sequence : UInt64}
    (started : detector.startRelay origin asked target now = .ok (sequence, after)) :
    sequence = detector.next ∧ detector.next < after.next ∧
      ∃ deadline,
        after =
          { detector with
            next := after.next
            relays :=
              detector.relays.insert sequence
                { origin, sequence := asked, target, deadline } } := by
  unfold Detector.startRelay at started
  obtain ⟨⟨drawn, middle⟩, drawnOk, timed⟩ := Attempt.bind_eq_ok started
  obtain ⟨deadline, _, returned⟩ := Attempt.bind_eq_ok timed
  have later := next_lt_of_draw drawnOk
  obtain ⟨rfl, rfl⟩ := draw_eq_ok drawnOk
  cases returned
  exact ⟨rfl, later, deadline, rfl⟩

/-- What comes of a report: it concerns no round in flight, it ends the round well, it is
the last failure that the round needed, or it is counted. -/
theorem receiveIndirectAck_eq_ok {sequence : UInt64} {alive : Bool}
    (received :
      detector.receiveIndirectAck sequence target alive now = .ok (findings, after)) :
    ((∀ probe, detector.probes.get? sequence = some probe → probe.target ≠ target) ∧
        findings = [] ∧ after = detector) ∨
      ∃ probe, detector.probes.get? sequence = some probe ∧ probe.target = target ∧
        ((alive = true ∧ findings = [] ∧
            after =
              { detector with
                probes := detector.probes.erase sequence
                health := detector.health.succeed
                lastHeard := detector.lastHeard.insert target now }) ∨
          (alive = false ∧ (0 < probe.helpers ∧ probe.helpers ≤ probe.nacks + 1) ∧
            { detector with probes := detector.probes.erase sequence }.failRound target now =
              .ok (findings, after)) ∨
          alive = false ∧ ¬ (0 < probe.helpers ∧ probe.helpers ≤ probe.nacks + 1) ∧
            findings = [] ∧
            after =
              { detector with
                probes :=
                  detector.probes.insert sequence { probe with nacks := probe.nacks + 1 } }) := by
  unfold Detector.receiveIndirectAck at received
  cases probed : detector.probes.get? sequence with
  | none =>
      rw [probed] at received
      cases received
      exact Or.inl ⟨by simp, rfl, rfl⟩
  | some probe =>
      simp only [probed] at received
      split at received
      · rename_i other
        cases received
        refine Or.inl ⟨fun found same => ?_, rfl, rfl⟩
        cases same
        exact other
      rename_i same
      refine Or.inr ⟨probe, rfl, not_not.mp same, ?_⟩
      split at received
      · rename_i reached
        cases received
        exact Or.inl ⟨reached, rfl, rfl⟩
      rename_i unreached
      have unreached : alive = false := by simpa using unreached
      split at received
      · rename_i enough
        exact Or.inr (Or.inl ⟨unreached, enough, received⟩)
      · rename_i few
        cases received
        exact Or.inr (Or.inr ⟨unreached, few, rfl, rfl⟩)

theorem Course.startProbe {sequence : UInt64}
    (started : detector.startProbe target now = .ok (sequence, after)) :
    Course suspector moment detector [] after := by
  obtain ⟨_, _, _, _, entered⟩ := startProbe_eq_ok started
  rw [entered]
  refine
    .note (fun suspected suspicion => if suspected = target then some now else suspicion.probedAt)
      ⟨rfl, rfl, rfl, rfl⟩ ?_ (by simp)
  have noted (suspected : Endpoint) (suspicion : Suspicion) :
      (if suspected = target then { suspicion with probedAt := some now } else suspicion) =
        { suspicion with
          probedAt := if suspected = target then some now else suspicion.probedAt } := by
    split <;> rfl
  simp only [noted]

theorem Course.startRelay {origin : SocketAddress} {asked sequence : UInt64}
    (started : detector.startRelay origin asked target now = .ok (sequence, after)) :
    Course suspector moment detector [] after := by
  obtain ⟨_, _, _, entered⟩ := startRelay_eq_ok started
  rw [entered]
  exact idle ⟨rfl, rfl, rfl, rfl⟩ rfl

theorem Course.receiveAck (sequence : UInt64) :
    Course suspector moment detector (detector.receiveAck sequence).1
      (detector.receiveAck sequence).2 := by
  unfold Detector.receiveAck
  split
  · exact idle ⟨rfl, rfl, rfl, rfl⟩ rfl
  · split
    · exact of_eq ⟨rfl, rfl, rfl, rfl⟩ rfl (by simp [Relay.result, Finding.suspect?])
    · exact idle (.refl detector) rfl

theorem Course.receiveIndirectAck {sequence : UInt64} {alive : Bool}
    (received :
      detector.receiveIndirectAck sequence target alive now = .ok (findings, after)) :
    Course detector.own (some now) detector findings after := by
  rcases receiveIndirectAck_eq_ok received with
    ⟨_, rfl, rfl⟩ | ⟨probe, _, _, ⟨_, rfl, rfl⟩ | ⟨_, _, failed⟩ | ⟨_, _, rfl, rfl⟩⟩
  · exact idle (.refl _) rfl
  · exact idle ⟨rfl, rfl, rfl, rfl⟩ rfl
  · have erased :
        Course detector.own (some now) detector []
          { detector with probes := detector.probes.erase sequence } :=
      idle ⟨rfl, rfl, rfl, rfl⟩ rfl
    exact erased.trans (Course.failRound failed)
  · exact idle ⟨rfl, rfl, rfl, rfl⟩ rfl

end Probes

/-! ## What an operation does to the suspicions -/

/-- The host in whose name an operation suspects. -/
def Operation.accuser (own : Endpoint) : Operation → Endpoint
  | .suspect _ suspector _ => suspector
  | _ => own

/-- The operation changes what the detector goes by. -/
def Operation.IsSetting : Operation → Prop
  | .setOwn _ | .setClusterSize _ => True
  | _ => False

/-- The operation may drop suspicions in the end. -/
def Operation.IsClosing : Operation → Prop
  | .observe _ _ | .checkTimeouts _ | .forget _ | .retainMembers _ => True
  | _ => False

/-- What an operation drops in the end, and what it tells of that: a member of which
it finds the suspicion refuted or due was suspected, and is not any more. -/
structure Ends (before : Detector) (findings : List Finding) (after : Detector) : Prop where
  kept : ∃ kept, after.suspicions = before.suspicions.filter kept
  told : ∀ finding ∈ findings, ∃ target, (finding = .refuted target ∨ finding = .dead target) ∧
    before.suspicions.contains target = true ∧ after.suspicions.contains target = false

section Phases

variable {moment : Option Nat} {before : Detector} {findings : List Finding}
  {operation : Operation}

theorem Ends.of_filter (kept : Endpoint → Suspicion → Bool)
    (filtered : after.suspicions = before.suspicions.filter kept) : Ends before [] after :=
  ⟨⟨kept, filtered⟩, by simp⟩

theorem Ends.of_eq (same : after.suspicions = before.suspicions) : Ends before [] after :=
  .of_filter (fun _ _ => true) (same.trans (SortedMap.filter_true _).symm)

/-- Of every suspicion that passes a test it is told, and it is dropped. -/
private theorem Ends.of_verdicts {told : Endpoint → Finding}
    (kind : told = .refuted ∨ told = .dead) (fallen : Endpoint → Suspicion → Bool)
    (filtered :
      after.suspicions = before.suspicions.filter fun target suspicion => !fallen target suspicion) :
    Ends before ((before.suspicions.filter fallen).keys.map told) after where
  kept := ⟨_, filtered⟩
  told finding among := by
    obtain ⟨target, falls, rfl⟩ := List.mem_map.mp among
    obtain ⟨suspicion, found⟩ := SortedMap.contains_iff.mp (SortedMap.mem_keys_iff.mp falls)
    rw [SortedMap.get?_filter, Option.filter_eq_some_iff] at found
    refine ⟨target, ?_, SortedMap.contains_iff.mpr ⟨suspicion, found.1⟩, ?_⟩
    · rcases kind with rfl | rfl
      · exact Or.inl rfl
      · exact Or.inr rfl
    · rw [SortedMap.contains_eq_false_iff, filtered, SortedMap.get?_filter, found.1,
        Option.filter_some, found.2]
      rfl

theorem Ends.observe (sender : Endpoint) (now : Nat) :
    Ends detector (detector.observe sender now).1 (detector.observe sender now).2 :=
  .of_verdicts (Or.inl rfl)
    (fun target suspicion => target.sameHost sender && suspicion.incarnation ≤ sender.incarnation)
    rfl

theorem Ends.afterVerdicts (detector : Detector) (now : Nat) :
    Ends detector ((detector.due now).map .dead) (detector.afterVerdicts now) := by
  refine .of_verdicts (Or.inr rfl) (fun _ suspicion => suspicion.deadline ≤ now) ?_
  have ahead (suspicion : Suspicion) :
      decide (now < suspicion.deadline) = !decide (suspicion.deadline ≤ now) := by
    simp only [← Nat.not_le, decide_not]
  simp only [Detector.afterVerdicts, ahead]

/-- Most operations only run their course. -/
theorem course_of_operate (unset : ¬ operation.IsSetting) (unclosing : ¬ operation.IsClosing)
    (operated : detector.operate operation = .ok (findings, after)) :
    Course (operation.accuser detector.own) operation.moment? detector findings after := by
  cases operation with
  | suspect target suspector now =>
      obtain ⟨⟨finding, told⟩, suspected, same⟩ := Attempt.map_eq_ok operated
      cases same
      exact .suspect rfl suspected
  | startProbe target now =>
      obtain ⟨⟨sequence, started⟩, succeeded, same⟩ := Attempt.map_eq_ok operated
      cases same
      exact .startProbe succeeded
  | setHelpers sequence helpers =>
      cases operated
      exact .idle ⟨rfl, rfl, rfl, rfl⟩ rfl
  | startRelay origin asked target now =>
      obtain ⟨⟨sequence, started⟩, succeeded, same⟩ := Attempt.map_eq_ok operated
      cases same
      exact .startRelay succeeded
  | receiveAck sequence =>
      have course :
          Course detector.own none detector (detector.receiveAck sequence).1
            (detector.receiveAck sequence).2 :=
        .receiveAck sequence
      rwa [Except.ok.inj operated] at course
  | receiveIndirectAck sequence target alive now => exact .receiveIndirectAck operated
  | abandon =>
      cases operated
      exact .idle ⟨rfl, rfl, rfl, rfl⟩ rfl
  | setOwn | setClusterSize => exact absurd trivial unset
  | observe | checkTimeouts | forget | retainMembers => exact absurd trivial unclosing

/-- An operation runs its course, and then it may drop suspicions. -/
theorem phases_of_operate (operated : detector.operate operation = .ok (findings, after)) :
    ∃ middle found told,
      Course (operation.accuser detector.own) operation.moment? detector found middle ∧
        Ends middle told after ∧ findings = found ++ told ∧
          (operation.IsSetting ∨ SameTerms middle after) := by
  have idles {suspector : Endpoint} : Course suspector operation.moment? detector [] detector :=
    .idle (.refl detector) rfl
  by_cases setting : operation.IsSetting
  · refine ⟨detector, [], findings, idles, ?_, rfl, Or.inl setting⟩
    cases operation with
    | setOwn | setClusterSize =>
        cases operated
        exact .of_eq rfl
    | _ => exact setting.elim
  by_cases closing : operation.IsClosing
  · cases operation with
    | observe sender now =>
        cases operated
        exact ⟨detector, [], _, idles, .observe sender now, rfl, Or.inr ⟨rfl, rfl, rfl, rfl⟩⟩
    | checkTimeouts now =>
        obtain ⟨middle, suspected, failed, rfl, rfl⟩ := checkTimeouts_eq_ok operated
        exact
          ⟨middle, _, _, .ending failed, .afterVerdicts middle now, rfl,
            Or.inr ⟨rfl, rfl, rfl, rfl⟩⟩
    | forget target =>
        cases operated
        refine ⟨detector, [], [], idles, ?_, rfl, Or.inr ⟨rfl, rfl, rfl, rfl⟩⟩
        exact .of_filter (fun tested _ => compare tested target != .eq) rfl
    | retainMembers isMember =>
        cases operated
        refine ⟨detector, [], [], idles, ?_, rfl, Or.inr ⟨rfl, rfl, rfl, rfl⟩⟩
        exact .of_filter (fun tested _ => isMember tested) rfl
    | _ => exact closing.elim
  · have course := course_of_operate setting closing operated
    exact
      ⟨after, findings, [], course, .of_eq rfl, (List.append_nil findings).symm,
        Or.inr (.refl after)⟩

end Phases

/-! ## Drifting -/

section Drifting

variable {moment : Option Nat} {before : Detector} {findings : List Finding}

/-- A course in the detector's own name makes nobody else a suspector. -/
private theorem Drifts.of_course (course : Course suspector moment before findings after)
    (own : suspector = before.own) : Drifts before after := by
  induction course with
  | note probedAt terms noted =>
      refine Drifts.of_suspicions terms.own_eq fun target suspicion found => ?_
      rw [noted, SortedMap.get?_mapValues] at found
      obtain ⟨earlier, foundEarlier, rfl⟩ := Option.map_eq_some_iff.mp found
      exact ⟨earlier, foundEarlier, rfl, rfl⟩
  | suspect _ suspected =>
      exact
        { own_eq := own_of_suspect suspected
          recorded recorded := recorded_of_suspect recorded suspected
          blames blamed := by
            rcases (blames_suspect_iff suspected).mp blamed with earlier | ⟨_, _, same⟩
            · exact Or.inl earlier
            · exact Or.inr (same.trans own) }
  | trans first _ left right => exact (left own).trans (right (own.trans first.terms.own_eq.symm))

private theorem Operation.IsQuiet.accuser_eq {operation : Operation} (quiet : operation.IsQuiet)
    (own : Endpoint) : operation.accuser own = own := by
  cases operation with
  | suspect => exact quiet.elim
  | _ => rfl

/-- Only to be told of a suspicion makes a detector blame a host other than
itself. -/
theorem Drifts.operate {operation : Operation} (quiet : operation.IsQuiet)
    (operated : detector.operate operation = .ok (findings, after)) : Drifts detector after := by
  obtain ⟨middle, found, told, course, ends, _, setting | terms⟩ := phases_of_operate operated
  · cases operation with
    | setOwn own => exact quiet.elim
    | setClusterSize size =>
        cases operated
        exact Drifts.of_eq rfl rfl
    | _ => exact setting.elim
  · obtain ⟨kept, filtered⟩ := ends.kept
    have drifts := Drifts.of_course course (quiet.accuser_eq detector.own)
    exact drifts.trans (Drifts.of_filter kept terms.own_eq filtered)

theorem Drifts.observe (sender : Endpoint) : Drifts detector (detector.observe sender now).2 :=
  have quiet : (Operation.observe sender now).IsQuiet := trivial
  have observed :
      detector.operate (.observe sender now) =
        .ok ((detector.observe sender now).1, (detector.observe sender now).2) :=
    rfl
  Drifts.operate quiet observed

end Drifting

/-! ## Refutations -/

private theorem get?_observe (sender : Endpoint) :
    (detector.observe sender now).2.suspicions.get? target =
      (detector.suspicions.get? target).filter fun suspicion =>
        !(target.sameHost sender && suspicion.incarnation ≤ sender.incarnation) :=
  SortedMap.get?_filter _ _ _

/-- Word that refutes suspicions of a target leaves none of it. -/
theorem get?_observe_of_refutes {refuting : Endpoint} (recorded : detector.Recorded)
    (refutes : refuting.Refutes target) :
    (detector.observe refuting now).2.suspicions.get? target = none := by
  rw [get?_observe, Option.filter_eq_none_iff]
  intro suspicion standing
  simp [refutes.1, recorded target suspicion standing, refutes.2]

/-- Word from a host at an incarnation that is at least the target's leaves no
suspicion of the target. -/
theorem not_blames_observe {refuting : Endpoint} (recorded : detector.Recorded)
    (sameHost : target.sameHost refuting = true)
    (current : target.incarnation ≤ refuting.incarnation) (suspector : Endpoint) :
    ¬ (detector.observe refuting now).2.Blames target suspector := by
  rintro ⟨suspicion, found, _⟩
  rw [get?_observe_of_refutes recorded ⟨sameHost, current⟩] at found
  cases found

end Detector

end Roster
