import Roster.Proofs.Detector.Rounds
import Roster.Proofs.Detector.Run

/-!
# What an operation does to rounds and relays

An operation begins one round or relay at most.  It ends rounds, each with a result
that changes the health once, and answers relays that are pending, each with what its
origin has asked for; and all others go on as they are, or are dropped without a
word.
-/

namespace Roster

/-- The finding is the answer to a relay. -/
def Finding.isAnswer : Finding → Bool
  | .relayed _ _ _ _ => true
  | _ => false

/-- Who has asked for a relay, under which number, and whom it is to reach. -/
def Relay.request (relay : Relay) : SocketAddress × UInt64 × Endpoint :=
  (relay.origin, relay.sequence, relay.target)

namespace Detector

variable {detector before after : Detector} {target suspector : Endpoint} {now : Nat}
  {operation : Operation} {findings : List Finding} {number : UInt64}
  {history : List Occurrence} {options : DetectorOptions}

/-! ## Beginnings and ends -/

def roundsBegun (detector : Detector) : Operation → List (UInt64 × Endpoint)
  | .startProbe target now =>
      match detector.startProbe target now with
      | .ok (number, _) => [(number, target)]
      | .error _ => []
  | _ => []

/-- The relay that an operation begins, by number and request. -/
def relaysBegun (detector : Detector) :
    Operation → List (UInt64 × SocketAddress × UInt64 × Endpoint)
  | .startRelay origin asked target now =>
      match detector.startRelay origin asked target now with
      | .ok (number, _) => [(number, origin, asked, target)]
      | .error _ => []
  | _ => []

/-- The rounds that an operation ends with a result, by number, and whether the
target has answered. -/
def roundsEnded (detector : Detector) : Operation → List (UInt64 × Bool)
  | .receiveAck number => if detector.probes.contains number then [(number, true)] else []
  | .receiveIndirectAck number target alive _ =>
      match detector.probes.get? number with
      | none => []
      | some probe =>
          if probe.target ≠ target then []
          else if alive then [(number, true)]
          else if 0 < probe.helpers ∧ probe.helpers ≤ probe.nacks + 1 then [(number, false)]
          else []
  | .checkTimeouts now =>
      (detector.probes.filter fun _ probe => probe.roundDeadline ≤ now).keys.map (·, false)
  | _ => []

/-- The relays that an operation answers, by number, and whether their targets have
answered. -/
def relaysAnswered (detector : Detector) : Operation → List (UInt64 × Relay × Bool)
  | .receiveAck number =>
      if detector.probes.contains number then
        []
      else
        ((detector.relays.get? number).map fun relay => (number, relay, true)).toList
  | .checkTimeouts now =>
      (detector.relays.filter fun _ relay => relay.deadline ≤ now).entries.map
        fun (number, relay) => (number, relay, false)
  | _ => []

private theorem keys_roundsEnded_checkTimeouts :
    (detector.roundsEnded (.checkTimeouts now)).map Prod.fst =
      (detector.probes.filter fun _ probe => probe.roundDeadline ≤ now).keys := by
  simp [roundsEnded, Function.comp_def]

private theorem keys_relaysAnswered_checkTimeouts :
    (detector.relaysAnswered (.checkTimeouts now)).map Prod.fst =
      (detector.relays.filter fun _ relay => relay.deadline ≤ now).keys := by
  simp [relaysAnswered, SortedMap.keys, Function.comp_def]

/-- An ack ends the round of its number, and ends it well. -/
theorem mem_roundsEnded_receiveAck {acked : UInt64} {answered : Bool} :
    (number, answered) ∈ detector.roundsEnded (.receiveAck acked) ↔
      number = acked ∧ answered = true ∧
        ∃ probe, detector.probes.get? number = some probe := by
  rw [roundsEnded]
  constructor
  · intro ended
    split at ended
    · rename_i probed
      cases List.mem_singleton.mp ended
      exact ⟨rfl, rfl, SortedMap.contains_iff.mp probed⟩
    · cases ended
  · rintro ⟨rfl, rfl, probed⟩
    rw [if_pos (SortedMap.contains_iff.mpr probed)]
    exact List.mem_singleton_self _

/-- A report ends the round of its number if it names the target: well if it says that
the target was reached, and else if no helper is left to report. -/
theorem mem_roundsEnded_receiveIndirectAck {acked : UInt64} {alive answered : Bool} :
    (number, answered) ∈ detector.roundsEnded (.receiveIndirectAck acked target alive now) ↔
      number = acked ∧ ∃ probe, detector.probes.get? number = some probe ∧
        probe.target = target ∧
          (alive = true ∧ answered = true ∨
            alive = false ∧ answered = false ∧
              0 < probe.helpers ∧ probe.helpers ≤ probe.nacks + 1) := by
  rw [roundsEnded]
  constructor
  · intro ended
    split at ended
    · cases ended
    rename_i probe probed
    split_ifs at ended with other reached enough
    · cases ended
    · cases List.mem_singleton.mp ended
      exact ⟨rfl, probe, probed, not_not.mp other, Or.inl ⟨reached, rfl⟩⟩
    · cases List.mem_singleton.mp ended
      have unreached : alive = false := by simpa using reached
      exact ⟨rfl, probe, probed, not_not.mp other, Or.inr ⟨unreached, rfl, enough⟩⟩
    · cases ended
  · rintro ⟨rfl, probe, probed, rfl, ⟨rfl, rfl⟩ | ⟨rfl, rfl, enough⟩⟩
    · simp [probed]
    · simp [probed, enough]

/-- Time ends the rounds whose deadlines have passed, and none of them well. -/
theorem mem_roundsEnded_checkTimeouts {answered : Bool} :
    (number, answered) ∈ detector.roundsEnded (.checkTimeouts now) ↔
      answered = false ∧
        ∃ probe, detector.probes.get? number = some probe ∧ probe.roundDeadline ≤ now := by
  have ends :
      number ∈ (detector.probes.filter fun _ probe => probe.roundDeadline ≤ now).keys ↔
        ∃ probe, detector.probes.get? number = some probe ∧ probe.roundDeadline ≤ now := by
    rw [SortedMap.mem_keys_iff, SortedMap.contains_iff]
    simp [SortedMap.get?_filter, Option.filter_eq_some_iff]
  rw [roundsEnded, List.mem_map, ← ends]
  constructor
  · rintro ⟨_, among, same⟩
    cases same
    exact ⟨rfl, among⟩
  · rintro ⟨rfl, among⟩
    exact ⟨number, among, rfl⟩

/-- Time answers the relays whose deadlines have passed, and none of them well. -/
private theorem mem_relaysAnswered_checkTimeouts {relay : Relay} {alive : Bool} :
    (number, relay, alive) ∈ detector.relaysAnswered (.checkTimeouts now) ↔
      alive = false ∧ detector.relays.get? number = some relay ∧ relay.deadline ≤ now := by
  have gives :
      (number, relay) ∈ (detector.relays.filter fun _ relay => relay.deadline ≤ now).entries ↔
        detector.relays.get? number = some relay ∧ relay.deadline ≤ now := by
    rw [SortedMap.mem_filter_entries_iff, decide_eq_true_eq]
  rw [relaysAnswered, List.mem_map, ← gives]
  constructor
  · rintro ⟨_, among, same⟩
    cases same
    exact ⟨rfl, among⟩
  · rintro ⟨rfl, among⟩
    exact ⟨(number, relay), among, rfl⟩

/-- The target of the round under a number, while it is in flight. -/
def pendingRound (detector : Detector) (number : UInt64) : Option Endpoint :=
  (detector.probes.get? number).map Probe.target

/-- The request of the relay under a number, while it is pending. -/
def pendingRelay (detector : Detector) (number : UInt64) :
    Option (SocketAddress × UInt64 × Endpoint) :=
  (detector.relays.get? number).map Relay.request

theorem nodup_roundsEnded (detector : Detector) (operation : Operation) :
    ((detector.roundsEnded operation).map Prod.fst).Nodup := by
  cases operation with
  | receiveAck number =>
      rw [roundsEnded]
      split <;> simp
  | receiveIndirectAck number target alive now =>
      rw [roundsEnded]
      split
      · simp
      · split_ifs <;> simp
  | checkTimeouts now =>
      rw [keys_roundsEnded_checkTimeouts]
      exact SortedMap.nodup_keys _
  | _ => exact List.nodup_nil

theorem nodup_relaysAnswered (detector : Detector) (operation : Operation) :
    ((detector.relaysAnswered operation).map Prod.fst).Nodup := by
  cases operation with
  | receiveAck number =>
      rw [relaysAnswered]
      split
      · simp
      · cases detector.relays.get? number <;> simp
  | checkTimeouts now =>
      rw [keys_relaysAnswered_checkTimeouts]
      exact SortedMap.nodup_keys _
  | _ => exact List.nodup_nil

theorem pendingRound_eq_some {probe : Probe} (probed : detector.probes.get? number = some probe) :
    detector.pendingRound number = some probe.target := by
  rw [pendingRound, probed, Option.map_some]

theorem pendingRound_of_roundsEnded
    (ended : number ∈ (detector.roundsEnded operation).map Prod.fst) :
    ∃ target, detector.pendingRound number = some target := by
  obtain ⟨⟨_, answered⟩, among, rfl⟩ := List.mem_map.mp ended
  cases operation with
  | receiveAck acked =>
      obtain ⟨_, _, probe, probed⟩ := mem_roundsEnded_receiveAck.mp among
      exact ⟨probe.target, pendingRound_eq_some probed⟩
  | receiveIndirectAck acked target alive now =>
      obtain ⟨_, probe, probed, _⟩ := mem_roundsEnded_receiveIndirectAck.mp among
      exact ⟨probe.target, pendingRound_eq_some probed⟩
  | checkTimeouts now =>
      obtain ⟨_, probe, probed, _⟩ := mem_roundsEnded_checkTimeouts.mp among
      exact ⟨probe.target, pendingRound_eq_some probed⟩
  | _ => cases among

/-- A round ends well by the ack of its number, or by the word of a helper that its
target has been reached. -/
theorem mem_roundsEnded_true_iff :
    (number, true) ∈ detector.roundsEnded operation ↔
      ∃ target, detector.pendingRound number = some target ∧
        (operation = .receiveAck number ∨
          ∃ now, operation = .receiveIndirectAck number target true now) := by
  constructor
  · intro ended
    cases operation with
    | receiveAck acked =>
        obtain ⟨rfl, _, probe, probed⟩ := mem_roundsEnded_receiveAck.mp ended
        exact ⟨probe.target, pendingRound_eq_some probed, Or.inl rfl⟩
    | receiveIndirectAck acked reported alive now =>
        obtain ⟨rfl, probe, probed, rfl, ⟨rfl, _⟩ | ⟨_, same, _⟩⟩ :=
          mem_roundsEnded_receiveIndirectAck.mp ended
        · exact ⟨probe.target, pendingRound_eq_some probed, Or.inr ⟨now, rfl⟩⟩
        · cases same
    | checkTimeouts now =>
        obtain ⟨same, _⟩ := mem_roundsEnded_checkTimeouts.mp ended
        cases same
    | _ => cases ended
  · rintro ⟨target, pending, rfl | ⟨now, rfl⟩⟩
    · obtain ⟨probe, probed, _⟩ := Option.map_eq_some_iff.mp pending
      exact mem_roundsEnded_receiveAck.mpr ⟨rfl, rfl, probe, probed⟩
    · obtain ⟨probe, probed, same⟩ := Option.map_eq_some_iff.mp pending
      exact
        mem_roundsEnded_receiveIndirectAck.mpr ⟨rfl, probe, probed, same, Or.inl ⟨rfl, rfl⟩⟩

/-- A round fails at its deadline, or by the word of the last of its helpers. -/
theorem mem_roundsEnded_false_iff :
    (number, false) ∈ detector.roundsEnded operation ↔
      ∃ probe, detector.probes.get? number = some probe ∧
        ((∃ now, operation = .checkTimeouts now ∧ probe.roundDeadline ≤ now) ∨
          ∃ now, operation = .receiveIndirectAck number probe.target false now ∧
            0 < probe.helpers ∧ probe.helpers ≤ probe.nacks + 1) := by
  constructor
  · intro ended
    cases operation with
    | receiveAck acked =>
        obtain ⟨_, same, _⟩ := mem_roundsEnded_receiveAck.mp ended
        cases same
    | receiveIndirectAck acked reported alive now =>
        obtain ⟨rfl, probe, probed, rfl, ⟨_, same⟩ | ⟨rfl, _, enough⟩⟩ :=
          mem_roundsEnded_receiveIndirectAck.mp ended
        · cases same
        · exact ⟨probe, probed, Or.inr ⟨now, rfl, enough⟩⟩
    | checkTimeouts now =>
        obtain ⟨_, probe, probed, elapsed⟩ := mem_roundsEnded_checkTimeouts.mp ended
        exact ⟨probe, probed, Or.inl ⟨now, rfl, elapsed⟩⟩
    | _ => cases ended
  · rintro ⟨probe, probed, ⟨now, rfl, elapsed⟩ | ⟨now, rfl, enough⟩⟩
    · exact mem_roundsEnded_checkTimeouts.mpr ⟨rfl, probe, probed, elapsed⟩
    · exact
        mem_roundsEnded_receiveIndirectAck.mpr
          ⟨rfl, probe, probed, rfl, Or.inr ⟨rfl, rfl, enough⟩⟩

/-- Only a relay that is pending is answered, and well only by an ack of its own
number. -/
theorem relay_of_relaysAnswered {relay : Relay} {alive : Bool}
    (answered : (number, relay, alive) ∈ detector.relaysAnswered operation) :
    detector.relays.get? number = some relay ∧
      (alive = true → operation = .receiveAck number) := by
  cases operation with
  | receiveAck sequence =>
      rw [relaysAnswered] at answered
      split at answered
      · cases answered
      · obtain ⟨found, pending, same⟩ :=
          Option.map_eq_some_iff.mp (Option.mem_toList.mp answered)
        cases same
        exact ⟨pending, fun _ => rfl⟩
  | checkTimeouts now =>
      obtain ⟨rfl, pending, _⟩ := mem_relaysAnswered_checkTimeouts.mp answered
      exact ⟨pending, fun alive => absurd alive Bool.false_ne_true⟩
  | _ => cases answered

theorem pendingRelay_of_relaysAnswered {relay : Relay} {alive : Bool}
    (answered : (number, relay, alive) ∈ detector.relaysAnswered operation) :
    detector.pendingRelay number = some relay.request := by
  rw [pendingRelay, (relay_of_relaysAnswered answered).1, Option.map_some]

/-- What comes of a report: nothing but that it is counted, or the round ends well, or
its target fails in it. -/
theorem receiveIndirectAck_outcome {alive : Bool}
    (received : detector.receiveIndirectAck number target alive now = .ok (findings, after)) :
    (detector.roundsEnded (.receiveIndirectAck number target alive now) = [] ∧ findings = [] ∧
        (after = detector ∨
          ∃ probe, detector.probes.get? number = some probe ∧
            after =
              { detector with
                probes := detector.probes.insert number { probe with nacks := probe.nacks + 1 } })) ∨
      (detector.roundsEnded (.receiveIndirectAck number target alive now) = [(number, true)] ∧
        findings = [] ∧
        after =
          { detector with
            probes := detector.probes.erase number
            health := detector.health.succeed
            lastHeard := detector.lastHeard.insert target now }) ∨
      detector.roundsEnded (.receiveIndirectAck number target alive now) = [(number, false)] ∧
        detector.pendingRound number = some target ∧
        { detector with probes := detector.probes.erase number }.failRound target now =
          .ok (findings, after) := by
  rcases receiveIndirectAck_eq_ok received with
    ⟨other, rfl, rfl⟩ |
      ⟨probe, probed, rfl, ⟨rfl, rfl, rfl⟩ | ⟨rfl, enough, failed⟩ | ⟨rfl, few, rfl, rfl⟩⟩
  · refine Or.inl ⟨?_, rfl, Or.inl rfl⟩
    rw [roundsEnded]
    cases probed : after.probes.get? number with
    | none => rfl
    | some probe => exact if_pos (other probe probed)
  · exact Or.inr (Or.inl ⟨by simp [roundsEnded, probed], rfl, rfl⟩)
  · exact
      Or.inr (Or.inr ⟨by simp [roundsEnded, probed, enough], pendingRound_eq_some probed, failed⟩)
  · refine Or.inl ⟨?_, rfl, Or.inr ⟨probe, probed, rfl⟩⟩
    simp only [roundsEnded, probed, ne_eq, not_true_eq_false, if_false, Bool.false_eq_true,
      if_neg few]

/-! ## The books -/

def judge (health : Health) (ended : UInt64 × Bool) : Health :=
  if ended.2 then health.succeed else health.fail

/-- What one operation does to the health, the rounds and the relays, and which relays
it tells of. -/
structure Books (before : Detector) (operation : Operation) (findings : List Finding)
    (after : Detector) : Prop where
  health : after.health = (before.roundsEnded operation).foldl judge before.health
  rounds : ∀ {number target}, after.pendingRound number = some target →
    before.pendingRound number = some target ∧
        number ∉ (before.roundsEnded operation).map Prod.fst ∨
      (number, target) ∈ before.roundsBegun operation
  relays : ∀ {number request}, after.pendingRelay number = some request →
    before.pendingRelay number = some request ∧
        number ∉ (before.relaysAnswered operation).map Prod.fst ∨
      (number, request) ∈ before.relaysBegun operation
  told : findings.filter Finding.isAnswer =
    (before.relaysAnswered operation).map fun (_, relay, alive) => Relay.result relay alive

namespace Books

theorem of_kept (unended : before.roundsEnded operation = [])
    (unanswered : before.relaysAnswered operation = []) (health : after.health = before.health)
    (rounds : ∀ {number target}, after.pendingRound number = some target →
      before.pendingRound number = some target)
    (relays : ∀ {number request}, after.pendingRelay number = some request →
      before.pendingRelay number = some request)
    (silent : ∀ finding ∈ findings, finding.isAnswer = false) :
    Books before operation findings after where
  health := by rw [health, unended, List.foldl_nil]
  rounds found := Or.inl ⟨rounds found, by simp [unended]⟩
  relays found := Or.inl ⟨relays found, by simp [unanswered]⟩
  told := by
    rw [unanswered, List.map_nil, List.filter_eq_nil_iff]
    intro finding among
    rw [silent finding among]
    exact Bool.false_ne_true

/-! ### Operations that begin, end and answer nothing -/

private theorem pendingRound_of_filter (kept : UInt64 → Probe → Bool) {item : Endpoint}
    (filtered : after.probes = before.probes.filter kept)
    (found : after.pendingRound number = some item) : before.pendingRound number = some item := by
  unfold pendingRound at found ⊢
  rw [filtered, SortedMap.get?_filter] at found
  obtain ⟨probe, passes, same⟩ := Option.map_eq_some_iff.mp found
  rw [(Option.filter_eq_some_iff.mp passes).1, Option.map_some, same]

private theorem pendingRelay_of_filter (kept : UInt64 → Relay → Bool)
    {item : SocketAddress × UInt64 × Endpoint}
    (filtered : after.relays = before.relays.filter kept)
    (found : after.pendingRelay number = some item) : before.pendingRelay number = some item := by
  unfold pendingRelay at found ⊢
  rw [filtered, SortedMap.get?_filter] at found
  obtain ⟨relay, passes, same⟩ := Option.map_eq_some_iff.mp found
  rw [(Option.filter_eq_some_iff.mp passes).1, Option.map_some, same]

private theorem silent_of_suspect {finding : Option Finding}
    (suspected : detector.suspect target suspector now = .ok (finding, after)) :
    ∀ reported ∈ finding.toList, reported.isAnswer = false := by
  intro reported among
  rcases finding_of_suspect_cases suspected among with rfl | rfl <;> rfl

theorem suspect {finding : Option Finding}
    (suspected : detector.suspect target suspector now = .ok (finding, after)) :
    Books detector (.suspect target suspector now) finding.toList after := by
  rcases suspect_eq_ok suspected with
    ⟨_, _, rfl⟩ | ⟨_, ⟨_, _, _, _, _, _, rfl⟩ | ⟨_, _, _, _, rfl⟩⟩ <;>
      exact of_kept rfl rfl rfl id id (silent_of_suspect suspected)

theorem observe (sender : Endpoint) (now : Nat) :
    Books detector (.observe sender now) (detector.observe sender now).1
      (detector.observe sender now).2 := by
  refine of_kept rfl rfl rfl id id fun finding among => ?_
  obtain ⟨_, _, rfl⟩ := List.mem_map.mp among
  rfl

theorem setHelpers (sequence : UInt64) (helpers : Nat) :
    Books detector (.setHelpers sequence helpers) [] (detector.setHelpers sequence helpers) := by
  refine of_kept rfl rfl rfl (fun {number item} found => ?_) id (by simp)
  unfold pendingRound at found ⊢
  rw [Detector.setHelpers, SortedMap.get?_mapValues] at found
  cases probed : detector.probes.get? number with
  | none => simp [probed] at found
  | some probe =>
      rw [probed, Option.map_some, Option.map_some] at found
      rw [Option.map_some, ← found]
      split <;> rfl

theorem abandon : Books detector .abandon [] detector.abandon := by
  refine of_kept rfl rfl rfl (fun found => ?_) (fun found => ?_) (by simp)
  · cases found
  · cases found

/-! ### Operations that begin a round or a relay -/

theorem startProbe (started : detector.startProbe target now = .ok (number, after)) :
    Books detector (.startProbe target now) [] after := by
  have begun : detector.roundsBegun (.startProbe target now) = [(number, target)] := by
    rw [roundsBegun, started]
  obtain ⟨_, _, _, _, same⟩ := startProbe_eq_ok started
  rw [same]
  refine ⟨rfl, fun {tested item} found => ?_, fun found => Or.inl ⟨found, by simp [relaysAnswered]⟩,
    rfl⟩
  unfold pendingRound at found ⊢
  rw [SortedMap.get?_insert] at found
  split at found
  · rename_i here
    cases found
    rw [begun, here]
    exact Or.inr (List.mem_singleton_self _)
  · exact Or.inl ⟨found, by simp [roundsEnded]⟩

theorem startRelay {origin : SocketAddress} {asked : UInt64}
    (started : detector.startRelay origin asked target now = .ok (number, after)) :
    Books detector (.startRelay origin asked target now) [] after := by
  have begun :
      detector.relaysBegun (.startRelay origin asked target now) =
        [(number, origin, asked, target)] := by
    rw [relaysBegun, started]
  obtain ⟨_, _, _, same⟩ := startRelay_eq_ok started
  rw [same]
  refine ⟨rfl, fun found => Or.inl ⟨found, by simp [roundsEnded]⟩, fun {tested item} found => ?_,
    rfl⟩
  unfold pendingRelay at found ⊢
  rw [SortedMap.get?_insert] at found
  split at found
  · rename_i here
    cases found
    rw [begun, here]
    exact Or.inr (List.mem_singleton_self _)
  · exact Or.inl ⟨found, by simp [relaysAnswered]⟩

/-! ### Operations that end rounds and answer relays -/

private theorem of_ended {answered : Bool}
    (ended : before.roundsEnded operation = [(number, answered)])
    (unanswered : before.relaysAnswered operation = [])
    (health : after.health = judge before.health (number, answered))
    (probes : after.probes = before.probes.erase number) (relays : after.relays = before.relays)
    (silent : ∀ finding ∈ findings, finding.isAnswer = false) :
    Books before operation findings after where
  health := by rw [health, ended, List.foldl_cons, List.foldl_nil]
  rounds {tested item} found := by
    unfold pendingRound at found ⊢
    rw [probes, SortedMap.get?_erase] at found
    split at found
    · cases found
    · rename_i other
      exact Or.inl ⟨found, by simpa [ended] using other⟩
  relays found := by
    unfold pendingRelay at found ⊢
    rw [relays] at found
    exact Or.inl ⟨found, by simp [unanswered]⟩
  told := by
    rw [unanswered, List.map_nil, List.filter_eq_nil_iff]
    intro finding among
    rw [silent finding among]
    exact Bool.false_ne_true

theorem receiveAck (sequence : UInt64) :
    Books detector (.receiveAck sequence) (detector.receiveAck sequence).1
      (detector.receiveAck sequence).2 := by
  cases probed : detector.probes.contains sequence with
  | true =>
      have ended : detector.roundsEnded (.receiveAck sequence) = [(sequence, true)] := by
        rw [roundsEnded, if_pos probed]
      have unanswered : detector.relaysAnswered (.receiveAck sequence) = [] := by
        rw [relaysAnswered, if_pos probed]
      rw [Detector.receiveAck, if_pos probed]
      exact of_ended ended unanswered rfl rfl rfl (by simp)
  | false =>
      have none : ¬ detector.probes.contains sequence = true := by simp [probed]
      have unended : detector.roundsEnded (.receiveAck sequence) = [] := by
        rw [roundsEnded, if_neg none]
      rw [Detector.receiveAck, if_neg none]
      cases pending : detector.relays.get? sequence with
      | none =>
          have unanswered : detector.relaysAnswered (.receiveAck sequence) = [] := by
            rw [relaysAnswered, if_neg none, pending]
            rfl
          exact of_kept unended unanswered rfl id id (by simp)
      | some relay =>
          have answered :
              detector.relaysAnswered (.receiveAck sequence) = [(sequence, relay, true)] := by
            rw [relaysAnswered, if_neg none, pending]
            rfl
          refine ⟨by rw [unended]; rfl, fun found => Or.inl ⟨found, by simp [unended]⟩,
            fun {tested item} found => Or.inl ?_, by rw [answered]; rfl⟩
          rw [answered]
          unfold pendingRelay at found ⊢
          rw [SortedMap.get?_erase] at found
          split at found
          · cases found
          · rename_i other
            exact ⟨found, by simpa using other⟩

private theorem silent_of_failRound
    (failed : detector.failRound target now = .ok (findings, after)) :
    ∀ finding ∈ findings, finding.isAnswer = false := by
  unfold Detector.failRound at failed
  obtain ⟨⟨finding, ended⟩, suspected, returned⟩ := Attempt.bind_eq_ok failed
  cases returned
  exact silent_of_suspect suspected

private theorem silent_of_failRounds :
    ∀ {targets : List Endpoint} {detector after : Detector} {findings : List Finding},
      Detector.failRounds now targets detector = .ok (findings, after) →
        ∀ finding ∈ findings, finding.isAnswer = false
  | [], detector, after, findings, failed => by
      cases failed
      simp
  | target :: rest, detector, after, findings, failed => by
      unfold Detector.failRounds at failed
      obtain ⟨⟨firstFindings, middle⟩, first, failedRest⟩ := Attempt.bind_eq_ok failed
      obtain ⟨⟨otherFindings, last⟩, others, returned⟩ := Attempt.bind_eq_ok failedRest
      cases returned
      intro finding among
      rcases List.mem_append.mp among with before | later
      · exact silent_of_failRound first finding before
      · exact silent_of_failRounds others finding later

theorem receiveIndirectAck {alive : Bool}
    (received : detector.receiveIndirectAck number target alive now = .ok (findings, after)) :
    Books detector (.receiveIndirectAck number target alive now) findings after := by
  rcases receiveIndirectAck_outcome received with
    ⟨unended, rfl, rfl | ⟨probe, probed, rfl⟩⟩ | ⟨ended, rfl, rfl⟩ | ⟨ended, _, failed⟩
  · exact of_kept unended rfl rfl id id (by simp)
  · refine of_kept unended rfl rfl (fun {tested item} found => ?_) id (by simp)
    unfold pendingRound at found ⊢
    rw [SortedMap.get?_insert] at found
    split at found
    · rename_i here
      rw [here, probed]
      exact found
    · exact found
  · exact of_ended ended rfl rfl rfl rfl (by simp)
  · obtain ⟨_, probes, relays, health⟩ := kept_by_failRound failed
    exact of_ended ended rfl health probes relays (silent_of_failRound failed)

theorem checkTimeouts (checked : detector.checkTimeouts now = .ok (findings, after)) :
    Books detector (.checkTimeouts now) findings after := by
  obtain ⟨middle, suspected, failed, rfl, rfl⟩ := checkTimeouts_eq_ok checked
  obtain ⟨_, probes, relays, health⟩ := kept_by_failRounds failed
  refine ⟨?_, fun {tested item} found => Or.inl ?_, fun {tested item} found => Or.inl ?_, ?_⟩
  · rw [afterVerdicts, health, roundsEnded, ending, SortedMap.keys, List.map_map, List.foldl_map,
      List.foldl_map]
    rfl
  · unfold pendingRound at found ⊢
    rw [afterVerdicts, SortedMap.get?_filter, probes, withoutEnding, SortedMap.get?_mapValues,
      SortedMap.get?_filter] at found
    obtain ⟨changed, kept, rfl⟩ := Option.map_eq_some_iff.mp found
    obtain ⟨probe, passes, rfl⟩ :=
      Option.map_eq_some_iff.mp (Option.filter_eq_some_iff.mp kept).1
    obtain ⟨probed, early⟩ := Option.filter_eq_some_iff.mp passes
    refine ⟨by rw [probed]; rfl, fun ended => ?_⟩
    obtain ⟨_, among, rfl⟩ := List.mem_map.mp ended
    obtain ⟨_, other, foundOther, elapsed⟩ := mem_roundsEnded_checkTimeouts.mp among
    cases probed.symm.trans foundOther
    exact absurd elapsed (by simpa using early)
  · unfold pendingRelay at found ⊢
    rw [afterVerdicts, SortedMap.get?_filter, relays] at found
    obtain ⟨relay, kept, rfl⟩ := Option.map_eq_some_iff.mp found
    obtain ⟨stands, early⟩ := Option.filter_eq_some_iff.mp kept
    have pending : detector.relays.get? tested = some relay := stands
    refine ⟨by rw [pending]; rfl, fun answered => ?_⟩
    obtain ⟨_, among, rfl⟩ := List.mem_map.mp answered
    obtain ⟨_, foundOther, elapsed⟩ := mem_relaysAnswered_checkTimeouts.mp among
    cases pending.symm.trans foundOther
    exact absurd elapsed (by simpa using early)
  · have given : (middle.regrets now).filter Finding.isAnswer = middle.regrets now := by
      refine List.filter_eq_self.mpr fun finding among => ?_
      obtain ⟨_, _, rfl⟩ := List.mem_map.mp among
      rfl
    have asked : (detector.requests now).filter Finding.isAnswer = [] := by
      refine List.filter_eq_nil_iff.mpr fun finding among => ?_
      obtain ⟨_, _, rfl⟩ := List.mem_map.mp among
      exact Bool.false_ne_true
    have passed : ((middle.due now).map Finding.dead).filter Finding.isAnswer = [] := by
      refine List.filter_eq_nil_iff.mpr fun finding among => ?_
      obtain ⟨_, _, rfl⟩ := List.mem_map.mp among
      exact Bool.false_ne_true
    have blamed : suspected.filter Finding.isAnswer = [] := by
      refine List.filter_eq_nil_iff.mpr fun finding among => ?_
      rw [silent_of_failRounds failed finding among]
      exact Bool.false_ne_true
    rw [List.filter_append, List.filter_append, List.filter_append, asked, blamed, given, passed,
      List.append_nil, List.nil_append, List.nil_append, regrets, relaysAnswered, relays,
      List.map_map]
    rfl

theorem forget (target : Endpoint) :
    Books detector (.forget target) [] (detector.forget target) := by
  refine of_kept rfl rfl rfl (fun found => ?_) (fun found => ?_) (by simp)
  · exact pendingRound_of_filter (fun _ probe => probe.target ≠ target) rfl found
  · exact pendingRelay_of_filter (fun _ relay => relay.target ≠ target) rfl found

theorem retainMembers (isMember : Endpoint → Bool) :
    Books detector (.retainMembers isMember) [] (detector.retainMembers isMember) := by
  refine of_kept rfl rfl rfl (fun found => ?_) id (by simp)
  exact pendingRound_of_filter (fun _ probe => isMember probe.target) rfl found

/-- Every operation keeps the books. -/
theorem operate (operated : detector.operate operation = .ok (findings, after)) :
    Books detector operation findings after := by
  cases operation with
  | setOwn own =>
      cases operated
      exact of_kept rfl rfl rfl id id (by simp)
  | setClusterSize size =>
      cases operated
      exact of_kept rfl rfl rfl id id (by simp)
  | suspect target suspector now =>
      obtain ⟨⟨finding, told⟩, suspected, same⟩ := Attempt.map_eq_ok operated
      cases same
      exact suspect suspected
  | observe sender now =>
      cases operated
      exact observe sender now
  | startProbe target now =>
      obtain ⟨⟨number, begun⟩, started, same⟩ := Attempt.map_eq_ok operated
      cases same
      exact startProbe started
  | setHelpers sequence helpers =>
      cases operated
      exact setHelpers sequence helpers
  | startRelay origin asked target now =>
      obtain ⟨⟨number, begun⟩, started, same⟩ := Attempt.map_eq_ok operated
      cases same
      exact startRelay started
  | receiveAck sequence =>
      have kept :
          Books detector (.receiveAck sequence) (detector.receiveAck sequence).1
            (detector.receiveAck sequence).2 :=
        receiveAck sequence
      rwa [Except.ok.inj operated] at kept
  | receiveIndirectAck sequence target alive now => exact receiveIndirectAck operated
  | checkTimeouts now => exact checkTimeouts operated
  | forget target =>
      cases operated
      exact forget target
  | retainMembers isMember =>
      cases operated
      exact retainMembers isMember
  | abandon =>
      cases operated
      exact abandon

end Books

end Detector

end Roster
