import Mathlib.Data.Nat.Log
import Roster.Options.Validation
import Roster.Proofs.Detector.Deadline
import Roster.Proofs.Healing
import Roster.Proofs.Joining
import Roster.Proofs.Node.Frugal

/-!
# Options whose sums are words

Delays come from the options, and deadlines are sums of an instant and a delay.
Delays that grow with the health score are held at the largest word, but the
sums are not, nor are the products of the gossip limit, and the delay of a
retry is cut to a word.  To validate the options bounds them from below only.

Instants are taken below a quarter of the words.  Then the options that never
overflow are those whose delays leave room for every instant, at the worst
score and with one suspector, and whose gossip limit is a word at the best
score in the largest cluster.
-/

namespace Roster

/-! ## Instants and delays -/

namespace Word

/-- The first instant that is not considered. -/
def horizon : Nat :=
  2 ^ 62

/-- The last instant that is considered. -/
def lastInstant : Nat :=
  horizon - 1

private theorem lastInstant_lt : lastInstant < horizon := by
  decide

/-- The longest delay after which every considered instant is still a word. -/
def reach : Nat :=
  bound - horizon

variable {now delay : Nat}

theorem add_reach (early : now < horizon) (short : delay ≤ reach) : now + delay < bound := by
  unfold reach at short
  have room : horizon ≤ bound := by decide
  omega

private theorem le_reach (fits : lastInstant + delay < bound) : delay ≤ reach := by
  have some : 0 < horizon := by decide
  unfold reach
  unfold lastInstant at fits
  omega

/-- A delay within reach is below the largest word, where it would be held. -/
private theorem le_reach_of_min (short : min delay largest ≤ reach) : delay ≤ reach := by
  have below : reach < largest := by decide
  omega

theorem min_largest (short : delay ≤ reach) : min delay largest = delay := by
  have below : reach < largest := by decide
  omega

end Word

/-! ## Delays that grow with the score -/

namespace Health

variable {health : Health} {delay : Nat}

/-- At every score a delay is at most what it is at the worst. -/
private theorem grown_le (health : Health) (delay : Nat) :
    delay * (health.score + 1) ≤ delay * health.ceiling :=
  Nat.mul_le_mul_left delay health.score_lt

private theorem scale_eq (short : delay * health.ceiling ≤ Word.reach) :
    health.scale delay = delay * (health.score + 1) :=
  Word.min_largest ((health.grown_le delay).trans short)

def worst (ceiling : Nat) : Health where
  score := max ceiling 1 - 1
  ceiling := max ceiling 1
  score_lt := by omega

end Health

/-! ## Rounds -/

namespace Detector

variable {detector : Detector} {target : Endpoint} {now : Nat}

/-- The detector once it has given away its next number. -/
def drawn (detector : Detector) : Detector :=
  { detector with next := UInt64.ofNat (detector.next.toNat + 1) }

theorem draw_of_fits (numbered : detector.next.toNat + 1 < Word.bound) :
    detector.draw = .ok (detector.next, detector.drawn) := by
  simp only [draw, Word.add_eq_ok numbered, Attempt.ok_bind]
  rfl

private theorem startProbe_of_fits (numbered : detector.next.toNat + 1 < Word.bound)
    (direct : now + detector.probeTimeout < Word.bound)
    (round : now + detector.probeInterval < Word.bound) :
    ∃ after, detector.startProbe target now = .ok (detector.next, after) ∧
      after.probes.get? detector.next =
        some
          { target
            directDeadline := now + detector.probeTimeout
            roundDeadline := now + detector.probeInterval } := by
  have directOk : Word.add now detector.drawn.probeTimeout = .ok (now + detector.probeTimeout) :=
    Word.add_eq_ok direct
  have roundOk : Word.add now detector.drawn.probeInterval = .ok (now + detector.probeInterval) :=
    Word.add_eq_ok round
  simp only [startProbe, draw_of_fits numbered, directOk, roundOk, Attempt.ok_bind]
  refine ⟨_, rfl, ?_⟩
  simp only [SortedMap.get?_insert, if_true]

private theorem startRelay_of_fits (origin : SocketAddress) (asked : UInt64)
    (numbered : detector.next.toNat + 1 < Word.bound)
    (direct : now + detector.probeTimeout < Word.bound) :
    ∃ after, detector.startRelay origin asked target now = .ok (detector.next, after) ∧
      after.relays.get? detector.next =
        some { origin, sequence := asked, target, deadline := now + detector.probeTimeout } := by
  have directOk : Word.add now detector.drawn.probeTimeout = .ok (now + detector.probeTimeout) :=
    Word.add_eq_ok direct
  simp only [startRelay, draw_of_fits numbered, directOk, Attempt.ok_bind]
  refine ⟨_, rfl, ?_⟩
  simp only [SortedMap.get?_insert, if_true]

/-- A round that was started ends at a word. -/
private theorem lt_bound_of_startProbe {result : UInt64 × Detector}
    (started : detector.startProbe target now = .ok result) :
    now + detector.probeInterval < Word.bound := by
  unfold startProbe at started
  obtain ⟨⟨sequence, drawn⟩, drawnOk, started⟩ := Attempt.bind_eq_ok started
  obtain ⟨_, _, started⟩ := Attempt.bind_eq_ok started
  obtain ⟨_, roundOk, _⟩ := Attempt.bind_eq_ok started
  obtain ⟨rfl, rfl⟩ := draw_eq_ok drawnOk
  exact Word.lt_bound_of_add roundOk

end Detector

/-! ## Suspicions -/

/-- The timing with exact products and logarithms, and no word to hold a time. -/
noncomputable def SuspicionTiming.unbounded (options : DetectorOptions) : SuspicionTiming where
  shortest size := ⌈exactLeast options size⌉₊
  timeout size suspectors :=
    let least := exactLeast options size
    let longest := exactLongest options
    let confirmations : ℝ := (suspectors - 1 : Nat)
    let expected : ℝ := (max options.indirectProbes 1 : Nat)
    let decay := Real.log (confirmations + 1) / Real.log (expected + 1)
    ⌈max (longest - (longest - least) * decay) least⌉₊

namespace SuspicionTiming

variable {options : DetectorOptions}

/-- While the longest time is within reach, no time is held. -/
private theorem exact_eq_unbounded
    (short : options.suspicionCeiling * options.probeInterval ≤ Word.reach)
    (size suspectors : Nat) :
    (exact options).shortest size = (unbounded options).shortest size ∧
      (exact options).timeout size suspectors = (unbounded options).timeout size suspectors := by
  have heldShortest :
      (exact options).shortest size = min ((unbounded options).shortest size) Word.largest :=
    rfl
  have heldTimeout :
      (exact options).timeout size suspectors =
        min ((unbounded options).timeout size suspectors) Word.largest :=
    rfl
  have least := (shortest_le options size).trans short
  have time := (timeout_le options size suspectors).trans short
  rw [heldShortest] at least ⊢
  rw [heldTimeout] at time ⊢
  exact ⟨Word.min_largest (Word.le_reach_of_min least),
    Word.min_largest (Word.le_reach_of_min time)⟩

end SuspicionTiming

/-- When a suspicion is due, with no word to hold a time or a sum. -/
noncomputable def Detector.exactDueTime (options : DetectorOptions)
    (size startedAt lastHeard suspectors : Nat) : Nat :=
  let timing := SuspicionTiming.unbounded options
  let budget := options.suspicionCeiling * options.probeInterval - options.probeInterval
  max (min (startedAt + timing.timeout size suspectors) (lastHeard + budget))
    (startedAt + timing.shortest size)

namespace Detector

variable {detector : Detector} {options : DetectorOptions}
  {startedAt lastHeard suspectors deadline : Nat}

private theorem dueTime_eq_exactDueTime (early : lastHeard < Word.horizon)
    (short : options.suspicionCeiling * options.probeInterval ≤ Word.reach) (size : Nat) :
    dueTime options size startedAt lastHeard suspectors =
      exactDueTime options size startedAt lastHeard suspectors := by
  obtain ⟨least, time⟩ := SuspicionTiming.exact_eq_unbounded short size suspectors
  have budget :
      Word.saturatingMultiply options.suspicionCeiling options.probeInterval =
        options.suspicionCeiling * options.probeInterval :=
    Word.min_largest short
  have heard :
      Word.saturatingAdd lastHeard
          (options.suspicionCeiling * options.probeInterval - options.probeInterval) =
        lastHeard +
          (options.suspicionCeiling * options.probeInterval - options.probeInterval) := by
    have fits := Word.add_reach early ((Nat.sub_le _ options.probeInterval).trans short)
    exact Nat.min_eq_left (Nat.le_sub_one_of_lt fits)
  simp only [dueTime, exactDueTime, least, time, budget, heard]

private theorem GoesBy.suspicionDeadline_of_short (goesBy : detector.GoesBy options)
    (started : startedAt < Word.horizon) (heard : lastHeard < Word.horizon)
    (short : options.suspicionCeiling * options.probeInterval ≤ Word.reach) :
    detector.suspicionDeadline startedAt lastHeard suspectors =
      .ok (exactDueTime options detector.clusterSize startedAt lastHeard suspectors) := by
  have least : startedAt + detector.timing.shortest detector.clusterSize < Word.bound := by
    rw [goesBy.timing_eq]
    exact Word.add_reach started ((SuspicionTiming.shortest_le options _).trans short)
  have time : startedAt + detector.suspicionTimeout suspectors < Word.bound := by
    rw [suspicionTimeout, goesBy.timing_eq]
    exact Word.add_reach started ((SuspicionTiming.timeout_le options _ _).trans short)
  have computed :
      ∃ deadline, detector.suspicionDeadline startedAt lastHeard suspectors = .ok deadline := by
    simp only [Detector.suspicionDeadline, Word.add_eq_ok least, Word.add_eq_ok time,
      Attempt.ok_bind]
    exact ⟨_, rfl⟩
  obtain ⟨deadline, computed⟩ := computed
  rw [computed, goesBy.suspicionDeadline computed, dueTime_eq_exactDueTime heard short]

/-- A suspicion by one host that was given a deadline ends at a word. -/
private theorem GoesBy.lt_bound_of_suspicionDeadline (goesBy : detector.GoesBy options)
    (computed : detector.suspicionDeadline startedAt lastHeard 1 = .ok deadline) :
    startedAt + min (options.suspicionCeiling * options.probeInterval) Word.largest <
      Word.bound := by
  unfold Detector.suspicionDeadline at computed
  obtain ⟨_, _, computed⟩ := Attempt.bind_eq_ok computed
  obtain ⟨_, decayed, _⟩ := Attempt.bind_eq_ok computed
  have fits := Word.lt_bound_of_add decayed
  rwa [suspicionTimeout, goesBy.timing_eq, SuspicionTiming.timeout_one] at fits

end Detector

/-! ## Retransmissions -/

namespace Health

variable {health : Health} {most multiplier size limit : Nat}

/-- How many peers an item is sent to, in exact arithmetic. -/
def exactRetransmissions (health : Health) (most multiplier size : Nat) : Nat :=
  max (min (multiplier * max (Nat.clog 10 (size + 1)) 1) most *
    (health.ceiling - health.score) / health.ceiling) 1

/-- The number is computed exactly if it is a word at the best score in the
largest cluster. -/
private theorem retransmissions_of_best (health : Health) (someMultiplier : 1 ≤ multiplier)
    (someMost : 1 ≤ most) (half : multiplier < 2 ^ 32) (counted : size < Word.bound)
    (best : min (multiplier * 20) most * health.ceiling < Word.bound) :
    health.retransmissions most multiplier (Nat.clog 10 (size + 1)) =
      .ok (health.exactRetransmissions most multiplier size) := by
  have same :
      base most multiplier (Nat.clog 10 (size + 1)) =
        min (multiplier * max (Nat.clog 10 (size + 1)) 1) most := by
    rw [base, max_eq_left someMultiplier, max_eq_left someMost]
  have wanted : multiplier * max (Nat.clog 10 (size + 1)) 1 ≤ multiplier * 20 :=
    Nat.mul_le_mul_left multiplier (magnitude_le counted)
  have scaled :
      base most multiplier (Nat.clog 10 (size + 1)) * (health.ceiling - health.score) ≤
        min (multiplier * 20) most * health.ceiling := by
    rw [same]
    exact Nat.mul_le_mul (min_le_min_right most wanted) (Nat.sub_le _ _)
  rw [health.retransmissions_of_fits (wanted_lt half counted) (scaled.trans_lt best), reduce, same]
  rfl

/-- A number that was computed for the largest cluster was computed from words. -/
private theorem lt_bound_of_retransmissions (someMultiplier : 1 ≤ multiplier) (someMost : 1 ≤ most)
    (computed :
      health.retransmissions most multiplier (Nat.clog 10 (Word.largest + 1)) = .ok limit) :
    min (multiplier * 20) most * (health.ceiling - health.score) < Word.bound := by
  unfold retransmissions at computed
  obtain ⟨wanted, wantedOk, computed⟩ := Attempt.bind_eq_ok computed
  obtain ⟨scaled, scaledOk, _⟩ := Attempt.bind_eq_ok computed
  have fits := Word.lt_bound_of_multiply scaledOk
  rw [Word.eq_multiply_of_ok wantedOk, clog_largest, max_eq_left someMultiplier,
    max_eq_left someMost] at fits
  exact fits

end Health

/-! ## Healing -/

namespace Healing

variable {healing after : Healing} {now : Nat} {result : Bool × Healing} {peer : SocketAddress}

private theorem tick_succeeds (fits : now + healing.interval < Word.bound) :
    ∃ result, healing.tick now = .ok result := by
  cases stopped : healing.stopped with
  | true => exact ⟨_, tick_of_stopped stopped⟩
  | false => exact ⟨_, tick_of_running stopped fits⟩

private theorem lt_bound_of_tick (running : healing.stopped = false)
    (ticked : healing.tick now = .ok result) : now + healing.interval < Word.bound := by
  by_contra overflows
  rw [tick_of_overflow running (Nat.le_of_not_lt overflows)] at ticked
  cases ticked

private theorem begin_succeeds (fits : now + healing.timeout < Word.bound) :
    ∃ after, healing.begin peer now = .ok after := by
  simp only [begin, Word.add_eq_ok fits, Attempt.ok_bind]
  exact ⟨_, rfl⟩

private theorem lt_bound_of_begin (begun : healing.begin peer now = .ok after) :
    now + healing.timeout < Word.bound := by
  obtain ⟨_, added, _⟩ := Attempt.bind_eq_ok begun
  exact Word.lt_bound_of_add added

end Healing

/-! ## Joining -/

namespace Joining

variable {joining : Joining} {now : Nat}

private theorem check_succeeds (attempt : now + joining.timeout < Word.bound)
    (retry : now + joining.delay < Word.bound) :
    ∃ result, joining.check now = .ok result := by
  unfold check
  rw [Word.add_eq_ok attempt, Word.add_eq_ok retry]
  split
  · split <;> exact ⟨_, rfl⟩
  · split <;> exact ⟨_, rfl⟩
  · exact ⟨_, rfl⟩

/-- The first attempt of a join ends at a word. -/
private theorem lt_bound_of_join {own seed : SocketAddress} {options : Options} (other : seed ≠ own)
    {result : JoinStart × Joining}
    (joined : (Joining.new own options).join [seed] now = .ok result) :
    now + options.joinTimeout.toNat < Word.bound := by
  have remote : (Joining.new own options).remote [seed] ≠ [] := by
    intro none
    exact other (remote_eq_nil_iff.mp none seed List.mem_cons_self)
  rw [join_of_remote rfl rfl remote] at joined
  obtain ⟨_, added, _⟩ := Attempt.bind_eq_ok joined
  exact Word.lt_bound_of_add added

private theorem lt_bound_of_check {deadline : Nat} {result : Option JoinStep × Joining}
    (attempting : joining.phase = .attempting deadline) (late : deadline ≤ now)
    (checked : joining.check now = .ok result) : now + joining.delay < Word.bound := by
  simp only [check, attempting, if_neg (Nat.not_lt.mpr late)] at checked
  obtain ⟨_, added, _⟩ := Attempt.bind_eq_ok checked
  exact Word.lt_bound_of_add added

end Joining

/-! ## Options -/

/-- The detector goes by the options, and has a number for another round. -/
structure Detector.Serves (detector : Detector) (options : Options) : Prop extends
    detector.GoesBy options.detection where
  ceiling_eq : detector.health.ceiling = max options.healthCeiling.toNat 1
  numbered : detector.next.toNat + 1 < Word.bound

structure Joining.Serves (joining : Joining) (options : Options) : Prop where
  timeout_eq : joining.timeout = options.joinTimeout.toNat
  delay_eq : joining.delay = (Joining.new joining.own options).delay

namespace Options

variable {options : Options}

/-- Whatever state its loops are in and whatever the score and the size of the
cluster, at every instant before the horizon a host with the options computes
all deadlines and limits, and none is wrapped, cut or held at the largest
word.  Times and magnitudes are those of exact logarithms. -/
structure NeverOverflows (options : Options) : Prop where
  startProbe : ∀ (detector : Detector) (target : Endpoint) (now : Nat),
    detector.Serves options → now < Word.horizon →
      ∃ after, detector.startProbe target now = .ok (detector.next, after) ∧
        after.probes.get? detector.next =
          some
            { target
              directDeadline := now + options.probeTimeout.toNat * (detector.health.score + 1)
              roundDeadline := now + options.probeInterval.toNat * (detector.health.score + 1) }
  startRelay : ∀ (detector : Detector) (origin : SocketAddress) (asked : UInt64)
    (target : Endpoint) (now : Nat), detector.Serves options → now < Word.horizon →
      ∃ after, detector.startRelay origin asked target now = .ok (detector.next, after) ∧
        after.relays.get? detector.next =
          some
            { origin
              sequence := asked
              target
              deadline := now + options.probeTimeout.toNat * (detector.health.score + 1) }
  suspicionDeadline : ∀ (detector : Detector) (startedAt lastHeard suspectors : Nat),
    detector.Serves options → startedAt < Word.horizon → lastHeard < Word.horizon →
      detector.suspicionDeadline startedAt lastHeard suspectors =
        .ok (Detector.exactDueTime options.detection detector.clusterSize startedAt lastHeard
          suspectors)
  retransmissions : ∀ (health : Health) (size : Nat),
    health.ceiling = max options.healthCeiling.toNat 1 → size < Word.bound →
      health.retransmissions options.gossipPerEnvelope.toNat
          options.retransmitMultiplier.toNat (Nat.clog 10 (size + 1)) =
        .ok (health.exactRetransmissions options.gossipPerEnvelope.toNat
          options.retransmitMultiplier.toNat size)
  tick : ∀ (healing : Healing) (now : Nat),
    healing.interval = options.healingInterval.toNat → now < Word.horizon →
      ∃ result, healing.tick now = .ok result
  begin : ∀ (healing : Healing) (peer : SocketAddress) (now : Nat),
    healing.timeout = options.healingTimeout.toNat → now < Word.horizon →
      ∃ after, healing.begin peer now = .ok after
  delay : ∀ own, (Joining.new own options).delay = options.joinRetrySeconds.toNat * 1000
  join : ∀ (joining : Joining) (seeds : List SocketAddress) (now : Nat),
    joining.Serves options → now < Word.horizon →
      ∃ result, joining.join seeds now = .ok result
  check : ∀ (joining : Joining) (now : Nat),
    joining.Serves options → now < Word.horizon →
      ∃ result, joining.check now = .ok result

/-- Every delay leaves room for every instant before the horizon, a round also
at the worst score and a suspicion also with one suspector, and the limit of
gossip is a word at the best score in the largest cluster. -/
structure Moderate (options : Options) : Prop where
  round_le : options.probeInterval.toNat * options.healthCeiling.toNat ≤ Word.reach
  suspicion_le : options.suspicionCeiling.toNat * options.probeInterval.toNat ≤ Word.reach
  gossip_lt :
    min (options.retransmitMultiplier.toNat * 20) options.gossipPerEnvelope.toNat *
      options.healthCeiling.toNat < Word.bound
  healing_le : options.healingInterval.toNat ≤ Word.reach
  exchange_le : options.healingTimeout.toNat ≤ Word.reach
  attempt_le : options.joinTimeout.toNat ≤ Word.reach
  retry_le : options.joinRetrySeconds.toNat * 1000 ≤ Word.reach

private theorem moderate_iff :
    options.Moderate ↔
      options.probeInterval.toNat * options.healthCeiling.toNat ≤ Word.reach ∧
        options.suspicionCeiling.toNat * options.probeInterval.toNat ≤ Word.reach ∧
        min (options.retransmitMultiplier.toNat * 20) options.gossipPerEnvelope.toNat *
          options.healthCeiling.toNat < Word.bound ∧
        options.healingInterval.toNat ≤ Word.reach ∧
        options.healingTimeout.toNat ≤ Word.reach ∧
        options.joinTimeout.toNat ≤ Word.reach ∧
        options.joinRetrySeconds.toNat * 1000 ≤ Word.reach :=
  ⟨fun moderate =>
    ⟨moderate.round_le, moderate.suspicion_le, moderate.gossip_lt, moderate.healing_le,
      moderate.exchange_le, moderate.attempt_le, moderate.retry_le⟩,
    fun ⟨round, suspicion, gossip, healing, exchange, attempt, retry⟩ =>
      ⟨round, suspicion, gossip, healing, exchange, attempt, retry⟩⟩

instance (options : Options) : Decidable options.Moderate :=
  decidable_of_iff' _ moderate_iff

/-- What validation says of the numbers that are multiplied. -/
structure Sound (options : Options) : Prop where
  perEnvelope_pos : 1 ≤ options.gossipPerEnvelope.toNat
  multiplier_pos : 1 ≤ options.retransmitMultiplier.toNat
  ceiling_pos : 1 ≤ options.healthCeiling.toNat
  timeout_lt : options.probeTimeout.toNat < options.probeInterval.toNat

private theorem sound_of_validate (valid : options.validate = .ok ()) : options.Sound := by
  have holds_of_ok {holds : Bool} {fault : Fault} {checked : Unit}
      (accepted : (if holds then .ok () else .error fault : Except Fault Unit) = .ok checked) :
      holds = true := by
    cases holds with
    | true => rfl
    | false => cases accepted
  obtain ⟨_, _, checks⟩ := Attempt.bind_eq_ok valid
  obtain ⟨_, _, checks⟩ := Attempt.bind_eq_ok checks
  obtain ⟨_, _, checks⟩ := Attempt.bind_eq_ok checks
  obtain ⟨_, perEnvelope, checks⟩ := Attempt.bind_eq_ok checks
  obtain ⟨_, _, checks⟩ := Attempt.bind_eq_ok checks
  obtain ⟨_, multiplier, checks⟩ := Attempt.bind_eq_ok checks
  obtain ⟨_, ceiling, checks⟩ := Attempt.bind_eq_ok checks
  obtain ⟨_, _, checks⟩ := Attempt.bind_eq_ok checks
  obtain ⟨_, timeout, _⟩ := Attempt.bind_eq_ok checks
  have perEnvelope_ne := of_decide_eq_true (holds_of_ok perEnvelope)
  have multiplier_ne := of_decide_eq_true (holds_of_ok multiplier)
  have ceiling_ne := of_decide_eq_true (holds_of_ok ceiling)
  exact
    { perEnvelope_pos :=
        Nat.pos_of_ne_zero fun zero => perEnvelope_ne (UInt64.toNat_inj.mp zero)
      multiplier_pos := Nat.pos_of_ne_zero fun zero => multiplier_ne (UInt32.toNat_inj.mp zero)
      ceiling_pos := Nat.pos_of_ne_zero fun zero => ceiling_ne (UInt32.toNat_inj.mp zero)
      timeout_lt := UInt64.lt_iff_toNat_lt.mp (of_decide_eq_true (holds_of_ok timeout)) }

/-! ## Moderate options never overflow -/

/-- Within reach, the delay of a retry is not cut. -/
private theorem delay_eq (short : options.joinRetrySeconds.toNat * 1000 ≤ Word.reach)
    (own : SocketAddress) :
    (Joining.new own options).delay = options.joinRetrySeconds.toNat * 1000 := by
  have below : Word.reach < Word.bound := by decide
  exact Nat.mod_eq_of_lt (short.trans_lt below)

/-- Beyond reach a delay of more than five hundred million years may shrink to a
fraction of a second. -/
example (own : SocketAddress) :
    (Joining.new own { joinRetrySeconds := 18446744073709552 }).delay = 384 := by
  rfl

/-- The times of a round are exact and within reach, at every score. -/
private theorem times_of_serves {detector : Detector} (serves : detector.Serves options)
    (moderate : options.Moderate) (sound : options.Sound) :
    (detector.probeTimeout = options.probeTimeout.toNat * (detector.health.score + 1) ∧
        detector.probeTimeout ≤ Word.reach) ∧
      detector.probeInterval = options.probeInterval.toNat * (detector.health.score + 1) ∧
        detector.probeInterval ≤ Word.reach := by
  have ceiling : detector.health.ceiling = options.healthCeiling.toNat :=
    serves.ceiling_eq.trans (max_eq_left sound.ceiling_pos)
  have scaled (delay : Nat) (short : delay * options.healthCeiling.toNat ≤ Word.reach) :
      detector.health.scale delay = delay * (detector.health.score + 1) ∧
        detector.health.scale delay ≤ Word.reach := by
    rw [← ceiling] at short
    have same := Health.scale_eq short
    exact ⟨same, same ▸ (detector.health.grown_le delay).trans short⟩
  rw [Detector.probeTimeout, Detector.probeInterval, serves.options_eq]
  constructor
  · exact scaled _ ((Nat.mul_le_mul_right _ sound.timeout_lt.le).trans moderate.round_le)
  · exact scaled _ moderate.round_le

private theorem Moderate.neverOverflows (moderate : options.Moderate) (sound : options.Sound) :
    options.NeverOverflows := by
  have ceiling : max options.healthCeiling.toNat 1 = options.healthCeiling.toNat :=
    max_eq_left sound.ceiling_pos
  exact
    { startProbe := fun detector target now serves early => by
        obtain ⟨⟨timeout, timeoutShort⟩, interval, intervalShort⟩ :=
          times_of_serves serves moderate sound
        rw [← timeout, ← interval]
        exact
          Detector.startProbe_of_fits serves.numbered (Word.add_reach early timeoutShort)
            (Word.add_reach early intervalShort)
      startRelay := fun detector origin asked target now serves early => by
        obtain ⟨⟨timeout, timeoutShort⟩, _⟩ := times_of_serves serves moderate sound
        rw [← timeout]
        exact
          Detector.startRelay_of_fits origin asked serves.numbered
            (Word.add_reach early timeoutShort)
      suspicionDeadline := fun detector startedAt lastHeard suspectors serves started heard =>
        serves.toGoesBy.suspicionDeadline_of_short started heard moderate.suspicion_le
      retransmissions := fun health size worst counted => by
        apply health.retransmissions_of_best sound.multiplier_pos sound.perEnvelope_pos
          options.retransmitMultiplier.toNat_lt counted
        rw [worst, ceiling]
        exact moderate.gossip_lt
      tick := fun healing now same early =>
        Healing.tick_succeeds (Word.add_reach early (same ▸ moderate.healing_le))
      begin := fun healing peer now same early =>
        Healing.begin_succeeds (Word.add_reach early (same ▸ moderate.exchange_le))
      delay := delay_eq moderate.retry_le
      join := fun joining seeds now serves early => by
        have attempt := Word.add_reach early moderate.attempt_le
        rw [← serves.timeout_eq] at attempt
        exact Joining.join_succeeds (Or.inr (Or.inr (Or.inr attempt)))
      check := fun joining now serves early => by
        apply Joining.check_succeeds
        · rw [serves.timeout_eq]
          exact Word.add_reach early moderate.attempt_le
        · rw [serves.delay_eq, delay_eq moderate.retry_le]
          exact Word.add_reach early moderate.retry_le }

/-! ## Options that never overflow are moderate -/

/-- A detector with the options at the worst score. -/
noncomputable def worstDetector (options : Options) : Detector :=
  { Detector.new options.detection default with
    timing := SuspicionTiming.exact options.detection
    health := Health.worst options.healthCeiling.toNat }

private theorem serves_worstDetector (options : Options) :
    (worstDetector options).Serves options where
  options_eq := rfl
  timing_eq := rfl
  ceiling_eq := rfl
  numbered := by
    have first : (worstDetector options).next = 1 := rfl
    rw [first]
    decide

theorem NeverOverflows.moderate (never : options.NeverOverflows) (sound : options.Sound) :
    options.Moderate := by
  have ceiling : max options.healthCeiling.toNat 1 = options.healthCeiling.toNat :=
    max_eq_left sound.ceiling_pos
  have serves := serves_worstDetector options
  have early := Word.lastInstant_lt
  let own : SocketAddress := ⟨.v4 0, 0, 0⟩
  let idle := Joining.new own options
  exact
    { round_le := by
        obtain ⟨_, started, _⟩ := never.startProbe _ default _ serves early
        have fits := Detector.lt_bound_of_startProbe started
        have worst : (worstDetector options).health.score + 1 = options.healthCeiling.toNat :=
          (Nat.sub_add_cancel (le_max_right _ 1)).trans ceiling
        have interval :
            (worstDetector options).probeInterval =
              min (options.probeInterval.toNat * options.healthCeiling.toNat) Word.largest := by
          rw [← worst]
          rfl
        rw [interval] at fits
        exact Word.le_reach_of_min (Word.le_reach fits)
      suspicion_le := by
        have computed := never.suspicionDeadline _ _ 0 1 serves early (by decide)
        have fits := serves.toGoesBy.lt_bound_of_suspicionDeadline computed
        exact Word.le_reach_of_min (Word.le_reach fits)
      gossip_lt := by
        have computed :=
          never.retransmissions (Health.new options.healthCeiling.toNat) Word.largest rfl
            (by decide)
        have fits :=
          Health.lt_bound_of_retransmissions sound.multiplier_pos sound.perEnvelope_pos computed
        have best :
            (Health.new options.healthCeiling.toNat).ceiling -
              (Health.new options.healthCeiling.toNat).score = options.healthCeiling.toNat :=
          ceiling
        rwa [best] at fits
      healing_le := by
        obtain ⟨_, ticked⟩ := never.tick (Healing.new options) _ rfl early
        exact Word.le_reach (Healing.lt_bound_of_tick rfl ticked)
      exchange_le := by
        obtain ⟨_, begun⟩ := never.begin (Healing.new options) own _ rfl early
        exact Word.le_reach (Healing.lt_bound_of_begin begun)
      attempt_le := by
        let seed : SocketAddress := ⟨.v4 1, 0, 0⟩
        obtain ⟨_, joined⟩ := never.join idle [seed] _ ⟨rfl, rfl⟩ early
        have other : seed ≠ own := by decide
        exact Word.le_reach (Joining.lt_bound_of_join other joined)
      retry_le := by
        let late : Joining := { idle with phase := .attempting 0 }
        obtain ⟨_, checked⟩ := never.check late _ ⟨rfl, rfl⟩ early
        have fits := Joining.lt_bound_of_check rfl (Nat.zero_le _) checked
        have exactDelay : late.delay = options.joinRetrySeconds.toNat * 1000 := never.delay own
        rw [exactDelay] at fits
        exact Word.le_reach fits }

/-- To be valid is not enough: of the valid options those never overflow that are
moderate. -/
theorem neverOverflows_iff (valid : options.validate = .ok ()) :
    options.NeverOverflows ↔ options.Moderate := by
  have sound := sound_of_validate valid
  exact ⟨fun never => never.moderate sound, fun moderate => moderate.neverOverflows sound⟩

/-- The default options never overflow. -/
theorem neverOverflows_default :
    let options : Options := {}
    options.validate = .ok () ∧ options.NeverOverflows := by
  intro options
  have valid : options.validate = .ok () := by decide
  exact ⟨valid, (neverOverflows_iff valid).mpr (by decide)⟩

/-- With the largest probe interval the options are valid, yet no round can be
started after the first instant. -/
theorem startProbe_overflows :
    let options : Options := { probeInterval := 18446744073709551615 }
    options.validate = .ok () ∧
      ∀ own target,
        (Detector.new options.detection own).startProbe target 1 = .error .add := by
  intro options
  refine ⟨by decide, fun own target => ?_⟩
  let detector := Detector.new options.detection own
  have numbered : detector.next.toNat + 1 < Word.bound := by
    have first : detector.next = 1 := rfl
    rw [first]
    decide
  have direct : Word.add 1 detector.drawn.probeTimeout = .ok 501 := by
    change Word.add 1 ((Health.new 8).scale 500) = .ok 501
    decide
  have round : Word.add 1 detector.drawn.probeInterval = .error .add := by
    change Word.add 1 ((Health.new 8).scale 18446744073709551615) = .error .add
    decide
  change detector.startProbe target 1 = .error .add
  simp only [Detector.startProbe, Detector.draw_of_fits numbered, direct, round,
    Attempt.ok_bind]
  rfl

end Options

end Roster
