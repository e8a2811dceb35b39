import Mathlib.Analysis.SpecialFunctions.Log.Base
import Roster.Health
import Roster.Proofs.Attempt

/-!
# The limit of retransmissions

A healthy process sends an item to a base of peers, and one with a higher score
to fewer.  Whatever magnitude was measured of a cluster, the limit is at least one
and at most the most that is wanted, and each argument moves it one way only.

With exact logarithms a magnitude is the number of decimal digits of the cluster's
size, and the limit is known exactly.
-/

namespace Roster

namespace Health

variable {ceiling most multiplier magnitude size limit peers smaller larger : Nat}
  {health worse : Health}

/-! ## Scores -/

/-- What the health of a new process becomes as its probes fail or succeed. -/
inductive Reached (ceiling : Nat) : Health → Prop where
  | new : Reached ceiling (Health.new ceiling)
  | fail {health : Health} (reached : Reached ceiling health) : Reached ceiling health.fail
  | succeed {health : Health} (reached : Reached ceiling health) :
      Reached ceiling health.succeed

theorem Reached.ceiling_eq (reached : Reached ceiling health) :
    health.ceiling = max ceiling 1 := by
  induction reached with
  | new => rfl
  | fail _ inductionHypothesis => exact inductionHypothesis
  | succeed _ inductionHypothesis => exact inductionHypothesis

/-! ## Magnitudes -/

noncomputable def exactMagnitude (size : Nat) : Nat :=
  ⌈Real.logb (10 : Nat) (size + 1 : Nat)⌉₊

theorem exactMagnitude_eq (size : Nat) : exactMagnitude size = Nat.clog 10 (size + 1) :=
  Real.natCeil_logb_natCast 10 (size + 1)

private theorem exactMagnitude_mono (below : smaller ≤ larger) :
    exactMagnitude smaller ≤ exactMagnitude larger := by
  rw [exactMagnitude_eq, exactMagnitude_eq]
  exact Nat.clog_mono_right 10 (Nat.succ_le_succ below)

/-- The magnitude that counts is the number of decimal digits of the size: the least
one, from one on, whose power of ten is above the size. -/
private theorem isLeast_magnitude (size : Nat) :
    IsLeast {digits | 1 ≤ digits ∧ size + 1 ≤ 10 ^ digits} (max (exactMagnitude size) 1) := by
  have tens : 1 < 10 := by decide
  rw [exactMagnitude_eq]
  constructor
  · exact ⟨le_max_right _ _, (Nat.clog_le_iff_le_pow tens).mp (le_max_left _ _)⟩
  · rintro digits ⟨some, enough⟩
    exact max_le ((Nat.clog_le_iff_le_pow tens).mpr enough) some

/-- The magnitude of the largest cluster that a word counts. -/
theorem clog_largest : Nat.clog 10 (Word.largest + 1) = 20 := by
  decide

theorem magnitude_le (counted : size < Word.bound) : max (Nat.clog 10 (size + 1)) 1 ≤ 20 := by
  have within : size + 1 ≤ Word.largest + 1 := Nat.succ_le_succ (Nat.le_sub_one_of_lt counted)
  have monotone := Nat.clog_mono_right 10 within
  rw [clog_largest] at monotone
  exact max_le monotone (by decide)

/-- A multiplier of half a word times the magnitude of any cluster is a word. -/
theorem wanted_lt (half : multiplier < 2 ^ 32) (counted : size < Word.bound) :
    max multiplier 1 * max (Nat.clog 10 (size + 1)) 1 < Word.bound := by
  have halved : max multiplier 1 ≤ 2 ^ 32 := max_le half.le (by decide)
  exact (Nat.mul_le_mul halved (magnitude_le counted)).trans_lt (by decide)

/-! ## The base -/

/-- How many peers a healthy process sends an item to. -/
def base (most multiplier magnitude : Nat) : Nat :=
  min (max multiplier 1 * max magnitude 1) (max most 1)

private theorem one_le_base (most multiplier magnitude : Nat) :
    1 ≤ base most multiplier magnitude :=
  le_min (Nat.mul_pos (le_max_right _ 1) (le_max_right _ 1)) (le_max_right _ 1)

private theorem base_le (most multiplier magnitude : Nat) :
    base most multiplier magnitude ≤ max most 1 :=
  min_le_right _ _

private theorem base_mono {fewer rarer : Nat} (most_le : fewer ≤ most)
    (multiplier_le : rarer ≤ multiplier) (magnitude_le : smaller ≤ magnitude) :
    base fewer rarer smaller ≤ base most multiplier magnitude :=
  min_le_min
    (Nat.mul_le_mul (max_le_max_right 1 multiplier_le) (max_le_max_right 1 magnitude_le))
    (max_le_max_right 1 most_le)

/-! ## The reduction -/

/-- A number of peers that is reduced linearly as the score rises, and never below one. -/
def reduce (health : Health) (peers : Nat) : Nat :=
  max (peers * (health.ceiling - health.score) / health.ceiling) 1

private theorem one_le_reduce (health : Health) (peers : Nat) : 1 ≤ health.reduce peers :=
  le_max_right _ _

private theorem reduce_le (health : Health) (some : 1 ≤ peers) : health.reduce peers ≤ peers := by
  have linear : peers * (health.ceiling - health.score) ≤ health.ceiling * peers := by
    rw [Nat.mul_comm health.ceiling]
    exact Nat.mul_le_mul_left peers (Nat.sub_le _ _)
  exact max_le (Nat.div_le_of_le_mul linear) some

private theorem reduce_of_healthy (healthy : health.score = 0) (some : 1 ≤ peers) :
    health.reduce peers = peers := by
  have positive : 0 < health.ceiling := Nat.zero_lt_of_lt health.score_lt
  rw [reduce, healthy, Nat.sub_zero, Nat.mul_div_cancel peers positive]
  exact max_eq_left some

/-- Fewer peers at a score that is no lower come to a smaller product. -/
private theorem scaled_le (sameCeiling : worse.ceiling = health.ceiling)
    (score_le : health.score ≤ worse.score) (below : smaller ≤ peers) :
    smaller * (worse.ceiling - worse.score) ≤ peers * (health.ceiling - health.score) := by
  rw [sameCeiling]
  exact Nat.mul_le_mul below (Nat.sub_le_sub_left score_le health.ceiling)

private theorem reduce_mono (sameCeiling : worse.ceiling = health.ceiling)
    (score_le : health.score ≤ worse.score) (below : smaller ≤ peers) :
    worse.reduce smaller ≤ health.reduce peers := by
  have scaled := scaled_le sameCeiling score_le below
  unfold reduce
  rw [sameCeiling] at scaled ⊢
  exact max_le_max_right 1 (Nat.div_le_div_right scaled)

/-! ## The limit -/

/-- Where both products are words, the number is that of exact arithmetic. -/
theorem retransmissions_of_fits (health : Health)
    (wanted : max multiplier 1 * max magnitude 1 < Word.bound)
    (scaled : base most multiplier magnitude * (health.ceiling - health.score) < Word.bound) :
    health.retransmissions most multiplier magnitude =
      .ok (health.reduce (base most multiplier magnitude)) := by
  unfold base at scaled
  simp only [retransmissions, Word.multiply_eq_ok wanted, Word.multiply_eq_ok scaled,
    Attempt.ok_bind]
  rfl

private theorem eq_reduce_of_ok
    (computed : health.retransmissions most multiplier magnitude = .ok limit) :
    limit = health.reduce (base most multiplier magnitude) := by
  unfold retransmissions at computed
  obtain ⟨wanted, wantedOk, computed⟩ := Attempt.bind_eq_ok computed
  obtain ⟨scaled, scaledOk, same⟩ := Attempt.bind_eq_ok computed
  cases same
  rw [Word.eq_multiply_of_ok scaledOk, Word.eq_multiply_of_ok wantedOk]
  rfl

/-- Whatever magnitude was measured, the limit is neither zero nor above the most. -/
theorem limit_bounds
    (computed : health.retransmissions most multiplier magnitude = .ok limit) :
    1 ≤ limit ∧ limit ≤ max most 1 := by
  rw [eq_reduce_of_ok computed]
  exact
    ⟨one_le_reduce _ _,
      (reduce_le health (one_le_base _ _ _)).trans (base_le _ _ _)⟩

/-- A health that a new one has come to has a limit wherever the base times what the
score leaves of the ceiling is a word.  It is at least one and at most the most.  At a
score that is no lower, arguments that are no larger have a limit too, which is no
higher.  At score zero it is the multiplier times the digits, cut to the most. -/
theorem retransmissions_bounded_monotone_exact (reached : Reached ceiling health)
    (half : multiplier < 2 ^ 32) (counted : size < Word.bound)
    (fits :
      base most multiplier (exactMagnitude size) * (health.ceiling - health.score) <
        Word.bound) :
    ∃ limit, health.retransmissions most multiplier (exactMagnitude size) = .ok limit ∧
      1 ≤ limit ∧ limit ≤ max 1 most ∧
      (∀ {worse : Health} {fewer rarer smaller : Nat}, Reached ceiling worse →
        health.score ≤ worse.score → fewer ≤ most → rarer ≤ multiplier → smaller ≤ size →
          ∃ lower, worse.retransmissions fewer rarer (exactMagnitude smaller) = .ok lower ∧
            lower ≤ limit) ∧
      (health.score = 0 →
        ∃ digits, IsLeast {digits | 1 ≤ digits ∧ size + 1 ≤ 10 ^ digits} digits ∧
          limit = min (max 1 most) (max 1 multiplier * digits)) := by
  have wanted : max multiplier 1 * max (exactMagnitude size) 1 < Word.bound := by
    rw [exactMagnitude_eq]
    exact wanted_lt half counted
  have computed := health.retransmissions_of_fits wanted fits
  obtain ⟨one_le, limit_le⟩ := limit_bounds computed
  refine ⟨_, computed, one_le, max_comm 1 most ▸ limit_le, ?_, fun healthy => ?_⟩
  · intro worse fewer rarer smaller reachedWorse score_le most_le multiplier_le size_le
    have sameCeiling : worse.ceiling = health.ceiling :=
      reachedWorse.ceiling_eq.trans reached.ceiling_eq.symm
    have below := base_mono most_le multiplier_le (exactMagnitude_mono size_le)
    have lowerWanted : max rarer 1 * max (exactMagnitude smaller) 1 < Word.bound := by
      rw [exactMagnitude_eq]
      exact wanted_lt (multiplier_le.trans_lt half) (size_le.trans_lt counted)
    have lowerFits := (scaled_le sameCeiling score_le below).trans_lt fits
    exact
      ⟨_, worse.retransmissions_of_fits lowerWanted lowerFits,
        reduce_mono sameCeiling score_le below⟩
  · refine ⟨max (exactMagnitude size) 1, isLeast_magnitude size, ?_⟩
    rw [reduce_of_healthy healthy (one_le_base _ _ _), base, min_comm, max_comm most,
      max_comm multiplier]

/-- Ninety-nine is the largest size of two digits: a healthy process sends to eight
peers, and to no more of them after a probe has failed. -/
theorem retransmissions_of_ninety_nine :
    let health := Health.new 8
    Reached 8 health ∧ 4 < 2 ^ 32 ∧ 99 < Word.bound ∧
      base 16 4 (exactMagnitude 99) * (health.ceiling - health.score) < Word.bound ∧
      health.retransmissions 16 4 (exactMagnitude 99) = .ok 8 ∧
      ∃ lower, health.fail.retransmissions 16 4 (exactMagnitude 99) = .ok lower ∧
        1 ≤ lower ∧ lower ≤ 8 := by
  intro health
  have two : exactMagnitude 99 = 2 := by
    rw [exactMagnitude_eq]
    decide
  have half : 4 < 2 ^ 32 := by decide
  have counted : 99 < Word.bound := by decide
  have fits :
      base 16 4 (exactMagnitude 99) * (health.ceiling - health.score) < Word.bound := by
    rw [two]
    decide
  obtain ⟨limit, computed, _, _, lessens, exact⟩ :=
    retransmissions_bounded_monotone_exact .new half counted fits
  obtain ⟨digits, least, same⟩ := exact rfl
  have eight : limit = 8 := by
    rw [same, least.unique (isLeast_magnitude 99), two]
    decide
  obtain ⟨lower, lowered, lower_le⟩ :=
    lessens (.fail .new) (Nat.zero_le _) le_rfl le_rfl le_rfl
  rw [eight] at computed lower_le
  exact
    ⟨.new, half, counted, fits, computed, lower, lowered, (limit_bounds lowered).1, lower_le⟩

end Health

end Roster
