import Mathlib.Analysis.SpecialFunctions.Log.Base
import Roster.Detector

/-!
# Exact timing of suspicions

The timing of suspicions with exact products and logarithms.  A time is a
word, so one that no word can count is held at the largest word.

The shortest time never falls below what it is for a small cluster: the
timeout of a probe times the multiplier, and no more than the longest time.
-/

namespace Roster

namespace SuspicionTiming

/-- The next word that is not below a number, or the largest word. -/
noncomputable def nextWord (value : ℝ) : Nat :=
  min ⌈value⌉₊ Word.largest

noncomputable def exactLongest (options : DetectorOptions) : ℝ :=
  options.suspicionCeiling * options.probeInterval

noncomputable def exactLeast (options : DetectorOptions) (size : Nat) : ℝ :=
  let scale := max (Real.logb 10 (size + 1)) 1
  min (options.probeTimeout * options.suspicionMultiplier * scale) (exactLongest options)

noncomputable def exact (options : DetectorOptions) : SuspicionTiming where
  shortest size := nextWord (exactLeast options size)
  timeout size suspectors :=
    let least := exactLeast options size
    let longest := exactLongest options
    let confirmations : ℝ := (suspectors - 1 : Nat)
    let expected : ℝ := (max options.indirectProbes 1 : Nat)
    let decay := Real.log (confirmations + 1) / Real.log (expected + 1)
    nextWord (max (longest - (longest - least) * decay) least)

/-- The time that passes before any verdict: the timeout of a probe times the
multiplier, but no more than the longest time. -/
def floor (options : DetectorOptions) : Nat :=
  min (options.suspicionMultiplier * options.probeTimeout)
    (options.suspicionCeiling * options.probeInterval)

variable {options : DetectorOptions}

theorem nextWord_natCast (value : Nat) : nextWord value = min value Word.largest := by
  rw [nextWord, Nat.ceil_natCast]

theorem nextWord_mono {lower upper : ℝ} (below : lower ≤ upper) :
    nextWord lower ≤ nextWord upper :=
  min_le_min_right _ (Nat.ceil_mono below)

private theorem floor_le_exactLeast (options : DetectorOptions) (size : Nat) :
    (floor options : ℝ) ≤ exactLeast options size := by
  have scaled :
      ((options.suspicionMultiplier * options.probeTimeout : Nat) : ℝ) ≤
        options.probeTimeout * options.suspicionMultiplier *
          max (Real.logb 10 (size + 1)) 1 := by
    rw [Nat.mul_comm, Nat.cast_mul]
    exact le_mul_of_one_le_right (by positivity) (le_max_right _ _)
  rw [floor, Nat.cast_min, exactLeast]
  refine min_le_min scaled ?_
  rw [Nat.cast_mul, exactLongest]

/-- No suspicion is shorter than the floor, or the largest word. -/
theorem floor_le_shortest (options : DetectorOptions) (size : Nat) :
    min (floor options) Word.largest ≤ (exact options).shortest size := by
  rw [← nextWord_natCast]
  exact nextWord_mono (floor_le_exactLeast options size)

/-- While there are few members the scale is one. -/
theorem exactLeast_of_le {size : Nat} (few : size ≤ 9) :
    exactLeast options size = floor options := by
  have scale : max (Real.logb 10 (size + 1)) 1 = 1 := by
    refine max_eq_right ?_
    rw [Real.logb_le_iff_le_rpow (by norm_num) (by positivity), Real.rpow_one]
    have within : (size : ℝ) ≤ 9 := by
      exact_mod_cast few
    linarith
  simp only [exactLeast, scale, mul_one, floor, exactLongest, Nat.cast_min, Nat.cast_mul]
  rw [mul_comm (options.probeTimeout : ℝ)]

theorem shortest_of_le {size : Nat} (few : size ≤ 9) :
    (exact options).shortest size = min (floor options) Word.largest := by
  simp only [exact, exactLeast_of_le few, nextWord_natCast]

/-- A suspicion by one host lasts longest. -/
theorem timeout_one (options : DetectorOptions) (size : Nat) :
    (exact options).timeout size 1 =
      min (options.suspicionCeiling * options.probeInterval) Word.largest := by
  have undecayed : exactLeast options size ≤ exactLongest options :=
    min_le_right _ _
  rw [← nextWord_natCast, Nat.cast_mul, ← exactLongest]
  simp [exact, max_eq_left undecayed]

/-! ## The longest time, and further suspectors -/

private theorem exactLeast_le_exactLongest (options : DetectorOptions) (size : Nat) :
    exactLeast options size ≤ exactLongest options :=
  min_le_right _ _

private theorem nextWord_exactLongest_le (options : DetectorOptions) :
    nextWord (exactLongest options) ≤ options.suspicionCeiling * options.probeInterval := by
  rw [exactLongest, ← Nat.cast_mul, nextWord_natCast]
  exact min_le_left _ _

/-- No shortest time is longer than the longest. -/
theorem shortest_le (options : DetectorOptions) (size : Nat) :
    (exact options).shortest size ≤ options.suspicionCeiling * options.probeInterval :=
  (nextWord_mono (exactLeast_le_exactLongest options size)).trans
    (nextWord_exactLongest_le options)

/-- The more hosts suspect a member, the sooner its suspicion ends. -/
theorem timeout_antitone {size fewer more : Nat} (further : fewer ≤ more) :
    (exact options).timeout size more ≤ (exact options).timeout size fewer := by
  have confirmations : ((fewer - 1 : Nat) : ℝ) ≤ ((more - 1 : Nat) : ℝ) := by
    exact_mod_cast Nat.sub_le_sub_right further 1
  have expected : (0 : ℝ) ≤ Real.log ((max options.indirectProbes 1 : Nat) + 1) :=
    Real.log_nonneg (by norm_num)
  have decay :
      Real.log ((fewer - 1 : Nat) + 1) / Real.log ((max options.indirectProbes 1 : Nat) + 1) ≤
        Real.log ((more - 1 : Nat) + 1) / Real.log ((max options.indirectProbes 1 : Nat) + 1) := by
    have grows : Real.log ((fewer - 1 : Nat) + 1) ≤ Real.log ((more - 1 : Nat) + 1) :=
      Real.log_le_log (by positivity) (by linarith)
    exact div_le_div_of_nonneg_right grows expected
  have spread : 0 ≤ exactLongest options - exactLeast options size :=
    sub_nonneg.mpr (exactLeast_le_exactLongest options size)
  refine nextWord_mono (max_le_max ?_ le_rfl)
  exact sub_le_sub_left (mul_le_mul_of_nonneg_left decay spread) _

/-- However many hosts suspect a member, its suspicion ends by the longest time. -/
theorem timeout_le (options : DetectorOptions) (size suspectors : Nat) :
    (exact options).timeout size suspectors ≤
      options.suspicionCeiling * options.probeInterval := by
  rcases Nat.eq_zero_or_pos suspectors with rfl | some
  · have same : (exact options).timeout size 0 = (exact options).timeout size 1 := rfl
    rw [same, timeout_one]
    exact min_le_left _ _
  · refine (timeout_antitone some).trans ?_
    rw [timeout_one]
    exact min_le_left _ _

end SuspicionTiming

end Roster
