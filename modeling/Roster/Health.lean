import Roster.Arithmetic

/-!
# The health score

This is the awareness of a process, its `Awareness`: it raises its score when
its own probes fail, for then it may be the slow one, and lowers it on every
success.  Timeouts grow with the score and retransmissions shrink with it.
-/

namespace Roster

/-- A score below a ceiling; zero is healthy. -/
structure Health where
  score : Nat
  ceiling : Nat
  score_lt : score < ceiling
  deriving Repr

namespace Health

/-- A healthy process whose score stays below `ceiling`, or below one. -/
def new (ceiling : Nat) : Health :=
  { score := 0
    ceiling := max ceiling 1
    score_lt := by omega }

def fail (health : Health) : Health :=
  { score := min (health.score + 1) (health.ceiling - 1)
    ceiling := health.ceiling
    score_lt := by
      have := health.score_lt
      omega }

def succeed (health : Health) : Health :=
  { score := health.score - 1
    ceiling := health.ceiling
    score_lt := by
      have := health.score_lt
      omega }

def isHealthy (health : Health) : Bool :=
  health.score == 0

/-- A delay that grows with the score, held at the largest word. -/
def scale (health : Health) (delay : Nat) : Nat :=
  Word.saturatingMultiply delay (health.score + 1)

/-- How many distinct peers one gossip item is sent to.

For a cluster whose size has `magnitude` as its rounded-up decimal logarithm
the base is `multiplier * magnitude`, at most `most`; it is reduced linearly as
the score rises, and never below one. -/
def retransmissions (health : Health) (most multiplier magnitude : Nat) :
    Except Overflow Nat := do
  let wanted ← Word.multiply (max multiplier 1) (max magnitude 1)
  let base := min wanted (max most 1)
  let scaled ← Word.multiply base (health.ceiling - health.score)
  return max (scaled / health.ceiling) 1

/-- The decimal logarithm of one more than a cluster's size, rounded up, as
computed in floating point. -/
def magnitude (size : Nat) : Nat :=
  (((UInt64.ofNat size).toFloat + 1.0).log10.ceil).toUInt64.toNat

end Health

end Roster
