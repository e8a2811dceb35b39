import Roster.Options
import Roster.Arithmetic

/-!
# How long a suspicion lasts

By the options of failure detection, the `DetectorConfig`, a suspicion by one
host lasts longest: the ceiling of the suspicion times the probe interval.
Every further host that confirms it shortens it, on a logarithmic scale, down
to a shortest time that grows with the logarithm of the cluster's size.
-/

namespace Roster

structure DetectorOptions where
  probeInterval : Nat
  probeTimeout : Nat
  indirectProbes : Nat
  suspicionMultiplier : Nat
  suspicionCeiling : Nat
  healthCeiling : Nat
  deriving DecidableEq, Repr

/-- Those of the options of a host that concern failure detection. -/
def Options.detection (options : Options) : DetectorOptions :=
  { probeInterval := options.probeInterval.toNat
    probeTimeout := options.probeTimeout.toNat
    indirectProbes := options.indirectProbes.toNat
    suspicionMultiplier := options.suspicionMultiplier.toNat
    suspicionCeiling := options.suspicionCeiling.toNat
    healthCeiling := options.healthCeiling.toNat }

/-- The shortest time of a suspicion by the size of the cluster, and its time
by size and number of suspectors. -/
structure SuspicionTiming where
  shortest : Nat → Nat
  timeout : Nat → Nat → Nat

namespace SuspicionTiming

def measure (word : Nat) : Float :=
  (UInt64.ofNat word).toFloat

/-- The next word that is not below a floating-point number. -/
def roundUp (value : Float) : Nat :=
  value.ceil.toUInt64.toNat

def longest (options : DetectorOptions) : Float :=
  measure options.suspicionCeiling * measure options.probeInterval

def least (options : DetectorOptions) (size : Nat) : Float :=
  let scale := max (measure size + 1.0).log10 1.0
  min (measure options.probeTimeout * measure options.suspicionMultiplier * scale)
    (longest options)

/-- The timing as computed in floating point. -/
def measured (options : DetectorOptions) : SuspicionTiming where
  shortest size := roundUp (least options size)
  timeout size suspectors :=
    let least := least options size
    let longest := longest options
    let confirmations := measure (suspectors - 1)
    let expected := measure (max options.indirectProbes 1)
    let decay := (confirmations + 1.0).log / (expected + 1.0).log
    roundUp (max (longest - (longest - least) * decay) least)

end SuspicionTiming

end Roster
