/-!
# Arithmetic on words that refuses to wrap

Counters, delays and instants are words of 64 bits.  They are carried as
natural numbers below `Word.bound`; an operation whose exact result is not
below the bound is refused with the operation that overflowed, or held at the
largest word where the rule is to saturate.
-/

namespace Roster

/-- The operation whose exact result does not fit in a word. -/
inductive Overflow where
  | add
  | multiply
  deriving DecidableEq, Repr

def Overflow.message : Overflow → String
  | .add => "attempt to add with overflow"
  | .multiply => "attempt to multiply with overflow"

namespace Word

/-- The first number that no longer fits in a word. -/
def bound : Nat :=
  UInt64.size

def largest : Nat :=
  bound - 1

/-- The exact sum, if it is a word. -/
def add (left right : Nat) : Except Overflow Nat :=
  if left + right < bound then
    .ok (left + right)
  else
    .error .add

def multiply (left right : Nat) : Except Overflow Nat :=
  if left * right < bound then
    .ok (left * right)
  else
    .error .multiply

/-- The sum, held at the largest word. -/
def saturatingAdd (left right : Nat) : Nat :=
  min (left + right) largest

def saturatingMultiply (left right : Nat) : Nat :=
  min (left * right) largest

theorem add_eq_ok {left right : Nat} (fits : left + right < bound) :
    add left right = .ok (left + right) := by
  simp [add, fits]

theorem add_eq_error {left right : Nat} (overflows : bound ≤ left + right) :
    add left right = .error .add := by
  simp [add, Nat.not_lt.mpr overflows]

theorem multiply_eq_ok {left right : Nat} (fits : left * right < bound) :
    multiply left right = .ok (left * right) := by
  simp [multiply, fits]

end Word

end Roster
