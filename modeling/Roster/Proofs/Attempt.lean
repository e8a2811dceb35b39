import Roster.Arithmetic

/-!
# Computations that may be refused

A chain of computations succeeds exactly if each of them does, and a chain that
has succeeded is taken apart into the results of its links.
-/

namespace Roster

namespace Attempt

universe u

variable {ε : Type u} {α β : Type}

theorem ok_bind (value : α) (next : α → Except ε β) : (Except.ok value >>= next) = next value :=
  rfl

/-- A chain that has succeeded has an intermediate result. -/
theorem bind_eq_ok {attempt : Except ε α} {next : α → Except ε β} {result : β}
    (succeeded : attempt >>= next = .ok result) :
    ∃ value, attempt = .ok value ∧ next value = .ok result := by
  cases attempt with
  | ok value => exact ⟨value, rfl, succeeded⟩
  | error refusal => cases succeeded

theorem map_eq_ok {attempt : Except ε α} {change : α → β} {result : β}
    (succeeded : attempt.map change = .ok result) :
    ∃ value, attempt = .ok value ∧ change value = result := by
  cases attempt with
  | ok value => exact ⟨value, rfl, Except.ok.inj succeeded⟩
  | error refusal => cases succeeded

/-- What was seen of the result of a chain shows that the chain has succeeded. -/
theorem exists_ok_of_any {attempt : Except ε α} {seen : α → Bool}
    (checked : attempt.toOption.any seen = true) :
    ∃ value, attempt = .ok value ∧ seen value = true := by
  cases attempt with
  | ok value => exact ⟨value, rfl, checked⟩
  | error refusal => cases checked

end Attempt

/-! ## Words -/

namespace Word

variable {left right sum product : Nat}

theorem lt_bound_of_add (added : add left right = .ok sum) : left + right < bound := by
  unfold add at added
  split at added
  · assumption
  · cases added

/-- A sum that fits is the exact one. -/
theorem eq_add_of_ok (added : add left right = .ok sum) : sum = left + right := by
  rw [add_eq_ok (lt_bound_of_add added)] at added
  exact (Except.ok.inj added).symm

theorem lt_bound_of_multiply (multiplied : multiply left right = .ok product) :
    left * right < bound := by
  unfold multiply at multiplied
  split at multiplied
  · assumption
  · cases multiplied

/-- A product that fits is the exact one. -/
theorem eq_multiply_of_ok (multiplied : multiply left right = .ok product) :
    product = left * right := by
  rw [multiply_eq_ok (lt_bound_of_multiply multiplied)] at multiplied
  exact (Except.ok.inj multiplied).symm

end Word

end Roster
