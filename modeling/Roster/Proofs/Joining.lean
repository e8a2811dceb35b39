import Roster.Joining
import Roster.Proofs.Attempt
import Roster.Proofs.SortedMap

/-!
# The join loop

What a request to join comes to depends on whether the loop was stopped, is
pending, or neither.  Only an answer or a stop ends an attempt; the passing of
time leaves the loop pending if it was.
-/

namespace Roster

namespace Joining

variable {joining after : Joining} {seeds : List SocketAddress} {now : Nat}

/-! ## Whether it is pending -/

theorem fst_respond (joining : Joining) : joining.respond.1 = joining.isPending := by
  unfold respond
  split
  · rename_i pending
    exact pending.symm
  · rename_i idle
    exact (Bool.not_eq_true _ ▸ idle).symm

/-- An attempt that is not answered is followed by its retry, and a retry by an
attempt. -/
theorem isPending_check {made : Option JoinStep}
    (checked : joining.check now = .ok (made, after)) : after.isPending = joining.isPending := by
  unfold check at checked
  split at checked
  · rename_i deadline attempting
    split at checked
    · cases checked
      rfl
    · obtain ⟨retryAt, _, returned⟩ := Attempt.bind_eq_ok checked
      cases returned
      rw [isPending, isPending, attempting]
  · rename_i retryAt waiting
    split at checked
    · cases checked
      rfl
    · obtain ⟨deadline, _, returned⟩ := Attempt.bind_eq_ok checked
      cases returned
      rw [isPending, isPending, waiting]
  · cases checked
    rfl

/-! ## Asking to join -/

def remote (joining : Joining) (seeds : List SocketAddress) : List SocketAddress :=
  (SortedSet.ofList (seeds.filter (· ≠ joining.own))).keys

theorem remote_eq_nil_iff : joining.remote seeds = [] ↔ ∀ seed ∈ seeds, seed = joining.own := by
  rw [remote, List.eq_nil_iff_forall_not_mem]
  simp only [SortedMap.mem_keys_iff, SortedSet.contains_ofList, List.mem_filter]
  simp

theorem join_of_isStopped (stopped : joining.isStopped = true) :
    joining.join seeds now = .ok (.stopped, joining) := by
  rw [join, if_pos stopped]
  rfl

def heard (joining : Joining) (seeds : List SocketAddress) : Joining :=
  { joining with seeds := (joining.remote seeds).foldl SortedSet.add joining.seeds }

theorem isPending_heard (joining : Joining) (seeds : List SocketAddress) :
    (joining.heard seeds).isPending = joining.isPending := by
  simp only [isPending, heard]

/-- The request has to wait: its attempt is shared or begins. -/
def Awaits (start : JoinStart) : Prop :=
  start = .coalesced ∨ ∃ contacted, start = .contact contacted

theorem join_of_running (running : joining.isStopped = false) :
    joining.join seeds now =
      let fresh := (joining.remote seeds).filter fun seed => !joining.seeds.contains seed
      if joining.isPending then
        .ok (if fresh.isEmpty then .coalesced else .contact fresh, joining.heard seeds)
      else if (joining.remote seeds).isEmpty then
        .ok (.complete, joining.heard seeds)
      else do
        let deadline ← Word.add now joining.timeout
        return (.contact (joining.remote seeds),
          { joining.heard seeds with phase := .attempting deadline }) := by
  rw [join, if_neg (by simp [running])]
  rfl

theorem join_of_isPending (running : joining.isStopped = false)
    (pending : joining.isPending = true) :
    ∃ start, joining.join seeds now = .ok (start, joining.heard seeds) ∧ Awaits start := by
  rw [join_of_running running]
  simp only [pending, if_true]
  refine ⟨_, rfl, ?_⟩
  split
  · exact Or.inl rfl
  · exact Or.inr ⟨_, rfl⟩

theorem join_of_remote_nil (running : joining.isStopped = false)
    (idle : joining.isPending = false) (alone : joining.remote seeds = []) :
    joining.join seeds now = .ok (.complete, joining.heard seeds) := by
  rw [join_of_running running]
  simp [idle, alone]

theorem join_of_remote (running : joining.isStopped = false)
    (idle : joining.isPending = false) (remote : joining.remote seeds ≠ []) :
    joining.join seeds now = do
      let deadline ← Word.add now joining.timeout
      return (.contact (joining.remote seeds),
        { joining.heard seeds with phase := .attempting deadline }) := by
  rw [join_of_running running]
  simp [idle, remote]

/-- Only the deadline of a new attempt may not fit a word. -/
theorem join_succeeds
    (fits : joining.isStopped = true ∨ joining.isPending = true ∨
      (∀ seed ∈ seeds, seed = joining.own) ∨ now + joining.timeout < Word.bound) :
    ∃ started, joining.join seeds now = .ok started := by
  by_cases stopped : joining.isStopped = true
  · exact ⟨_, join_of_isStopped stopped⟩
  have running : joining.isStopped = false := Bool.not_eq_true _ ▸ stopped
  by_cases pending : joining.isPending = true
  · obtain ⟨start, joined, _⟩ := join_of_isPending running pending
    exact ⟨_, joined⟩
  have idle : joining.isPending = false := Bool.not_eq_true _ ▸ pending
  by_cases alone : joining.remote seeds = []
  · exact ⟨_, join_of_remote_nil running idle alone⟩
  · have early : now + joining.timeout < Word.bound :=
      ((fits.resolve_left stopped).resolve_left pending).resolve_left
        fun own => alone (remote_eq_nil_iff.mpr own)
    rw [join_of_remote running idle alone, Word.add_eq_ok early]
    exact ⟨_, rfl⟩

end Joining

end Roster
