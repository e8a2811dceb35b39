import Roster.Proofs.Federation.Run
import Roster.Proofs.MemberList.Views

/-!
# Convergence

Once everything that was written has been drained and delivered, the lists that
run agree.  Operations took effect in different orders, and some had to wait,
but none waits any longer: by induction on Lamport numbers, whatever an
operation needs has arrived and taken effect.
-/

namespace Roster.Federation

universe u

variable {ι : Type u} {founders : ι → Founder} {federation : Federation ι}
  {member : ι} {uri : String}

/-- All outboxes are empty, and every delta that was drained has reached every
other list that runs. -/
structure Quiet (federation : Federation ι) : Prop where
  drained : ∀ member, (federation.lists member).outbox = []
  delivered : ∀ entry ∈ federation.sent, ∀ target, target ≠ entry.1 →
    (federation.lists target).stopped = false → (target, entry.2) ∈ federation.reached

/-- What has arrived at a running list has taken effect there, if all that
stands before it in its author's log has. -/
private theorem Coherent.mem_log_of_taken (coherent : Coherent founders federation)
    (distinct : DistinctReplicas founders) {author : ι} {operation : Operation}
    (own : operation.replica = (federation.lists author).store.replica)
    (held : operation ∈ (federation.lists author).log uri)
    (taken :
      operation ∈ (federation.lists member).log uri ∨
        operation ∈ ((federation.lists member).store.document uri).waiting)
    (earlierTaken :
      ∀ earlier, federation.Issued uri earlier → earlier.lamport < operation.lamport →
        earlier ∈ (federation.lists member).log uri) :
    operation ∈ (federation.lists member).log uri := by
  rcases taken with applied | waits
  · exact applied
  have issued : federation.Issued uri operation := ⟨author, own, held⟩
  have idle := (coherent.sound member).waiting_idle uri operation waits
  by_cases counted :
      operation.counter <
        (Document.versionOf ((federation.lists member).log uri)).count operation.replica
  · exact coherent.mem_log_of_counter_lt distinct issued counted
  obtain ⟨initial, later, split⟩ := List.append_of_mem held
  obtain ⟨causalInitial, ready⟩ :=
    ((coherent.sound author).ordered.causal uri).of_append split
  obtain ⟨next, seen⟩ := Document.readyAt_iff.mp ready
  have ascending := (coherent.sound author).ordered.ascending uri
  rw [split] at ascending
  have initialTaken : ∀ earlier ∈ initial, earlier ∈ (federation.lists member).log uri := by
    intro earlier inside
    apply earlierTaken
    · apply (coherent.sound author).log_issued
      rw [split]
      exact List.mem_append_left _ inside
    · exact (List.pairwise_append.mp ascending).2.2 earlier inside operation
        List.mem_cons_self own
  have counts :
      (Document.versionOf ((federation.lists member).log uri)).includes
        (Document.versionOf initial) = true := by
    rw [Version.includes_iff]
    intro replica
    exact causalInitial.count_le ((coherent.sound member).ordered.causal uri)
      fun earlier inside _ => initialTaken earlier inside
  have readyHere :
      Document.readyAt ((federation.lists member).store.document uri).version operation =
        true := by
    rw [Document.readyAt_iff, Document.version_eq]
    refine ⟨?_, Version.includes_trans counts seen⟩
    have bound := Version.includes_iff.mp counts operation.replica
    rw [← next] at bound
    exact Nat.le_antisymm bound (Nat.le_of_not_lt counted)
  rw [idle] at readyHere
  cases readyHere

/-- In a quiet federation every issued operation has taken effect at every list
that runs. -/
private theorem Coherent.mem_log_of_quiet (coherent : Coherent founders federation)
    (distinct : DistinctReplicas founders) (quiet : Quiet federation)
    (running : (federation.lists member).stopped = false) {operation : Operation}
    (issued : federation.Issued uri operation) :
    operation ∈ (federation.lists member).log uri := by
  induction lamport : operation.lamport using Nat.strongRecOn generalizing operation with
  | ind number inductionHypothesis =>
      subst lamport
      obtain ⟨author, own, held⟩ := issued
      by_cases here : author = member
      · rwa [← here]
      · obtain ⟨operations, inside, out | passed⟩ :=
          (coherent.sound author).spread uri operation held own
        · rw [quiet.drained author] at out
          exact absurd out List.not_mem_nil
        · have reached := quiet.delivered _ passed member (Ne.symm here) running
          have taken :=
            coherent.reached_taken _ reached running operations
              (Delta.ofBytes?_toBytes operations) operation inside
          exact coherent.mem_log_of_taken distinct own held taken fun earlier issuedEarlier below =>
            inductionHypothesis earlier.lamport below issuedEarlier rfl

/-- In a quiet federation the maps of all lists that run have the same
entries. -/
private theorem Coherent.entries_eq_of_quiet (coherent : Coherent founders federation)
    (distinct : DistinctReplicas founders) (quiet : Quiet federation) {left right : ι}
    (leftRunning : (federation.lists left).stopped = false)
    (rightRunning : (federation.lists right).stopped = false) (uri : String) :
    (federation.lists left).store.entries uri = (federation.lists right).store.entries uri := by
  rw [MemberList.entries_eq, MemberList.entries_eq]
  apply Document.entriesOf_eq_of_mem_iff
  · intro operation
    constructor
    · intro held
      exact coherent.mem_log_of_quiet distinct quiet rightRunning
        ((coherent.sound left).log_issued uri operation held)
    · intro held
      exact coherent.mem_log_of_quiet distinct quiet leftRunning
        ((coherent.sound right).log_issued uri operation held)
  · intro first firstHeld second secondHeld
    have authored := coherent.authored uri
    exact
      authored.eq_of_same_rank (coherent.injective_replica distinct)
        (authored.written left first firstHeld) (authored.written left second secondHeld)

variable [DecidableEq ι]

/-- Lists that write as distinct replicas agree on the members and on the
landscape whenever everything has been drained and delivered, in whatever order
and however often. -/
theorem members_landscape_converge (distinct : DistinctReplicas founders)
    (reachable : Reachable founders federation) (quiet : Quiet federation) {left right : ι}
    (leftRunning : (federation.lists left).stopped = false)
    (rightRunning : (federation.lists right).stopped = false) :
    (federation.lists left).members = (federation.lists right).members ∧
      (federation.lists left).landscape = (federation.lists right).landscape := by
  have coherent := coherent_of_reachable distinct reachable
  have sameEntries := coherent.entries_eq_of_quiet distinct quiet leftRunning rightRunning
  have sameMembers := MemberList.members_congr (sameEntries membershipUri)
  exact ⟨sameMembers, MemberList.landscape_congr sameMembers (sameEntries hostingUri)⟩

theorem members_landscape_converge_introduced :
    DistinctReplicas pair ∧ Reachable pair introduced ∧ Quiet introduced ∧
      (introduced.lists false).stopped = false ∧ (introduced.lists true).stopped = false ∧
        (introduced.lists false).members = (introduced.lists true).members ∧
          (introduced.lists false).landscape = (introduced.lists true).landscape := by
  have quiet : Quiet introduced :=
    { drained := by decide +kernel
      delivered := by decide +kernel }
  have leftRunning : (introduced.lists false).stopped = false := by
    decide +kernel
  have rightRunning : (introduced.lists true).stopped = false := by
    decide +kernel
  exact
    ⟨distinctReplicas_pair, reachable_introduced, quiet, leftRunning, rightRunning,
      members_landscape_converge distinctReplicas_pair reachable_introduced quiet leftRunning
        rightRunning⟩

end Roster.Federation
