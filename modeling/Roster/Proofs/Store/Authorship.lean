import Roster.Proofs.Store.Document

/-!
# Logs that share their operations

Several replicas keep logs of one document.  Every operation in a log is in
the log of the replica that wrote it.  Then an operation is determined by its
replica and its counter wherever it stands, and whatever the version of a log
counts is in the log.
-/

namespace Roster.Document

universe u

variable {ι : Type u} {replica : ι → ReplicaId} {log : ι → List Operation}

/-- The operation is in the log of the one who wrote it. -/
def Written (replica : ι → ReplicaId) (log : ι → List Operation) (operation : Operation) :
    Prop :=
  ∃ author, operation.replica = replica author ∧ operation ∈ log author

/-- Every log is causal, the operations of its replica are later than all
before them, and all operations are in the logs of those who wrote them. -/
structure Authored (replica : ι → ReplicaId) (log : ι → List Operation) : Prop where
  causal : ∀ member, Causal (log member)
  ascending : ∀ member, Ascending (replica member) (log member)
  written : ∀ member, ∀ operation ∈ log member, Written replica log operation

theorem Written.mono {after : ι → List Operation} {operation : Operation}
    (grown : ∀ member, ∀ operation ∈ log member, operation ∈ after member)
    (written : Written replica log operation) : Written replica after operation := by
  obtain ⟨author, own, member⟩ := written
  exact ⟨author, own, grown author operation member⟩

namespace Authored

variable {operation : Operation} {member : ι}

theorem mem_of_own (distinct : Function.Injective replica)
    (written : Written replica log operation) (own : operation.replica = replica member) :
    operation ∈ log member := by
  obtain ⟨author, ownAuthor, held⟩ := written
  rwa [← distinct (ownAuthor.symm.trans own)]

theorem eq_of_same_identity (authored : Authored replica log)
    (distinct : Function.Injective replica) {left right : Operation}
    (leftWritten : Written replica log left) (rightWritten : Written replica log right)
    (sameReplica : left.replica = right.replica) (sameCounter : left.counter = right.counter) :
    left = right := by
  obtain ⟨author, own, leftHeld⟩ := leftWritten
  have rightHeld := mem_of_own distinct rightWritten (sameReplica.symm.trans own)
  exact (authored.causal author).eq_of_same_identity leftHeld rightHeld sameReplica sameCounter

theorem eq_of_same_rank (authored : Authored replica log)
    (distinct : Function.Injective replica) {left right : Operation}
    (leftWritten : Written replica log left) (rightWritten : Written replica log right)
    (sameLamport : left.lamport = right.lamport) (sameReplica : left.replica = right.replica) :
    left = right := by
  obtain ⟨author, own, leftHeld⟩ := leftWritten
  have rightOwn := sameReplica.symm.trans own
  have rightHeld := mem_of_own distinct rightWritten rightOwn
  exact (authored.ascending author).eq_of_same_lamport leftHeld rightHeld own rightOwn sameLamport

/-- What the version of a log counts is there, if it was written. -/
theorem mem_of_counter_lt (authored : Authored replica log)
    (distinct : Function.Injective replica) {held : List Operation} (causal : Causal held)
    (heldWritten : ∀ operation ∈ held, Written replica log operation)
    (written : Written replica log operation)
    (counted : operation.counter < (versionOf held).count operation.replica) :
    operation ∈ held := by
  obtain ⟨other, inside, sameReplica, sameCounter⟩ := causal.exists_of_lt counted
  rwa [← authored.eq_of_same_identity distinct (heldWritten other inside) written sameReplica
    sameCounter]

/-- No log counts more operations of a replica than its own. -/
theorem count_le (authored : Authored replica log) (distinct : Function.Injective replica)
    {held : List Operation} (causal : Causal held)
    (heldWritten : ∀ operation ∈ held, Written replica log operation) (author : ι) :
    (versionOf held).count (replica author) ≤ (versionOf (log author)).count (replica author) :=
  causal.count_le (authored.causal author) fun operation inside own =>
    mem_of_own distinct (heldWritten operation inside) own

/-! ## Growing logs -/

/-- One log may grow by operations of its replica and by such as were written
before. -/
theorem grow {after : ι → List Operation} {more : List Operation}
    (authored : Authored replica log) (same : ∀ other, other ≠ member → after other = log other)
    (grown : after member = log member ++ more) (causal : Causal (after member))
    (ascending : Ascending (replica member) (after member))
    (known : ∀ operation ∈ more, operation.replica = replica member ∨
      Written replica log operation) :
    Authored replica after := by
  have kept (other : ι) (operation : Operation) (held : operation ∈ log other) :
      operation ∈ after other := by
    by_cases here : other = member
    · subst here
      rw [grown]
      exact List.mem_append_left _ held
    · rwa [same other here]
  refine ⟨fun other => ?_, fun other => ?_, fun other operation held => ?_⟩
  · by_cases here : other = member
    · exact here ▸ causal
    · exact same other here ▸ authored.causal other
  · by_cases here : other = member
    · exact here ▸ ascending
    · exact same other here ▸ authored.ascending other
  · by_cases here : other = member
    · subst here
      have inside := held
      rw [grown] at inside
      rcases List.mem_append.mp inside with before | added
      · exact (authored.written other operation before).mono kept
      · rcases known operation added with own | written
        · exact ⟨other, own, held⟩
        · exact written.mono kept
    · rw [same other here] at held
      exact (authored.written other operation held).mono kept

/-- What an import of written operations lets take effect is of others: the
replica's own are there already. -/
theorem foreign_of_written (distinct : Function.Injective replica) {more : List Operation}
    (causal : Causal (log member ++ more))
    (written : ∀ operation ∈ more, Written replica log operation) :
    ∀ operation ∈ more, operation.replica ≠ replica member := by
  intro operation added own
  have held := mem_of_own distinct (written operation added) own
  exact (List.nodup_append.mp causal.nodup).2.2 operation held operation added rfl

end Authored

end Roster.Document
