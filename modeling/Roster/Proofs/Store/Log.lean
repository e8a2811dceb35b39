import Roster.Proofs.SortedMap
import Roster.Store.Document

/-!
# Logs of operations

The operations of a document in the order in which they took effect are its
log.  A log is causal if every operation in it was ready when it was appended:
then a version says exactly which operations are there, and an operation is
determined by its replica and its counter.
-/

namespace Roster

namespace Version

private theorem count_advance (version : Version) (advanced replica : ReplicaId) :
    (version.advance advanced).count replica =
      if replica = advanced then version.count advanced + 1 else version.count replica := by
  simp only [count, advance, SortedMap.get?_insert]
  split <;> rfl

/-- A version includes another if it counts no fewer operations of any
replica. -/
theorem includes_iff {left right : Version} :
    left.includes right = true ↔ ∀ replica, right.count replica ≤ left.count replica := by
  unfold includes
  rw [List.all_eq_true]
  constructor
  · intro bounded replica
    cases found : right.counts.get? replica with
    | none => simp [count, found]
    | some counted =>
        have bound := bounded _ (SortedMap.get?_eq_some_iff.mp found)
        have counts : right.count replica = counted := by
          simp [count, found]
        rw [counts]
        exact of_decide_eq_true bound
  · rintro bounded ⟨replica, counted⟩ member
    have found := SortedMap.get?_eq_some_iff.mpr member
    have bound := bounded replica
    have counts : right.count replica = counted := by
      simp [count, found]
    rw [counts] at bound
    exact decide_eq_true bound

theorem includes_self (version : Version) : version.includes version = true :=
  includes_iff.mpr fun _ => Nat.le_refl _

theorem includes_trans {first second third : Version}
    (left : first.includes second = true) (right : second.includes third = true) :
    first.includes third = true :=
  includes_iff.mpr fun replica =>
    Nat.le_trans (includes_iff.mp right replica) (includes_iff.mp left replica)

end Version

namespace Document

def versionOf (log : List Operation) : Version :=
  log.foldl (fun version operation => version.advance operation.replica) Version.empty

theorem version_eq (document : Document) : document.version = versionOf document.applied :=
  rfl

theorem versionOf_append_singleton (log : List Operation) (operation : Operation) :
    versionOf (log ++ [operation]) = (versionOf log).advance operation.replica := by
  simp [versionOf]

theorem count_versionOf_append_singleton (log : List Operation) (operation : Operation)
    (replica : ReplicaId) :
    (versionOf (log ++ [operation])).count replica =
      if replica = operation.replica then (versionOf log).count replica + 1
      else (versionOf log).count replica := by
  rw [versionOf_append_singleton, Version.count_advance]
  split
  · rename_i equal
    rw [equal]
  · rfl

theorem includes_versionOf_append (log more : List Operation) :
    (versionOf (log ++ more)).includes (versionOf log) = true := by
  induction more using List.reverseRecOn with
  | nil =>
      rw [List.append_nil]
      exact Version.includes_self _
  | append_singleton initial last inductionHypothesis =>
      rw [← List.append_assoc]
      refine Version.includes_trans ?_ inductionHypothesis
      rw [Version.includes_iff]
      intro replica
      rw [count_versionOf_append_singleton]
      split
      · exact Nat.le_succ _
      · exact Nat.le_refl _

/-- A version does not include an operation that follows it. -/
theorem not_includes_versionOf_append_singleton (log : List Operation) (operation : Operation) :
    (versionOf log).includes (versionOf (log ++ [operation])) = false := by
  rw [← Bool.not_eq_true, Version.includes_iff]
  intro bounded
  have bound := bounded operation.replica
  rw [count_versionOf_append_singleton, if_pos rfl] at bound
  exact absurd bound (Nat.not_succ_le_self _)

/-- Operations of other replicas do not count. -/
theorem count_versionOf_append_of_ne {log more : List Operation} {replica : ReplicaId}
    (foreign : ∀ operation ∈ more, operation.replica ≠ replica) :
    (versionOf (log ++ more)).count replica = (versionOf log).count replica := by
  induction more using List.reverseRecOn with
  | nil => rw [List.append_nil]
  | append_singleton initial last inductionHypothesis =>
      have lastForeign : last.replica ≠ replica := foreign last (by simp)
      rw [← List.append_assoc, count_versionOf_append_singleton, if_neg (Ne.symm lastForeign)]
      apply inductionHypothesis
      intro operation member
      exact foreign operation (List.mem_append_left _ member)

theorem readyAt_iff {version : Version} {operation : Operation} :
    readyAt version operation = true ↔
      operation.counter = version.count operation.replica ∧
        version.includes operation.needs = true := by
  simp [readyAt]

/-! ## Causal logs -/

/-- Every operation was ready when it was appended. -/
inductive Causal : List Operation → Prop
  | nil : Causal []
  | append {log : List Operation} {operation : Operation} :
      Causal log → readyAt (versionOf log) operation = true →
        Causal (log ++ [operation])

namespace Causal

variable {log : List Operation}

theorem counter_lt (causal : Causal log) {operation : Operation} (member : operation ∈ log) :
    operation.counter < (versionOf log).count operation.replica := by
  induction causal with
  | nil => exact absurd member List.not_mem_nil
  | append _ ready inductionHypothesis =>
      rw [count_versionOf_append_singleton]
      rcases List.mem_append.mp member with earlier | last
      · have below := inductionHypothesis earlier
        split <;> omega
      · cases List.mem_singleton.mp last
        rw [if_pos rfl, (readyAt_iff.mp ready).1]
        exact Nat.lt_succ_self _

/-- No operation takes effect twice. -/
theorem nodup (causal : Causal log) : log.Nodup := by
  induction causal with
  | nil => exact List.nodup_nil
  | @append initial last causalInitial ready inductionHypothesis =>
      have absent : last ∉ initial := by
        intro member
        have below := causalInitial.counter_lt member
        rw [(readyAt_iff.mp ready).1] at below
        exact absurd below (Nat.lt_irrefl _)
      rw [List.nodup_append]
      refine ⟨inductionHypothesis, by simp, ?_⟩
      rintro operation member other final rfl
      rw [List.mem_singleton.mp final] at member
      exact absent member

/-- The version counts nothing that is not there. -/
theorem exists_of_lt (causal : Causal log) {replica : ReplicaId} {counter : Nat}
    (below : counter < (versionOf log).count replica) :
    ∃ operation ∈ log, operation.replica = replica ∧ operation.counter = counter := by
  induction causal with
  | nil => exact absurd below (Nat.not_lt_zero _)
  | @append initial last _ ready inductionHypothesis =>
      rw [count_versionOf_append_singleton] at below
      by_cases earlier : counter < (versionOf initial).count replica
      · obtain ⟨operation, member, identity⟩ := inductionHypothesis earlier
        exact ⟨operation, List.mem_append_left _ member, identity⟩
      · split at below
        · rename_i sameReplica
          refine ⟨last, by simp, sameReplica.symm, ?_⟩
          rw [(readyAt_iff.mp ready).1, ← sameReplica]
          omega
        · exact absurd below earlier

/-- An operation is determined by its replica and its counter. -/
theorem eq_of_same_identity (causal : Causal log) {left right : Operation}
    (leftMember : left ∈ log) (rightMember : right ∈ log)
    (sameReplica : left.replica = right.replica)
    (sameCounter : left.counter = right.counter) :
    left = right := by
  induction causal with
  | nil => exact absurd leftMember List.not_mem_nil
  | @append initial last causalInitial ready inductionHypothesis =>
      have lastCounter := (readyAt_iff.mp ready).1
      rcases List.mem_append.mp leftMember with leftEarlier | leftLast <;>
        rcases List.mem_append.mp rightMember with rightEarlier | rightLast
      · exact inductionHypothesis leftEarlier rightEarlier
      · cases List.mem_singleton.mp rightLast
        have below := causalInitial.counter_lt leftEarlier
        rw [sameReplica, sameCounter, lastCounter] at below
        exact absurd below (Nat.lt_irrefl _)
      · cases List.mem_singleton.mp leftLast
        have below := causalInitial.counter_lt rightEarlier
        rw [← sameReplica, ← sameCounter, lastCounter] at below
        exact absurd below (Nat.lt_irrefl _)
      · exact (List.mem_singleton.mp leftLast).trans (List.mem_singleton.mp rightLast).symm

/-- A log counts no more than another that holds its operations. -/
theorem count_le (causal : Causal log) {other : List Operation} (causalOther : Causal other)
    {replica : ReplicaId}
    (held : ∀ operation ∈ log, operation.replica = replica → operation ∈ other) :
    (versionOf log).count replica ≤ (versionOf other).count replica := by
  by_contra more
  obtain ⟨operation, member, sameReplica, counter⟩ :=
    causal.exists_of_lt (Nat.lt_of_not_le more)
  have below := causalOther.counter_lt (held operation member sameReplica)
  rw [sameReplica, counter] at below
  exact absurd below (Nat.lt_irrefl _)

theorem includes_needs (causal : Causal log) {operation : Operation}
    (member : operation ∈ log) :
    (versionOf log).includes operation.needs = true := by
  induction causal with
  | nil => exact absurd member List.not_mem_nil
  | append _ ready inductionHypothesis =>
      refine Version.includes_trans (includes_versionOf_append _ _) ?_
      rcases List.mem_append.mp member with earlier | last
      · exact inductionHypothesis earlier
      · cases List.mem_singleton.mp last
        exact (readyAt_iff.mp ready).2

/-- What an operation was appended to is causal, and the operation was ready
there. -/
theorem of_append (causal : Causal log) :
    ∀ {initial later : List Operation} {operation : Operation},
      log = initial ++ operation :: later →
        Causal initial ∧ readyAt (versionOf initial) operation = true := by
  induction causal with
  | nil =>
      intro initial later operation split
      simp at split
  | @append before last causalBefore ready inductionHypothesis =>
      intro initial later operation split
      rcases List.eq_nil_or_concat later with empty | ⟨middle, final, concat⟩
      · subst empty
        obtain ⟨sameInitial, sameLast⟩ := List.append_inj' split rfl
        cases sameLast
        subst sameInitial
        exact ⟨causalBefore, ready⟩
      · subst concat
        have shifted : before ++ [last] = (initial ++ operation :: middle) ++ [final] := by
          simpa using split
        exact inductionHypothesis (List.append_inj' shifted rfl).1

end Causal

/-- An operation of a causal log is contained in its version. -/
theorem containedIn_of_mem {log : List Operation} (causal : Causal log) {operation : Operation}
    (member : operation ∈ log) :
    containedIn (versionOf log) operation = true :=
  decide_eq_true (causal.counter_lt member)

end Document

end Roster
