import Roster.Proofs.Store.Authorship
import Roster.Proofs.Store.Exchange

/-!
# What new operations let take effect

After an import no operation that waits is ready.  Nor does one become ready by
what a replica appends to its own log, since nobody can need an operation before
it is written.  So a document that has the version of an author's log takes from
the delta of the author's new operations just these.
-/

namespace Roster

namespace Document

universe u

variable {ι : Type u} {replica : ι → ReplicaId} {log : ι → List Operation} {member : ι}
  {document : Document} {held more : List Operation} {operation : Operation}

/-- What holds of an operation as soon as it holds of all before it in a log holds of all. -/
private theorem forall_mem_of_earlier {log : List Operation} {holds : Operation → Prop}
    (next :
      ∀ {initial later : List Operation} {operation : Operation},
        log = initial ++ operation :: later → (∀ earlier ∈ initial, holds earlier) →
          holds operation) :
    ∀ operation ∈ log, holds operation := by
  have reached :
      ∀ initial later : List Operation, log = initial ++ later →
        ∀ operation ∈ initial, holds operation := by
    intro initial
    induction initial using List.reverseRecOn with
    | nil => simp
    | append_singleton initial last inductionHypothesis =>
        intro later split operation inside
        have placed : log = initial ++ last :: later := by
          rw [split, List.append_assoc, List.singleton_append]
        have before := inductionHypothesis (last :: later) placed
        rcases List.mem_append.mp inside with earlier | final
        · exact before operation earlier
        · cases List.mem_singleton.mp final
          exact next placed before
  exact reached log [] (List.append_nil log).symm

/-! ## Settled documents -/

def Settled (document : Document) : Prop :=
  ∀ operation ∈ document.waiting, readyAt document.version operation = false

theorem settled_receive (document : Document) (delta : List Operation) :
    (document.receive delta).Settled :=
  fun _ => not_readyAt_of_mem_receive

namespace Authored

variable (authored : Authored replica log) (distinct : Function.Injective replica)

include authored distinct

/-- Nothing that was written becomes ready by new operations of a replica all of whose written
ones are held. -/
private theorem not_readyAt_append
    (upToDate :
      (versionOf (log member)).count (replica member) ≤ (versionOf held).count (replica member))
    (own : ∀ operation ∈ more, operation.replica = replica member)
    (written : Written replica log operation)
    (notReady : readyAt (versionOf held) operation = false) :
    readyAt (versionOf (held ++ more)) operation = false := by
  rw [← Bool.not_eq_true, readyAt_iff] at notReady ⊢
  rintro ⟨next, seen⟩
  have unmoved {other : ReplicaId} (foreign : other ≠ replica member) :
      (versionOf (held ++ more)).count other = (versionOf held).count other :=
    count_versionOf_append_of_ne fun added inside same =>
      foreign (same.symm.trans (own added inside))
  have foreign : operation.replica ≠ replica member := by
    intro same
    have below := (authored.causal member).counter_lt (mem_of_own distinct written same)
    have grown := Version.includes_iff.mp (includes_versionOf_append held more) (replica member)
    rw [same] at below next
    omega
  have needed :
      operation.needs.count (replica member) ≤ (versionOf held).count (replica member) := by
    obtain ⟨author, _, inside⟩ := written
    calc
      operation.needs.count (replica member)
        ≤ (versionOf (log author)).count (replica member) :=
          Version.includes_iff.mp ((authored.causal author).includes_needs inside) _
      _ ≤ (versionOf (log member)).count (replica member) :=
          authored.count_le distinct (authored.causal author) (authored.written author) member
      _ ≤ (versionOf held).count (replica member) := upToDate
  apply notReady
  refine ⟨next.trans (unmoved foreign), Version.includes_iff.mpr fun other => ?_⟩
  by_cases here : other = replica member
  · exact here ▸ needed
  · rw [← unmoved here]
    exact Version.includes_iff.mp seen other

/-- The author's document stays settled when the author edits it. -/
theorem settled_write (settled : document.Settled) (logged : document.applied = log member)
    (waiting : ∀ operation ∈ document.waiting, Written replica log operation) (map : String)
    (edits : List Edit) :
    (document.write (replica member) map edits).Settled := by
  obtain ⟨more, applied, stems⟩ := applied_write document (replica member) map edits
  have own : ∀ operation ∈ more, operation.replica = replica member :=
    fun operation inside => (stems operation inside).replica_eq
  intro operation waited
  rw [waiting_write] at waited
  rw [version_eq, applied]
  refine
    authored.not_readyAt_append distinct ?_ own (waiting operation waited)
      (settled operation waited)
  rw [logged]

end Authored

/-! ## Deltas of new operations -/

/-- The document has the version of the member's log, and nothing that waits in it is ready. -/
structure Abreast (replica : ι → ReplicaId) (log : ι → List Operation) (member : ι)
    (document : Document) : Prop where
  same_version : document.version = versionOf (log member)
  settled : document.Settled
  causal : Causal document.applied
  held_written : ∀ operation ∈ document.applied, Written replica log operation
  waiting_written : ∀ operation ∈ document.waiting, Written replica log operation

/-- The member can append the operations to its log. -/
structure Continues (replica : ι → ReplicaId) (log : ι → List Operation) (member : ι)
    (more : List Operation) : Prop where
  own : ∀ operation ∈ more, operation.replica = replica member
  causal : Causal (log member ++ more)
  ascending : Ascending (replica member) (log member ++ more)

namespace Abreast

variable (abreast : Abreast replica log member document) (authored : Authored replica log)
  (distinct : Function.Injective replica)

include abreast authored distinct

/-- The document has the operations of the log. -/
theorem mem_applied_iff : operation ∈ document.applied ↔ operation ∈ log member := by
  have same : versionOf document.applied = versionOf (log member) := abreast.same_version
  constructor
  · intro inside
    exact
      authored.mem_of_counter_lt distinct (authored.causal member) (authored.written member)
        (abreast.held_written operation inside) (same ▸ abreast.causal.counter_lt inside)
  · intro inside
    exact
      authored.mem_of_counter_lt distinct abreast.causal abreast.held_written
        (authored.written member operation inside)
        (same ▸ (authored.causal member).counter_lt inside)

theorem same_entries (map : String) : document.entries map = entriesOf map (log member) := by
  refine
    (entriesOf_eq_of_mem_iff
      (fun _ => (abreast.mem_applied_iff authored distinct).symm) ?_).symm
  intro first firstHeld second secondHeld
  exact
    authored.eq_of_same_rank distinct (authored.written member first firstHeld)
      (authored.written member second secondHeld)

variable (continues : Continues replica log member more)

include continues

/-- Of what waited nothing takes effect. -/
private theorem taken_receive :
    ∃ taken, (document.receive more).applied = document.applied ++ taken ∧
      ∀ operation ∈ taken, operation ∈ more := by
  obtain ⟨taken, applied, known, _⟩ := applied_receive document more
  have causalAfter := causal_receive abreast.causal more
  rw [applied] at causalAfter
  refine ⟨taken, applied, forall_mem_of_earlier fun {initial later operation} split before => ?_⟩
  have placed :
      document.applied ++ taken = (document.applied ++ initial) ++ operation :: later := by
    rw [split, List.append_assoc]
  rcases known operation (by simp [split]) with waited | given
  · have own : ∀ earlier ∈ initial, earlier.replica = replica member :=
      fun earlier inside => continues.own earlier (before earlier inside)
    have idle : readyAt (versionOf (document.applied ++ initial)) operation = false :=
      authored.not_readyAt_append distinct (by rw [← version_eq, abreast.same_version]) own
        (abreast.waiting_written operation waited) (abreast.settled operation waited)
    rw [(causalAfter.of_append placed).2] at idle
    cases idle
  · exact given

/-- All that was given takes effect: the document has the operations of the grown log. -/
private theorem mem_receive_iff :
    operation ∈ (document.receive more).applied ↔ operation ∈ log member ++ more := by
  have sameHeld (operation : Operation) : operation ∈ document.applied ↔ operation ∈ log member :=
    abreast.mem_applied_iff authored distinct
  obtain ⟨taken, applied, given⟩ := abreast.taken_receive authored distinct continues
  have within : ∀ other ∈ (document.receive more).applied, other ∈ log member ++ more := by
    intro other inside
    rw [applied] at inside
    exact (List.mem_append.mp inside).elim
      (fun before => List.mem_append_left _ ((sameHeld other).mp before))
      (fun added => List.mem_append_right _ (given other added))
  have kept : ∀ earlier ∈ log member, earlier ∈ (document.receive more).applied := by
    intro earlier inside
    rw [applied]
    exact List.mem_append_left _ ((sameHeld earlier).mpr inside)
  have reached : ∀ added ∈ more, added ∈ (document.receive more).applied := by
    refine forall_mem_of_earlier fun {initial later added} split before => ?_
    have placed : log member ++ more = (log member ++ initial) ++ added :: later := by
      rw [split, List.append_assoc]
    have inside : added ∈ more := by simp [split]
    obtain ⟨causalInitial, ready⟩ := continues.causal.of_append placed
    refine mem_receive_of_append abreast.causal causalInitial ready (Or.inr inside) ?_ ?_
    · intro other taken
      exact
        continues.causal.eq_of_same_identity (List.mem_append_right _ inside) (within other taken)
    · intro earlier earlierInside
      exact (List.mem_append.mp earlierInside).elim (kept earlier) (before earlier)
  constructor
  · exact within operation
  · intro inside
    exact (List.mem_append.mp inside).elim (kept operation) (reached operation)

/-- New operations advance the version. -/
theorem not_includes_receive (some : more ≠ []) :
    document.version.includes (document.receive more).version = false := by
  rw [← Bool.not_eq_true]
  intro behind
  obtain ⟨added, inside⟩ := List.exists_mem_of_ne_nil more some
  have taken : added ∈ (document.receive more).applied :=
    (abreast.mem_receive_iff authored distinct continues).mpr (List.mem_append_right _ inside)
  rw [Store.applied_receive_of_includes abreast.causal behind,
    abreast.mem_applied_iff authored distinct] at taken
  exact (List.nodup_append.mp continues.causal.nodup).2.2 added taken added inside rfl

/-- The entries are those of the grown log. -/
theorem entries_receive (map : String) :
    (document.receive more).entries map = entriesOf map (log member ++ more) := by
  refine
    (entriesOf_eq_of_mem_iff
      (fun _ => (abreast.mem_receive_iff authored distinct continues).symm) ?_).symm
  intro first firstHeld second secondHeld sameLamport sameReplica
  by_cases here : first.replica = replica member
  · exact
      continues.ascending.eq_of_same_lamport firstHeld secondHeld here
        (sameReplica.symm.trans here) sameLamport
  · have written {operation : Operation} (inside : operation ∈ log member ++ more)
        (elsewhere : operation.replica ≠ replica member) : Written replica log operation := by
      rcases List.mem_append.mp inside with before | added
      · exact authored.written member operation before
      · exact absurd (continues.own operation added) elsewhere
    exact
      authored.eq_of_same_rank distinct (written firstHeld here)
        (written secondHeld (sameReplica ▸ here)) sameLamport sameReplica

end Abreast

end Document

end Roster
